import MarkupForest.Forest.Snapshot
import MarkupForest.Json.Printer

/-!
# Writing stored forms

Property values, property maps and snapshots have a stored form in JSON.  A
value is an object with one member that names its kind; a snapshot is an object
whose members stand in a fixed order.
-/

namespace MarkupForest

namespace NodeId

def toJson (id : NodeId) : Json := .ofText id.text

end NodeId

namespace NodeType

def toJson (type : NodeType) : Json := .ofText type.name

end NodeType

namespace PropertyValue

def textsToJson (texts : List String) : Json :=
  .array (texts.map .ofText)

def tableToJson (data : TableData) : Json :=
  .ofMembers
    [ ("headers", textsToJson data.headers),
      ("rows", .array (data.rows.map textsToJson)) ]

def toJson : PropertyValue → Json
  | text s => .ofMembers [("Text", .ofText s)]
  | number x => .ofMembers [("Number", .ofNumber x)]
  | flag b => .ofMembers [("Bool", .bool b)]
  | list items => .ofMembers [("StringList", textsToJson items)]
  | table data => .ofMembers [("Table", tableToJson data)]

end PropertyValue

namespace Properties

/-- The stored form of a property map, names in order. -/
def toJson (properties : Properties) : Json :=
  .ofMembers (properties.entries.map fun entry => (entry.1, entry.2.toJson))

end Properties

namespace Snapshot

mutual

def toJson : Snapshot → Json
  | node id type properties children =>
      .ofMembers
        [ ("id", id.toJson),
          ("node_type", type.toJson),
          ("props", Properties.toJson properties),
          ("children", .array (toJsonItems children)) ]

def toJsonItems : List Snapshot → List Json
  | [] => []
  | s :: rest => toJson s :: toJsonItems rest

end

def listToJson (ss : List Snapshot) : Json := .array (toJsonItems ss)

end Snapshot

end MarkupForest
