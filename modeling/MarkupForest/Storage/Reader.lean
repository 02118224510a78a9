import MarkupForest.Error
import MarkupForest.Forest.Snapshot
import MarkupForest.Json.Number
import MarkupForest.Json.Parser

/-!
# Reading stored forms

Readers take a JSON value and a number of levels: how many arrays and objects
may still be opened, one inside the other.  A document may open 127.  Members
that no reader asks for do not count.

A record may be given as an object, whose unknown members are passed over and
whose known ones must each occur once, or as an array of exactly its fields.
-/

namespace MarkupForest

namespace Json

/-- How many arrays and objects a document may open inside each other. -/
def documentLevels : Nat := 127

def items? {α : Type} (read : Nat → Json → Option α) :
    Nat → Json → Option (List α)
  | levels + 1, array items => items.mapM (read levels)
  | _, _ => none

def readText? (_ : Nat) (value : Json) : Option String := value.text?

def readTexts? : Nat → Json → Option (List String) := items? readText?

/-- The value of a member that occurs once. -/
def member? (name : String) (members : List (Option String × Json)) :
    Option Json :=
  match members.filter fun member => member.1 == some name with
  | [(_, value)] => some value
  | _ => none

/-- The fields of a record, in the order of their names. -/
def fields? (names : List String) : Json → Option (List Json)
  | array items => if items.length = names.length then some items else none
  | object members =>
      if members.all fun member => member.1.isSome then
        names.mapM (member? · members)
      else
        none
  | _ => none

end Json

namespace NodeType

/-- A type given by its name, or by its name as the only member of an object
that holds nothing. -/
def ofJson? : Nat → Json → Option NodeType
  | _, .string (some name) => ofName? name
  | _ + 1, .object [(some name, .null)] => ofName? name
  | _, _ => none

end NodeType

namespace NodeId

def ofJson? (value : Json) : Option NodeId :=
  value.text?.map NodeId.mk

end NodeId

namespace PropertyValue

def tableOfJson? : Nat → Json → Option TableData
  | levels + 1, value => do
      match ← value.fields? ["headers", "rows"] with
      | [headers, rows] =>
          let headers ← Json.readTexts? levels headers
          let rows ← Json.items? Json.readTexts? levels rows
          return { headers, rows }
      | _ => none
  | 0, _ => none

/-- A value by the name of its kind and its content. -/
def ofContent? (levels : Nat) (kind : String) (content : Json) :
    Option PropertyValue :=
  if kind = "Text" then
    content.text?.map text
  else if kind = "Number" then
    content.number?.map number
  else if kind = "Bool" then
    match content with
    | .bool b => some (flag b)
    | _ => none
  else if kind = "StringList" then
    (Json.readTexts? levels content).map list
  else if kind = "Table" then
    (tableOfJson? levels content).map table
  else
    none

def ofJson? : Nat → Json → Option PropertyValue
  | levels + 1, .object [(some kind, content)] => ofContent? levels kind content
  | _, _ => none

end PropertyValue

namespace Properties

def entryOfJson? (levels : Nat) (member : Option String × Json) :
    Option (String × PropertyValue) := do
  let name ← member.1
  let value ← PropertyValue.ofJson? levels member.2
  return (name, value)

/-- A property map.  A repeated name replaces the value at its first place. -/
def ofJson? : Nat → Json → Option Properties
  | levels + 1, .object members =>
      (members.mapM (entryOfJson? levels)).map OrderedMap.ofList
  | _, _ => none

end Properties

namespace Snapshot

/-- A snapshot.  Its list of children is one level further in. -/
def ofJson? : Nat → Json → Option Snapshot
  | levels + 2, value => do
      match ← value.fields? ["id", "node_type", "props", "children"] with
      | [id, type, properties, .array children] =>
          let id ← NodeId.ofJson? id
          let type ← NodeType.ofJson? (levels + 1) type
          let properties ← Properties.ofJson? (levels + 1) properties
          let children ← children.mapM (ofJson? levels)
          return node id type properties children
      | _ => none
  | _, _ => none

end Snapshot

end MarkupForest
