import MarkupForest.NodeId

/-!
# Errors

The reasons why an edit or a rendering is refused, with the message shown for
each.  An edit is checked completely before anything changes.
-/

namespace MarkupForest

/-- Why an edit is refused. -/
inductive EditError where
  | unknownType (name : String)
  | parentNotFound (id : NodeId)
  | nodeNotFound (id : NodeId)
  | invalidStructure (parent : NodeId) (type : NodeType)
  | invalidMove (id : NodeId) (target : NodeId)
  deriving DecidableEq

namespace EditError

def message : EditError → String
  | unknownType name => "Unknown node type: " ++ name
  | parentNotFound id => "Parent node not found: " ++ id.text
  | nodeNotFound id => "Node not found: " ++ id.text
  | invalidStructure parent type =>
      "Cannot place a " ++ type.name ++ " node under " ++ parent.text ++
        ": leaf types cannot own children"
  | invalidMove id target =>
      "Cannot move node " ++ id.text ++ " into " ++ target.text ++
        ": target is inside the moved subtree"

end EditError

/-- Why a rendering is refused. -/
inductive RenderError where
  | unknownProfile (id : String)
  | unknownType (name : String)
  | nodeNotFound (id : NodeId)
  deriving DecidableEq

namespace RenderError

def message : RenderError → String
  | unknownProfile id => "Unknown render profile: " ++ id
  | unknownType name => "Unknown node type: " ++ name
  | nodeNotFound id => "Node not found: " ++ id.text

end RenderError

namespace NodeType

def parse (s : String) : Except EditError NodeType :=
  match ofName? s with
  | some type => .ok type
  | none => .error (.unknownType s)

end NodeType

end MarkupForest
