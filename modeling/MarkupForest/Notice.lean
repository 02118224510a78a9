import MarkupForest.NodeId

/-!
# Notices

Edits and renderings leave a record of what they did.  A notice is data; its
text is only written when someone reads it.
-/

namespace MarkupForest

inductive Severity where
  | debug
  | warn
  deriving DecidableEq

inductive Notice where
  | inserted (id : NodeId) (parent : Option NodeId)
  | propertiesReplaced (id : NodeId)
  | deleted (id : NodeId) (count : Nat)
  | moved (id : NodeId) (parent : Option NodeId)
  | duplicated (id : NodeId) (copy : NodeId)
  | renderedGenerically (profile : String) (type : NodeType)
  | childrenDropped (id : NodeId) (type : NodeType) (count : Nat)
  deriving DecidableEq

namespace Notice

def severity : Notice → Severity
  | childrenDropped _ _ _ => .warn
  | _ => .debug

def parentText : Option NodeId → String
  | some id => id.text
  | none => "<root>"

def message : Notice → String
  | inserted id parent =>
      "inserted " ++ id.text ++ " under " ++ parentText parent
  | propertiesReplaced id => "replaced props of " ++ id.text
  | deleted id count =>
      "deleted " ++ id.text ++ " (" ++ toString count ++ " nodes)"
  | moved id parent => "moved " ++ id.text ++ " under " ++ parentText parent
  | duplicated id copy => "duplicated " ++ id.text ++ " as " ++ copy.text
  | renderedGenerically profile type =>
      "No " ++ profile ++ " rendering for " ++ type.name ++
        ", using generic fallback"
  | childrenDropped id type count =>
      id.text ++ " (" ++ type.name ++ ") renders self-closing; dropping " ++
        toString count ++ " children"

end Notice

end MarkupForest
