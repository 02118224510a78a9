import MarkupForest.NodeType

/-!
# Node identifiers

An identifier names one node of a forest.  Generated identifiers consist of the
name of the node's type and a counter that never goes back.
-/

namespace MarkupForest

structure NodeId where
  text : String
  deriving DecidableEq, Hashable, Inhabited

namespace NodeId

instance : EquivBEq NodeId := inferInstance

instance : LawfulHashable NodeId := inferInstance

/-- The identifier for the node of this type created at this count. -/
def generate (type : NodeType) (count : Nat) : NodeId :=
  ⟨type.name ++ "-" ++ toString count⟩

instance : Ord NodeId where
  compare a b := compare a.text b.text

end NodeId

end MarkupForest
