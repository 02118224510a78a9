import MarkupForest.Descriptor

/-!
# Registries of node types

A registry holds at most one descriptor per type, in the order in which the
types were first registered.  It is configuration: forests and renderers read
it and never change it.
-/

namespace MarkupForest

structure Registry where
  descriptors : OrderedMap NodeType Descriptor

namespace Registry

protected def empty : Registry := ⟨∅⟩

instance : Inhabited Registry := ⟨Registry.empty⟩

/-- Register a descriptor; an earlier one for its type is replaced in place. -/
def register (r : Registry) (d : Descriptor) : Registry :=
  ⟨r.descriptors.insert d.type d⟩

def registerAll (r : Registry) (ds : List Descriptor) : Registry :=
  ds.foldl register r

def find? (r : Registry) (type : NodeType) : Option Descriptor :=
  r.descriptors.find? type

def contains (r : Registry) (type : NodeType) : Bool :=
  r.descriptors.contains type

def types (r : Registry) : List NodeType :=
  r.descriptors.keys

def size (r : Registry) : Nat := r.descriptors.size

def isEmpty (r : Registry) : Bool := r.descriptors.isEmpty

end Registry

end MarkupForest
