import Std.Data.ExtHashMap
import MarkupForest.Forest.Node
import MarkupForest.Registry

/-!
# Forests

A forest keeps its nodes in an arena, by identifier.  Each node lists its
children and records its parent, and the roots are listed apart, so every node
is named in exactly one list of siblings: that of its parent, or the roots.

This module has the arena and its lists of siblings, on which edits and
traversals are built.
-/

namespace MarkupForest

/-- The nodes of a forest, by identifier. -/
abbrev Arena := Std.ExtHashMap NodeId Node

structure Options where
  /-- Refuse children under types that own none. -/
  strictStructure : Bool
  deriving DecidableEq, Inhabited

structure Forest where
  registry : Registry
  options : Options
  arena : Arena
  roots : List NodeId
  /-- The count for the next new identifier; it never goes back. -/
  nextCount : Nat

namespace Forest

protected def empty (registry : Registry) (options : Options) : Forest where
  registry := registry
  options := options
  arena := ∅
  roots := []
  nextCount := 1

instance : Inhabited Forest := ⟨Forest.empty default default⟩

def find? (forest : Forest) (id : NodeId) : Option Node :=
  forest.arena[id]?

def contains (forest : Forest) (id : NodeId) : Bool :=
  forest.arena.contains id

def size (forest : Forest) : Nat :=
  forest.arena.size

def isEmpty (forest : Forest) : Bool :=
  forest.arena.isEmpty

/-- The nodes below a node, in order; none for a missing node. -/
def children (forest : Forest) (id : NodeId) : List Node :=
  match forest.find? id with
  | some node => node.children.filterMap forest.find?
  | none => []

def parent? (forest : Forest) (id : NodeId) : Option Node :=
  ((forest.find? id).bind Node.parent).bind forest.find?

/-! ## Lists of siblings -/

/-- The siblings under a parent, or the roots. -/
def siblings (forest : Forest) : Option NodeId → List NodeId
  | none => forest.roots
  | some parent => ((forest.find? parent).map Node.children).getD []

def modifySiblings (forest : Forest) (parent : Option NodeId)
    (change : List NodeId → List NodeId) : Forest :=
  match parent with
  | none => { forest with roots := change forest.roots }
  | some id =>
      { forest with
        arena := forest.arena.modify id fun node =>
          { node with children := change node.children } }

/-- Insert into a list at an index, at the end when the index lies beyond it. -/
def insertAt (index : Nat) (id : NodeId) (siblings : List NodeId) :
    List NodeId :=
  siblings.insertIdx (min index siblings.length) id

/-- Insert into a list right after an entry, at the end when it is missing. -/
def insertAfter (entry : NodeId) (id : NodeId) (siblings : List NodeId) :
    List NodeId :=
  insertAt (siblings.idxOf entry + 1) id siblings

def attach (forest : Forest) (id : NodeId) (parent : Option NodeId)
    (index : Option Nat) : Forest :=
  forest.modifySiblings parent fun siblings =>
    insertAt (index.getD siblings.length) id siblings

def detach (forest : Forest) (id : NodeId) (parent : Option NodeId) : Forest :=
  forest.modifySiblings parent (List.filter (· ≠ id))

/-! ## Ancestors -/

/--
Whether the walk from a node along its parents meets `ancestor`, in at most
`steps` steps.
-/
def meetsAbove (arena : Arena) (ancestor : NodeId) : Nat → NodeId → Bool
  | 0, id => id == ancestor
  | steps + 1, id =>
      id == ancestor ||
        match (arena[id]?).bind Node.parent with
        | some parent => meetsAbove arena ancestor steps parent
        | none => false

def isSelfOrAncestor (forest : Forest) (ancestor id : NodeId) : Bool :=
  meetsAbove forest.arena ancestor forest.size id

end Forest

end MarkupForest
