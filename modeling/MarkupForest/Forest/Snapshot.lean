import MarkupForest.Forest.Basic

/-!
# Snapshots

A snapshot is a nested copy of a node and everything below it.  It has no links
and no arena, so whatever it holds can be read off by structural recursion.

A snapshot of a forest is taken with a stack of unfinished nodes, so that the
depth of a forest does not matter.  Every node is put on the stack once and
taken off once, so twice as many steps as there are nodes finish the copy.
-/

namespace MarkupForest

/-- A node with its properties and nested children. -/
inductive Snapshot where
  | node (id : NodeId) (type : NodeType) (properties : Properties)
      (children : List Snapshot)

namespace Snapshot

def id : Snapshot → NodeId
  | node id _ _ _ => id

def type : Snapshot → NodeType
  | node _ type _ _ => type

def properties : Snapshot → Properties
  | node _ _ properties _ => properties

def children : Snapshot → List Snapshot
  | node _ _ _ children => children

instance : Inhabited Snapshot := ⟨node default default default []⟩

/-! ## Equality -/

mutual

/-- Equality of snapshots, with properties compared as maps of values. -/
def equal : Snapshot → Snapshot → Bool
  | node i s p cs, node j t q ds =>
      decide (i = j) && decide (s = t) && Properties.equal p q &&
        equalLists cs ds

def equalLists : List Snapshot → List Snapshot → Bool
  | [], [] => true
  | c :: cs, d :: ds => equal c d && equalLists cs ds
  | _, _ => false

end

/-! ## Rows -/

/-- A node of a snapshot without its children, and its depth. -/
structure Row where
  depth : Nat
  id : NodeId
  type : NodeType
  properties : Properties

mutual

/-- The nodes of a snapshot in document order, the first one at `depth`. -/
def rowsAt (depth : Nat) : Snapshot → List Row
  | node id type properties children =>
      ⟨depth, id, type, properties⟩ :: rowsOfListAt (depth + 1) children

def rowsOfListAt (depth : Nat) : List Snapshot → List Row
  | [] => []
  | s :: rest => rowsAt depth s ++ rowsOfListAt depth rest

end

def rows (s : Snapshot) : List Row := s.rowsAt 0

def rowsOfList (ss : List Snapshot) : List Row := rowsOfListAt 0 ss

/-! ## Outlines -/

mutual

/-- The identifiers of a snapshot, those of children in parentheses. -/
def outline : Snapshot → String
  | node id _ _ [] => id.text
  | node id _ _ (c :: cs) =>
      id.text ++ "(" ++ (outline c ++ outlineRest cs) ++ ")"

/-- Outlines that follow another one. -/
def outlineRest : List Snapshot → String
  | [] => ""
  | c :: cs => "," ++ outline c ++ outlineRest cs

end

def outlineList : List Snapshot → String
  | [] => ""
  | c :: cs => outline c ++ outlineRest cs

end Snapshot

namespace Forest

/-- A node whose children are being copied. -/
structure Frame where
  node : Node
  /-- The children that are still to be copied. -/
  ahead : List NodeId
  /-- The copies of the children before them, the latest one first. -/
  finished : List Snapshot

namespace Frame

def start (node : Node) : Frame :=
  ⟨node, node.children, []⟩

def snapshot (frame : Frame) : Snapshot :=
  .node frame.node.id frame.node.type frame.node.properties
    frame.finished.reverse

end Frame

/-- Finish the frames of a stack, in at most `steps` steps.  The answer is the
snapshot of the last frame; identifiers without a node are skipped. -/
def unwind (arena : Arena) : Nat → List Frame → Option Snapshot
  | 0, _ => none
  | _ + 1, [] => none
  | steps + 1, ⟨node, id :: ahead, finished⟩ :: rest =>
      match arena[id]? with
      | some child =>
          unwind arena steps (.start child :: ⟨node, ahead, finished⟩ :: rest)
      | none => unwind arena steps (⟨node, ahead, finished⟩ :: rest)
  | _ + 1, [⟨node, [], finished⟩] =>
      some (Frame.snapshot ⟨node, [], finished⟩)
  | steps + 1, ⟨node, [], finished⟩ :: ⟨above, ahead, before⟩ :: rest =>
      unwind arena steps
        (⟨above, ahead, Frame.snapshot ⟨node, [], finished⟩ :: before⟩ :: rest)

def snapshotOf? (forest : Forest) (id : NodeId) : Option Snapshot :=
  (forest.find? id).bind fun node =>
    unwind forest.arena (2 * forest.size) [.start node]

def snapshot (forest : Forest) : List Snapshot :=
  forest.roots.filterMap forest.snapshotOf?

def outline (forest : Forest) : String :=
  Snapshot.outlineList forest.snapshot

end Forest

end MarkupForest
