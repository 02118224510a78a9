import MarkupForest.Forest.Traversal

/-!
# Copies of a subtree

A subtree is copied node by node in document order, under new identifiers.
The copies go into the arena that is being read: each one is listed under the
copy of its parent as soon as it exists.  Only the first copy is listed nowhere;
its place among the siblings is found afterwards.
-/

namespace MarkupForest

namespace Forest

structure Copy where
  arena : Arena
  nextCount : Nat
  /-- The copy of the node at the top, once it exists. -/
  top : Option NodeId

namespace Copy

def nextId (copy : Copy) (node : Node) : NodeId :=
  NodeId.generate node.type copy.nextCount

/-- List a copy under the copy of its parent, last.  The copy at the top, made
while there is none yet, is not listed. -/
def link (top parent : Option NodeId) (id : NodeId) (arena : Arena) : Arena :=
  match top, parent with
  | some _, some parent =>
      arena.modify parent fun node =>
        { node with children := node.children ++ [id] }
  | _, _ => arena

def add (node : Node) (parent : Option NodeId) : Copy → Copy
  | ⟨arena, nextCount, top⟩ =>
      let id := NodeId.generate node.type nextCount
      { arena :=
          (link top parent id arena).insert id
            { node with id, parent, children := [] }
        nextCount := nextCount + 1
        top := top.or (some id) }

/-- Copy the nodes on the stack and everything below them, in at most `steps`
steps.  Each one goes under the parent beside it; identifiers without a node
are skipped. -/
def run : Nat → List (NodeId × Option NodeId) → Copy → Copy
  | 0, _, copy => copy
  | _ + 1, [], copy => copy
  | steps + 1, (source, parent) :: rest, copy =>
      match copy.arena[source]? with
      | some node =>
          let id := copy.nextId node
          run steps (node.children.map (·, some id) ++ rest)
            (copy.add node parent)
      | none => run steps rest copy

end Copy

def copySubtree (forest : Forest) (node : Node) : Copy :=
  Copy.run forest.size [(node.id, node.parent)]
    ⟨forest.arena, forest.nextCount, none⟩

end Forest

end MarkupForest
