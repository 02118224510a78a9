import MarkupForest.Forest.Basic

/-!
# Traversals

A preorder traversal works on a stack of nodes still to be visited, each with
its depth.  Visiting a node puts its children in front of the stack.  In a
forest every node is reached once, so as many steps as there are nodes finish
the traversal.
-/

namespace MarkupForest

namespace Forest

/-- A visited node and its depth below the start of the traversal. -/
abbrev Row := Nat × Node

/-- Visit the nodes on the stack and everything below them, in at most
`steps` steps.  Identifiers without a node are skipped. -/
def visit (arena : Arena) : Nat → List (Nat × NodeId) → List Row
  | 0, _ => []
  | _ + 1, [] => []
  | steps + 1, (depth, id) :: rest =>
      match arena[id]? with
      | some node =>
          (depth, node) ::
            visit arena steps (node.children.map (depth + 1, ·) ++ rest)
      | none => visit arena steps rest

def rows (forest : Forest) : List Row :=
  visit forest.arena forest.size (forest.roots.map (0, ·))

/-- Count the nodes on the stack and everything below them, in at most
`steps` steps, on top of `count`.  Order does not matter here, and the last
child is the first one off the stack. -/
def tally (arena : Arena) : Nat → List NodeId → Nat → Nat
  | 0, _, count => count
  | _ + 1, [], count => count
  | steps + 1, id :: rest, count =>
      match arena[id]? with
      | some node =>
          tally arena steps (node.children.reverse ++ rest) (count + 1)
      | none => tally arena steps rest count

def descendantCount? (forest : Forest) (id : NodeId) : Option Nat :=
  (forest.find? id).map fun node =>
    tally forest.arena forest.size node.children.reverse 0

def maxDepth? (forest : Forest) : Option Nat :=
  (forest.rows.map Prod.fst).max?

end Forest

end MarkupForest
