import MarkupForest.Forest.Edit

/-!
# Growing a forest

Several inserts in a row, either all under one parent or each under the node
before it.  The first refusal ends the row; the nodes inserted so far stay.
-/

namespace MarkupForest

namespace Forest

inductive GrowthPattern where
  /-- Each node goes under the one before it. -/
  | chain
  /-- All nodes go under the same parent. -/
  | fan
  deriving DecidableEq

/-- What came of a row of inserts, and the last node it created. -/
structure Growth where
  answer : Except EditError (Option NodeId)
  forest : Forest
  notices : List Notice

/-- Insert `count` nodes of a type; `last` is the node created before. -/
def growFrom (pattern : GrowthPattern) (type : NodeType) :
    Nat → Option NodeId → Option NodeId → Forest → Growth
  | 0, _, last, forest => ⟨.ok last, forest, []⟩
  | count + 1, parent, _, forest =>
      match forest.insert parent type with
      | .error e => ⟨.error e, forest, []⟩
      | .ok (id, grown) =>
          let next :=
            match pattern with
            | .chain => some id
            | .fan => parent
          let growth := growFrom pattern type count next (some id) grown
          { growth with notices := .inserted id parent :: growth.notices }

def grow (forest : Forest) (pattern : GrowthPattern) (type : NodeType)
    (count : Nat) (parent : Option NodeId) : Growth :=
  growFrom pattern type count parent none forest

end Forest

end MarkupForest
