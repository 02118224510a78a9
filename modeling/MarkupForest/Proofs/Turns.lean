import Mathlib.Data.List.Perm.Subperm
import MarkupForest.Proofs.Drafts

/-!
# Loops, turn by turn

The loops over an arena get as many steps as they may take, so nothing in their
definitions says whether they would also end without that number.  Here each
loop is taken apart into its turns, which know no number of steps: a turn says
what the loop takes off its stack and how it goes on, or that it has stopped.

A loop with steps is the repetition of its turn.  If the turns come to an end
before the steps are used up, then the loop's answer is the one that the turns
lead to.
-/

namespace MarkupForest

/-- A turn of a loop: none once the loop has stopped, or else the node that was
taken off the stack, if any, and the state after the turn. -/
abbrev Turn (State : Type) := State → Option (Option NodeId × State)

/-- The loop with steps repeats the turn and reads its answer off the state at
which the turns stop. -/
structure Repeats {State Answer : Type} (run : Nat → State → Answer)
    (turn : Turn State) (answer : State → Answer) : Prop where
  again : forall {state next item} steps, turn state = some (item, next) →
    run (steps + 1) state = run steps next
  stop : forall {state} steps, turn state = none →
    run steps state = answer state

/-- A loop with steps, and the turn that it repeats. -/
structure Loop (State Answer : Type) where
  run : Nat → State → Answer
  turn : Turn State
  answer : State → Answer
  repeats : Repeats run turn answer

namespace Loop

variable {State Answer : Type} {loop : Loop State Answer} {turn : Turn State}
  {first next last : State} {taken nodes : List NodeId} {count bound work : Nat}

/-- As many turns as `count` lead from one state to another, and take the nodes
`taken` off the stack on the way. -/
inductive Turns (turn : Turn State) :
    State → Nat → List NodeId → State → Prop where
  | refl (state : State) : Turns turn state 0 [] state
  | head {first next last : State} {item : Option NodeId} {count : Nat}
      {taken : List NodeId} :
      turn first = some (item, next) → Turns turn next count taken last →
      Turns turn first (count + 1) (item.toList ++ taken) last

/-- The loop stops by itself, after at most `bound` turns, in which it takes no
node off the stack but one of `nodes`, and none of them twice. -/
structure Ends (loop : Loop State Answer) (first last : State)
    (nodes : List NodeId) (bound : Nat) : Prop where
  turns : exists count taken, Turns loop.turn first count taken last ∧
    count ≤ bound ∧ taken.Nodup ∧ taken ⊆ nodes
  stops : loop.turn last = none

theorem Ends.mono {more : List NodeId} {larger : Nat}
    (h : loop.Ends first last nodes bound) (hnodes : nodes ⊆ more)
    (hbound : bound ≤ larger) : loop.Ends first last more larger := by
  rcases h with ⟨⟨count, taken, hturns, hcount, hnodup, htaken⟩, hstop⟩
  exact ⟨⟨count, taken, hturns, Nat.le_trans hcount hbound, hnodup,
    List.Subset.trans htaken hnodes⟩, hstop⟩

/-!
# Loops that get enough steps
-/

theorem Turns.run_eq (h : Turns loop.turn first count taken last)
    (hstop : loop.turn last = none) {steps : Nat} (hsteps : count ≤ steps) :
    loop.run steps first = loop.answer last := by
  induction h generalizing steps with
  | refl state => exact loop.repeats.stop steps hstop
  | head hturn _ ih =>
      cases steps with
      | zero => exact absurd hsteps (Nat.not_succ_le_zero _)
      | succ steps =>
          rw [loop.repeats.again steps hturn]
          exact ih hstop (Nat.le_of_succ_le_succ hsteps)

theorem Ends.run_eq (h : loop.Ends first last nodes bound) {steps : Nat}
    (hsteps : bound ≤ steps) : loop.run steps first = loop.answer last := by
  rcases h with ⟨⟨count, taken, hturns, hcount, _⟩, hstop⟩
  exact hturns.run_eq hstop (Nat.le_trans hcount hsteps)

/-!
# Loops that have to stop
-/

/-- What is left to do gets less with every turn.  There are the nodes that may
still be taken off the stack, and a bound for the turns. -/
def Advances (turn : Turn State) (left : State → List NodeId → Nat → Prop) :
    Prop :=
  forall {state next item nodes work}, left state nodes work →
    turn state = some (item, next) →
    exists rest less, left next rest less ∧ less < work ∧
      (item.toList ++ rest).Subperm nodes

theorem Advances.exists_turns {left : State → List NodeId → Nat → Prop}
    (h : Advances turn left) (hleft : left first nodes work) :
    exists count taken last, Turns turn first count taken last ∧
      turn last = none ∧ count ≤ work ∧ taken.Subperm nodes := by
  induction work using Nat.strongRecOn generalizing first nodes with
  | ind work ih =>
      cases hturn : turn first with
      | none =>
          exact ⟨0, [], first, Turns.refl first, hturn, Nat.zero_le _,
            List.nil_subperm⟩
      | some answer =>
          rcases answer with ⟨item, next⟩
          rcases h hleft hturn with ⟨rest, less, hnext, hless, hnodes⟩
          rcases ih less hless hnext with
            ⟨count, taken, last, hturns, hstop, hcount, htaken⟩
          refine ⟨count + 1, item.toList ++ taken, last,
            Turns.head hturn hturns, hstop, by omega, ?_⟩
          exact ((List.subperm_append_left _).mpr htaken).trans hnodes

theorem nodup_of_subperm (h : taken.Subperm nodes) (hnodup : nodes.Nodup) :
    taken.Nodup := by
  rcases h with ⟨others, hperm, hsub⟩
  exact hperm.nodup_iff.mp (hnodup.sublist hsub)

/-- A loop that has to stop ends by itself, and if it gets enough steps then its
answer is the one at the end. -/
theorem exists_ends {left : State → List NodeId → Nat → Prop}
    (loop : Loop State Answer) (h : Advances loop.turn left) (first : State)
    (hleft : left first nodes work) (hnodup : nodes.Nodup) {steps : Nat}
    (hsteps : work ≤ steps) :
    exists last, loop.Ends first last nodes work ∧
      loop.run steps first = loop.answer last := by
  rcases h.exists_turns hleft with
    ⟨count, taken, last, hturns, hstop, hcount, htaken⟩
  have hends : loop.Ends first last nodes work :=
    ⟨⟨count, taken, hturns, hcount, nodup_of_subperm htaken hnodup,
      htaken.subset⟩, hstop⟩
  exact ⟨last, hends, hends.run_eq hsteps⟩

end Loop

namespace Forest

variable {arena : Arena}

/-!
# The way up
-/

/-- The node whose turn it is, and whether the ancestor was met. -/
def climbTurn (arena : Arena) (ancestor : NodeId) :
    Turn (Option NodeId × Bool)
  | (none, _) => none
  | (some id, _) =>
      some (some id,
        if id == ancestor then (none, true)
        else ((arena[id]?).bind Node.parent, false))

/-- The walk along the parents, one step for each node that is looked at. -/
def climb (arena : Arena) (ancestor : NodeId) : Nat → Option NodeId × Bool → Bool
  | _, (none, met) => met
  | 0, (some _, _) => false
  | steps + 1, (some id, _) => meetsAbove arena ancestor steps id

theorem climb_repeats (arena : Arena) (ancestor : NodeId) :
    Repeats (climb arena ancestor) (climbTurn arena ancestor) Prod.snd := by
  constructor
  · rintro ⟨current, met⟩ next item steps hturn
    cases current with
    | none => cases hturn
    | some id =>
        cases hturn
        by_cases hid : id = ancestor
        · cases steps <;> simp [climb, meetsAbove, hid]
        · cases hup : (arena[id]?).bind Node.parent <;> cases steps <;>
            simp [climb, meetsAbove, hid, hup]
  · rintro ⟨current, met⟩ steps hturn
    cases current with
    | none => cases steps <;> rfl
    | some id => cases hturn

def climbLoop (arena : Arena) (ancestor : NodeId) :
    Loop (Option NodeId × Bool) Bool where
  run := climb arena ancestor
  turn := climbTurn arena ancestor
  answer := Prod.snd
  repeats := climb_repeats arena ancestor

/-!
# Traversals
-/

/-- The stack, and the rows before it. -/
def visitTurn (arena : Arena) : Turn (List (Nat × NodeId) × List Row)
  | ([], _) => none
  | ((depth, id) :: rest, rows) =>
      some (some id,
        match arena[id]? with
        | some node =>
            (node.children.map (depth + 1, ·) ++ rest, rows ++ [(depth, node)])
        | none => (rest, rows))

theorem visit_repeats (arena : Arena) :
    Repeats (fun steps state => state.2 ++ visit arena steps state.1)
      (visitTurn arena) Prod.snd := by
  constructor
  · rintro ⟨stack, rows⟩ next item steps hturn
    cases stack with
    | nil => cases hturn
    | cons entry rest =>
        rcases entry with ⟨depth, id⟩
        cases hturn
        cases hfind : arena[id]? <;> simp [visit, hfind]
  · rintro ⟨stack, rows⟩ steps hturn
    cases stack with
    | nil => cases steps <;> simp [visit]
    | cons entry rest => cases hturn

def visitLoop (arena : Arena) : Loop (List (Nat × NodeId) × List Row) (List Row) where
  run steps state := state.2 ++ visit arena steps state.1
  turn := visitTurn arena
  answer := Prod.snd
  repeats := visit_repeats arena

/-- The stack, and the count so far. -/
def tallyTurn (arena : Arena) : Turn (List NodeId × Nat)
  | ([], _) => none
  | (id :: rest, count) =>
      some (some id,
        match arena[id]? with
        | some node => (node.children.reverse ++ rest, count + 1)
        | none => (rest, count))

theorem tally_repeats (arena : Arena) :
    Repeats (fun steps state => tally arena steps state.1 state.2)
      (tallyTurn arena) Prod.snd := by
  constructor
  · rintro ⟨stack, count⟩ next item steps hturn
    cases stack with
    | nil => cases hturn
    | cons id rest =>
        cases hturn
        cases hfind : arena[id]? <;> simp [tally, hfind]
  · rintro ⟨stack, count⟩ steps hturn
    cases stack with
    | nil => cases steps <;> rfl
    | cons id rest => cases hturn

def tallyLoop (arena : Arena) : Loop (List NodeId × Nat) Nat where
  run steps state := tally arena steps state.1 state.2
  turn := tallyTurn arena
  answer := Prod.snd
  repeats := tally_repeats arena

/-- Frames that are not finished, or the snapshot of the last one. -/
inductive Unwinding where
  | frames (stack : List Frame)
  | made (s : Snapshot)

def Unwinding.answer : Unwinding → Option Snapshot
  | frames _ => none
  | made s => some s

/-- A node is taken off the stack with its finished frame. -/
def unwindTurn (arena : Arena) : Turn Unwinding
  | .made _ => none
  | .frames [] => none
  | .frames (⟨node, id :: ahead, finished⟩ :: rest) =>
      some (none, .frames
        (match arena[id]? with
        | some child => .start child :: ⟨node, ahead, finished⟩ :: rest
        | none => ⟨node, ahead, finished⟩ :: rest))
  | .frames [⟨node, [], finished⟩] =>
      some (some node.id, .made (Frame.snapshot ⟨node, [], finished⟩))
  | .frames (⟨node, [], finished⟩ :: ⟨above, ahead, before⟩ :: rest) =>
      some (some node.id, .frames
        (⟨above, ahead, Frame.snapshot ⟨node, [], finished⟩ :: before⟩ :: rest))

/-- The loop goes on from frames, and keeps a snapshot that is made. -/
def Unwinding.finish (arena : Arena) (steps : Nat) : Unwinding → Option Snapshot
  | frames stack => unwind arena steps stack
  | made s => some s

theorem exists_of_unwindTurn_none {state : Unwinding}
    (h : unwindTurn arena state = none) :
    state = .frames [] ∨ exists s, state = .made s := by
  match state with
  | .made s => exact Or.inr ⟨s, rfl⟩
  | .frames [] => exact Or.inl rfl
  | .frames (⟨_, _ :: _, _⟩ :: _) => cases h
  | .frames [⟨_, [], _⟩] => cases h
  | .frames (⟨_, [], _⟩ :: ⟨_, _, _⟩ :: _) => cases h

theorem unwind_repeats (arena : Arena) :
    Repeats (Unwinding.finish arena) (unwindTurn arena) Unwinding.answer := by
  constructor
  · intro state next item steps hturn
    match state with
    | .made _ => cases hturn
    | .frames [] => cases hturn
    | .frames (⟨node, id :: ahead, finished⟩ :: rest) =>
        cases hturn
        cases hfind : arena[id]? <;> simp [Unwinding.finish, unwind, hfind]
    | .frames [⟨node, [], finished⟩] =>
        cases hturn
        rfl
    | .frames (⟨node, [], finished⟩ :: ⟨above, ahead, before⟩ :: rest) =>
        cases hturn
        rfl
  · intro state steps hturn
    rcases exists_of_unwindTurn_none hturn with rfl | ⟨s, rfl⟩
    · cases steps <;> rfl
    · rfl

def unwindLoop (arena : Arena) : Loop Unwinding (Option Snapshot) where
  run := Unwinding.finish arena
  turn := unwindTurn arena
  answer := Unwinding.answer
  repeats := unwind_repeats arena

/-!
# Changes of the arena that is read
-/

/-- The stack, the count so far, and what is left of the arena. -/
def eraseTurn : Turn (List NodeId × Nat × Arena)
  | ([], _, _) => none
  | (id :: rest, count, arena) =>
      some (some id,
        match arena[id]? with
        | some node =>
            (node.children.reverse ++ rest, count + 1, arena.erase id)
        | none => (rest, count, arena))

theorem erase_repeats :
    Repeats (fun steps state => erase steps state.1 state.2.1 state.2.2)
      eraseTurn Prod.snd := by
  constructor
  · rintro ⟨stack, count, arena⟩ next item steps hturn
    cases stack with
    | nil => cases hturn
    | cons id rest =>
        cases hturn
        cases hfind : arena[id]? <;> simp [erase, hfind]
  · rintro ⟨stack, count, arena⟩ steps hturn
    cases stack with
    | nil => cases steps <;> rfl
    | cons id rest => cases hturn

def eraseLoop : Loop (List NodeId × Nat × Arena) (Nat × Arena) where
  run steps state := erase steps state.1 state.2.1 state.2.2
  turn := eraseTurn
  answer := Prod.snd
  repeats := erase_repeats

/-- The stack, with the parent for each copy, and what was copied so far. -/
def copyTurn : Turn (List (NodeId × Option NodeId) × Copy)
  | ([], _) => none
  | ((source, parent) :: rest, copy) =>
      some (some source,
        match copy.arena[source]? with
        | some node =>
            (node.children.map (·, some (copy.nextId node)) ++ rest,
              copy.add node parent)
        | none => (rest, copy))

theorem copy_repeats :
    Repeats (fun steps state => Copy.run steps state.1 state.2)
      copyTurn Prod.snd := by
  constructor
  · rintro ⟨stack, copy⟩ next item steps hturn
    cases stack with
    | nil => cases hturn
    | cons entry rest =>
        rcases entry with ⟨source, parent⟩
        cases hturn
        cases hfind : copy.arena[source]? <;> simp [Copy.run, hfind]
  · rintro ⟨stack, copy⟩ steps hturn
    cases stack with
    | nil => cases steps <;> rfl
    | cons entry rest => cases hturn

def copyLoop : Loop (List (NodeId × Option NodeId) × Copy) Copy where
  run steps state := Copy.run steps state.1 state.2
  turn := copyTurn
  answer := Prod.snd
  repeats := copy_repeats

end Forest

/-!
# Rendering
-/

namespace Render

/-- What the visit of a node writes before its children. -/
def Visit.written (v : Visit) : Draft :=
  ⟨v.layout.opening, v.imported.toList, v.notices, none⟩

/-- The stack, and the draft so far.  Nothing is done after an error. -/
def walkTurn (types : Registry) (profile : Profile) (arena : Arena) :
    Turn (List Pending × Draft)
  | ([], _) => none
  | (.line line :: rest, draft) =>
      some (none, (rest, draft.append (Draft.ofLine line)))
  | (.node id depth :: rest, draft) =>
      some (some id,
        match visit types profile arena id depth with
        | .error e => ([], draft.append (Draft.ofError e))
        | .ok v => (v.pending depth ++ rest, draft.append v.written))

theorem walk_repeats (types : Registry) (profile : Profile) (arena : Arena) :
    Repeats
      (fun steps state => state.2.append (walk types profile arena steps state.1))
      (walkTurn types profile arena) Prod.snd := by
  constructor
  · rintro ⟨stack, draft⟩ next item steps hturn
    cases stack with
    | nil => cases hturn
    | cons pending rest =>
        cases pending with
        | line line =>
            cases hturn
            show draft.append ((walk types profile arena steps rest).prepend _ _ _) = _
            rw [Draft.append_assoc, Draft.ofLine_append]
        | node id depth =>
            cases hturn
            cases hvisit : visit types profile arena id depth with
            | error e => simp [walk, hvisit, walk_nil]
            | ok v =>
                simp only [walk, hvisit, Draft.append_assoc]
                rfl
  · rintro ⟨stack, draft⟩ steps hturn
    cases stack with
    | nil => simp [walk_nil]
    | cons pending rest => cases pending <;> cases hturn

def walkLoop (types : Registry) (profile : Profile) (arena : Arena) :
    Loop (List Pending × Draft) Draft where
  run steps state := state.2.append (walk types profile arena steps state.1)
  turn := walkTurn types profile arena
  answer := Prod.snd
  repeats := walk_repeats types profile arena

end Render

end MarkupForest
