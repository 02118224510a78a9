import MarkupForest.Forest.Edit
import MarkupForest.Proofs.Numbering

/-!
# Loops that never meet a missing identifier

The loops over an arena pass over identifiers that have no entry, and they end
when their steps are used up.  Neither should ever happen.  The careful loops of
this module do the same work but give up in both cases, so that an answer of a
careful loop says that the plain loop came to its end by itself and found every
identifier it looked for.

For each loop there are two lemmas: an answer of the careful loop is the answer
of the plain one, and on nested nodes held by the arena the careful loop has an
answer, read off the nesting.
-/

namespace MarkupForest

namespace Snapshot

mutual

/-- The nodes that a snapshot shows in document order, the first one at `depth`
and under `parent`. -/
def nodesAt (depth : Nat) (parent : Option NodeId) :
    Snapshot → List (Nat × Node)
  | node id type properties below =>
      (depth, (node id type properties below).toNode parent) ::
        nodesOfListAt (depth + 1) (some id) below

def nodesOfListAt (depth : Nat) (parent : Option NodeId) :
    List Snapshot → List (Nat × Node)
  | [] => []
  | s :: rest => nodesAt depth parent s ++ nodesOfListAt depth parent rest

end

@[simp] theorem nodesOfListAt_node_cons (depth : Nat) (parent : Option NodeId)
    (id : NodeId) (type : NodeType) (properties : Properties)
    (below rest : List Snapshot) :
    nodesOfListAt depth parent (node id type properties below :: rest) =
      (depth, (node id type properties below).toNode parent) ::
        (nodesOfListAt (depth + 1) (some id) below ++
          nodesOfListAt depth parent rest) := rfl

end Snapshot

namespace Forest

open Snapshot (idsOfList idsOfList_node_cons nodesOfListAt)

namespace Careful

variable {arena : Arena} {parent : Option NodeId} {ss : List Snapshot}

/-!
# Visits and counts
-/

/-- Visit the nodes on the stack and everything below them. -/
def visit (arena : Arena) : Nat → List (Nat × NodeId) → Option (List Row)
  | _, [] => some []
  | 0, _ :: _ => none
  | steps + 1, (depth, id) :: rest =>
      match arena[id]? with
      | some node =>
          (visit arena steps (node.children.map (depth + 1, ·) ++ rest)).map
            ((depth, node) :: ·)
      | none => none

theorem visit_sound {steps : Nat} {stack : List (Nat × NodeId)}
    {rows : List Row} (h : visit arena steps stack = some rows) :
    Forest.visit arena steps stack = rows := by
  induction steps generalizing stack rows with
  | zero =>
      cases stack with
      | nil => simpa [visit, Forest.visit] using h
      | cons entry rest => simp [visit] at h
  | succ steps ih =>
      cases stack with
      | nil => simpa [visit, Forest.visit] using h
      | cons entry rest =>
          rcases entry with ⟨depth, id⟩
          cases hfind : arena[id]? with
          | none => simp [visit, hfind] at h
          | some node =>
              simp only [visit, hfind, Option.map_eq_some_iff] at h
              rcases h with ⟨tail, htail, rfl⟩
              simp only [Forest.visit, hfind]
              rw [ih htail]

theorem visit_held (h : Holds arena parent ss) (steps depth : Nat)
    (stack : List (Nat × NodeId)) :
    visit arena ((idsOfList ss).length + steps)
        (ss.map (fun s => (depth, s.id)) ++ stack) =
      (visit arena steps stack).map
        (nodesOfListAt depth parent ss ++ ·) := by
  induction h generalizing steps depth stack with
  | nil => simp [nodesOfListAt]
  | @cons parent id type properties below rest hfind hbelow hrest ihbelow ihrest =>
      have hsteps : (idsOfList (.node id type properties below :: rest)).length +
          steps = (idsOfList below).length +
            ((idsOfList rest).length + steps) + 1 := by
        simp only [idsOfList_node_cons, List.length_cons, List.length_append]
        omega
      have hchildren :
          ((Snapshot.node id type properties below).toNode parent).children.map
              (depth + 1, ·) =
            below.map (fun s => (depth + 1, s.id)) := by
        simp
      rw [hsteps, List.map_cons, List.cons_append]
      simp only [visit, Snapshot.id_node, hfind]
      rw [hchildren, ihbelow, ihrest]
      simp [Option.map_map, Function.comp_def]

/-- Count the nodes on the stack and everything below them. -/
def tally (arena : Arena) : Nat → List NodeId → Nat → Option Nat
  | _, [], count => some count
  | 0, _ :: _, _ => none
  | steps + 1, id :: rest, count =>
      match arena[id]? with
      | some node =>
          tally arena steps (node.children.reverse ++ rest) (count + 1)
      | none => none

theorem tally_sound {steps count total : Nat} {stack : List NodeId}
    (h : tally arena steps stack count = some total) :
    Forest.tally arena steps stack count = total := by
  induction steps generalizing stack count with
  | zero =>
      cases stack with
      | nil => simpa [tally, Forest.tally] using h
      | cons id rest => simp [tally] at h
  | succ steps ih =>
      cases stack with
      | nil => simpa [tally, Forest.tally] using h
      | cons id rest =>
          cases hfind : arena[id]? with
          | none => simp [tally, hfind] at h
          | some node =>
              simp only [tally, hfind] at h
              simp only [Forest.tally, hfind]
              exact ih h

theorem tally_held (h : Holds arena parent ss) (steps count : Nat)
    (stack : List NodeId) :
    tally arena ((idsOfList ss).length + steps)
        ((ss.map Snapshot.id).reverse ++ stack) count =
      tally arena steps stack (count + (idsOfList ss).length) := by
  induction h generalizing steps count stack with
  | nil => simp
  | @cons parent id type properties below rest hfind hbelow hrest ihbelow ihrest =>
      have hsteps : (idsOfList (.node id type properties below :: rest)).length +
          steps = (idsOfList rest).length +
            ((idsOfList below).length + steps + 1) := by
        simp only [idsOfList_node_cons, List.length_cons, List.length_append]
        omega
      rw [hsteps, List.map_cons, List.reverse_cons, List.append_assoc, ihrest]
      simp only [List.cons_append, List.nil_append, tally, Snapshot.id_node,
        hfind, Snapshot.toNode_children]
      rw [ihbelow]
      congr 1
      simp only [idsOfList_node_cons, List.length_cons, List.length_append]
      omega

/-!
# Snapshots
-/

/-- Finish the frames of a stack. -/
def unwind (arena : Arena) : Nat → List Frame → Option Snapshot
  | 0, _ => none
  | _ + 1, [] => none
  | steps + 1, ⟨node, id :: ahead, finished⟩ :: rest =>
      match arena[id]? with
      | some child =>
          unwind arena steps (.start child :: ⟨node, ahead, finished⟩ :: rest)
      | none => none
  | _ + 1, [⟨node, [], finished⟩] =>
      some (Frame.snapshot ⟨node, [], finished⟩)
  | steps + 1, ⟨node, [], finished⟩ :: ⟨above, ahead, before⟩ :: rest =>
      unwind arena steps
        (⟨above, ahead, Frame.snapshot ⟨node, [], finished⟩ :: before⟩ :: rest)

theorem unwind_sound {steps : Nat} {frames : List Frame} {s : Snapshot}
    (h : unwind arena steps frames = some s) :
    Forest.unwind arena steps frames = some s := by
  induction steps generalizing frames with
  | zero => simp [unwind] at h
  | succ steps ih =>
      match frames with
      | [] => simp [unwind] at h
      | ⟨node, id :: ahead, finished⟩ :: rest =>
          cases hfind : arena[id]? with
          | none => simp [unwind, hfind] at h
          | some child =>
              simp only [unwind, hfind] at h
              simp only [Forest.unwind, hfind]
              exact ih h
      | [⟨node, [], finished⟩] => exact h
      | ⟨node, [], finished⟩ :: ⟨above, ahead, before⟩ :: rest =>
          simp only [unwind] at h
          simp only [Forest.unwind]
          exact ih h

/-- The frame of a node that the arena holds moves past the nested nodes and
keeps their snapshots. -/
theorem unwind_held (h : Holds arena parent ss) (steps : Nat) (node : Node)
    (ahead : List NodeId) (finished : List Snapshot) (frames : List Frame) :
    unwind arena (2 * (idsOfList ss).length + steps)
        (⟨node, ss.map Snapshot.id ++ ahead, finished⟩ :: frames) =
      unwind arena steps (⟨node, ahead, ss.reverse ++ finished⟩ :: frames) := by
  induction h generalizing steps node ahead finished frames with
  | nil => simp
  | @cons parent id type properties below rest hfind hbelow hrest ihbelow ihrest =>
      have hsteps :
          2 * (idsOfList (.node id type properties below :: rest)).length +
            steps = 2 * (idsOfList below).length +
              (2 * (idsOfList rest).length + steps + 1) + 1 := by
        simp only [idsOfList_node_cons, List.length_cons, List.length_append]
        omega
      have hstart : Frame.start
          ((Snapshot.node id type properties below).toNode parent) =
            ⟨(Snapshot.node id type properties below).toNode parent,
              below.map Snapshot.id ++ [], []⟩ := by
        simp [Frame.start]
      rw [hsteps, List.map_cons, List.cons_append]
      simp only [unwind, Snapshot.id_node, hfind]
      rw [hstart, ihbelow]
      simp only [unwind]
      rw [ihrest]
      simp [Frame.snapshot, Snapshot.toNode]

/-!
# Erasures
-/

/-- Erase the nodes on the stack and everything below them, and count them. -/
def erase : Nat → List NodeId → Nat → Arena → Option (Nat × Arena)
  | _, [], count, arena => some (count, arena)
  | 0, _ :: _, _, _ => none
  | steps + 1, id :: rest, count, arena =>
      match arena[id]? with
      | some node =>
          erase steps (node.children.reverse ++ rest) (count + 1)
            (arena.erase id)
      | none => none

theorem erase_sound {steps count : Nat} {stack : List NodeId}
    {erased : Nat × Arena} (h : erase steps stack count arena = some erased) :
    Forest.erase steps stack count arena = erased := by
  induction steps generalizing stack count arena with
  | zero =>
      cases stack with
      | nil => simpa [erase, Forest.erase] using h
      | cons id rest => simp [erase] at h
  | succ steps ih =>
      cases stack with
      | nil => simpa [erase, Forest.erase] using h
      | cons id rest =>
          cases hfind : arena[id]? with
          | none => simp [erase, hfind] at h
          | some node =>
              simp only [erase, hfind] at h
              simp only [Forest.erase, hfind]
              exact ih h

theorem erase_held (h : Holds arena parent ss)
    (hnodup : (idsOfList ss).Nodup) (steps count : Nat) (stack : List NodeId)
    (current : Arena)
    (hsame : forall y, y ∈ idsOfList ss → current[y]? = arena[y]?) :
    exists left,
      erase ((idsOfList ss).length + steps)
          ((ss.map Snapshot.id).reverse ++ stack) count current =
        erase steps stack (count + (idsOfList ss).length) left ∧
      forall y, left[y]? =
        if y ∈ idsOfList ss then none else current[y]? := by
  induction h generalizing steps count stack current with
  | nil => exact ⟨current, by simp, by simp⟩
  | @cons parent id type properties below rest hfind hbelow hrest ihbelow ihrest =>
      rw [idsOfList_node_cons, List.nodup_cons, List.nodup_append] at hnodup
      rcases hnodup with ⟨hid, hnbelow, hnrest, hdisjoint⟩
      have hsteps : (idsOfList (.node id type properties below :: rest)).length +
          steps = (idsOfList rest).length +
            ((idsOfList below).length + steps + 1) := by
        simp only [idsOfList_node_cons, List.length_cons, List.length_append]
        omega
      -- the last nodes go first, and leave the first one and those below it
      rcases ihrest hnrest ((idsOfList below).length + steps + 1) count
        (id :: stack) current (fun y hy => hsame y (by simp [hy]))
        with ⟨trimmed, hrun, htrimmed⟩
      have hidrest : id ∉ idsOfList rest := fun hmem => hid (by simp [hmem])
      have hentry : trimmed[id]? =
          some ((Snapshot.node id type properties below).toNode parent) := by
        rw [htrimmed, if_neg hidrest, hsame id (by simp), hfind]
      have hkept : forall y, y ∈ idsOfList below →
          (trimmed.erase id)[y]? = arena[y]? := by
        intro y hy
        have hne : id ≠ y := fun e => hid (by simp [e, hy])
        have hyrest : y ∉ idsOfList rest :=
          fun hmem => hdisjoint y hy y hmem rfl
        rw [Std.ExtHashMap.getElem?_erase, if_neg (by simpa using hne),
          htrimmed, if_neg hyrest, hsame y (by simp [hy])]
      rcases ihbelow hnbelow steps (count + (idsOfList rest).length + 1) stack
        (trimmed.erase id) hkept with ⟨left, hrun', hleft⟩
      refine ⟨left, ?_, ?_⟩
      · rw [hsteps, List.map_cons, List.reverse_cons, List.append_assoc]
        simp only [Snapshot.id_node, List.cons_append, List.nil_append]
        rw [hrun]
        simp only [erase, hentry, Snapshot.toNode_children]
        rw [hrun']
        congr 1
        simp only [idsOfList_node_cons, List.length_cons, List.length_append]
        omega
      · intro y
        rw [hleft, Std.ExtHashMap.getElem?_erase, htrimmed]
        by_cases hy : id = y
        · simp [hy]
        · have hy' : ¬ y = id := fun e => hy e.symm
          by_cases hbelow' : y ∈ idsOfList below <;>
            by_cases hrest' : y ∈ idsOfList rest <;>
              simp [hy, hy', hbelow', hrest']

end Careful

end Forest

end MarkupForest
