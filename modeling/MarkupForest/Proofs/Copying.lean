import MarkupForest.Proofs.Careful

/-!
# Copying nested nodes

The loop that copies a subtree writes into the arena it reads.  It still reads
only nodes that were there before: every copy has an identifier that is new to
the arena, and the only old entry that changes is the one under which copies are
listed, which is a copy itself.  So the loop leaves the sources as they were and
adds their renumbered snapshots.
-/

namespace MarkupForest

namespace Forest

open Snapshot (idsOfList renumber renumberList)

namespace Careful

/-- Whether the copy of the parent is there to list the next copy under it. -/
def linkable (copy : Copy) (parent : Option NodeId) : Bool :=
  match copy.top, parent with
  | none, _ => true
  | some _, some parent => copy.arena.contains parent
  | some _, none => false

/-- Copy the nodes on the stack and everything below them. -/
def copy : Nat → List (NodeId × Option NodeId) → Copy → Option Copy
  | _, [], done => some done
  | 0, _ :: _, _ => none
  | steps + 1, (source, parent) :: rest, done =>
      match done.arena[source]? with
      | some node =>
          if linkable done parent then
            copy steps
              (node.children.map (·, some (done.nextId node)) ++ rest)
              (done.add node parent)
          else
            none
      | none => none

theorem copy_sound {steps : Nat} {stack : List (NodeId × Option NodeId)}
    {done final : Copy} (h : copy steps stack done = some final) :
    Copy.run steps stack done = final := by
  induction steps generalizing stack done with
  | zero =>
      cases stack with
      | nil => simpa [copy, Copy.run] using h
      | cons entry rest => simp [copy] at h
  | succ steps ih =>
      cases stack with
      | nil => simpa [copy, Copy.run] using h
      | cons entry rest =>
          rcases entry with ⟨source, parent⟩
          cases hfind : done.arena[source]? with
          | none => simp [copy, hfind] at h
          | some node =>
              cases hlink : linkable done parent with
              | false => simp [copy, hfind, hlink] at h
              | true =>
                  simp only [copy, hfind, hlink, if_true] at h
                  simp only [Copy.run, hfind]
                  exact ih h

end Careful

/-!
# One copy
-/

/-- The arena after a copy was listed under the copy `above` of its parent. -/
def addUnder (arena : Arena) (above id : NodeId) (copied : Node) : Arena :=
  (arena.modify above fun node =>
    { node with children := node.children ++ [id] }).insert id copied

section AddUnder

variable {arena : Arena} {above id : NodeId} {copied : Node}

theorem addUnder_self : (addUnder arena above id copied)[id]? = some copied := by
  rw [addUnder, Std.ExtHashMap.getElem?_insert_self]

theorem addUnder_above {node : Node} (hne : id ≠ above)
    (habove : arena[above]? = some node) :
    (addUnder arena above id copied)[above]? =
      some { node with children := node.children ++ [id] } := by
  rw [addUnder, Std.ExtHashMap.getElem?_insert, if_neg (by simpa using hne),
    Std.ExtHashMap.getElem?_modify_self, habove]
  rfl

theorem addUnder_of_ne {y : NodeId} (hid : y ≠ id) (habove : y ≠ above) :
    (addUnder arena above id copied)[y]? = arena[y]? := by
  rw [addUnder, Std.ExtHashMap.getElem?_insert,
    if_neg (by simpa using Ne.symm hid), Std.ExtHashMap.getElem?_modify,
    if_neg (by simpa using Ne.symm habove)]

theorem mem_addUnder {y : NodeId} :
    y ∈ addUnder arena above id copied ↔ y = id ∨ y ∈ arena := by
  rw [addUnder, Std.ExtHashMap.mem_insert, Std.ExtHashMap.mem_modify,
    beq_iff_eq]
  exact or_congr_left eq_comm

end AddUnder

/-!
# A whole copy
-/

/-- What the loop leaves behind once it has copied the nodes `ss` under the copy
`above`, whose entry was `entry`. -/
structure Copied (before after : Arena) (above : NodeId) (entry : Node)
    (count : Nat) (ss : List Snapshot) : Prop where
  above_entry : after[above]? =
    some { entry with children :=
      entry.children ++ (renumberList count ss).map Snapshot.id }
  copies : Holds after (some above) (renumberList count ss)
  frame : forall y, y ≠ above → y ∉ idsOfList (renumberList count ss) →
    after[y]? = before[y]?

theorem Copied.fresh {before after : Arena} {above : NodeId} {entry : Node}
    {count : Nat} {ss : List Snapshot}
    (h : Copied before after above entry count ss)
    (habove : above ∈ before) (hfresh : Fresh before count) :
    Fresh after (count + (idsOfList ss).length) := by
  apply hfresh.grow (by omega)
  intro y hy
  by_cases hya : y = above
  · exact Or.inl (hya ▸ habove)
  · by_cases hnew : y ∈ idsOfList (renumberList count ss)
    · rcases Snapshot.exists_generate_of_mem_renumberList hnew with
        ⟨type, c, _, hlt, heq⟩
      exact Or.inr ⟨type, c, hlt, heq⟩
    · rw [Std.ExtHashMap.mem_iff_isSome_getElem?, h.frame y hya hnew,
        ← Std.ExtHashMap.mem_iff_isSome_getElem?] at hy
      exact Or.inl hy

theorem not_mem_renumberList_of_mem {arena : Arena} {count : Nat}
    {ss : List Snapshot} {y : NodeId} (hfresh : Fresh arena count)
    (hy : y ∈ arena) : y ∉ idsOfList (renumberList count ss) := by
  intro hmem
  rcases Snapshot.exists_generate_of_mem_renumberList hmem with
    ⟨type, c, hle, _, heq⟩
  exact hfresh.ne hy type hle heq

theorem exists_count_of_renumbered {arena : Arena} {parent : Option NodeId}
    {count : Nat} {ss : List Snapshot} {y : NodeId} {node : Node}
    (h : Holds arena parent (renumberList count ss))
    (hy : y ∈ idsOfList (renumberList count ss))
    (hfind : arena[y]? = some node) :
    exists c, count ≤ c ∧ c < count + (idsOfList ss).length ∧
      y = NodeId.generate node.type c := by
  induction ss using Snapshot.nested_induction generalizing count parent with
  | nil => simp at hy
  | cons id type properties below rest ihbelow ihrest =>
      rw [Snapshot.renumberList_node_cons] at h hy
      rw [Snapshot.idsOfList_node_cons, List.mem_cons, List.mem_append] at hy
      rw [Snapshot.idsOfList_node_cons, List.length_cons, List.length_append]
      cases h with
      | cons hself hbelow hrest =>
          rcases hy with rfl | hy | hy
          · rw [hself, Option.some_inj] at hfind
            exact ⟨count, by omega, by omega, hfind ▸ rfl⟩
          · rcases ihbelow hbelow hy with ⟨c, hle, hlt, heq⟩
            exact ⟨c, by omega, by omega, heq⟩
          · rcases ihrest hrest hy with ⟨c, hle, hlt, heq⟩
            exact ⟨c, by omega, by omega, heq⟩

theorem Copy.add_below (arena : Arena) (count : Nat) (top above : NodeId)
    (node : Node) :
    Copy.add node (some above) ⟨arena, count, some top⟩ =
      ⟨addUnder arena above (NodeId.generate node.type count)
          { node with
            id := NodeId.generate node.type count
            parent := some above
            children := [] },
        count + 1, some top⟩ := rfl

/-- The loop copies nested nodes under the copy `above`.  The arena `before`
changes from step to step, but agrees with the arena that holds the sources. -/
theorem Careful.copy_held {arena : Arena} {parent : Option NodeId}
    {ss : List Snapshot} (h : Holds arena parent ss) (steps count : Nat)
    (stack : List (NodeId × Option NodeId)) (before : Arena)
    (top above : NodeId) (entry : Node)
    (hsame : forall y, y ∈ idsOfList ss → before[y]? = arena[y]?)
    (habove : before[above]? = some entry) (hnot : above ∉ idsOfList ss)
    (hfresh : Fresh before count) :
    exists after,
      Careful.copy ((idsOfList ss).length + steps)
          (ss.map (fun s => (s.id, some above)) ++ stack)
          ⟨before, count, some top⟩ =
        Careful.copy steps stack
          ⟨after, count + (idsOfList ss).length, some top⟩ ∧
      Copied before after above entry count ss := by
  induction h generalizing steps count stack before above entry with
  | nil =>
      refine ⟨before, by simp, ?_, Holds.nil, fun _ _ _ => rfl⟩
      simp [habove]
  | @cons parent id type properties below rest hfind hbelow hrest ihbelow ihrest =>
      let source := (Snapshot.node id type properties below).toNode parent
      let new := NodeId.generate type count
      let copied : Node :=
        { source with id := new, parent := some above, children := [] }
      let grown := addUnder before above new copied
      have hmem : above ∈ before := by
        rw [Std.ExtHashMap.mem_iff_isSome_getElem?, habove]
        rfl
      have hne : new ≠ above :=
        (hfresh.ne hmem type (Nat.le_refl count)).symm
      have hsource : before[id]? = some source := by
        rw [hsame id (by simp), hfind]
      have hold : forall y, y ∈ idsOfList below ∨ y ∈ idsOfList rest →
          y ∈ before ∧ y ≠ above ∧ y ≠ new ∧ grown[y]? = arena[y]? := by
        intro y hy
        have hin : y ∈ idsOfList (.node id type properties below :: rest) := by
          simpa using Or.inr hy
        have hybefore : y ∈ before := by
          rw [Std.ExtHashMap.mem_iff_isSome_getElem?, hsame y hin]
          exact Std.ExtHashMap.mem_iff_isSome_getElem?.mp
            ((Holds.cons hfind hbelow hrest).mem hin)
        have hyabove : y ≠ above := fun e => hnot (e ▸ hin)
        have hynew : y ≠ new := hfresh.ne hybefore type (Nat.le_refl count)
        refine ⟨hybefore, hyabove, hynew, ?_⟩
        rw [addUnder_of_ne hynew hyabove, hsame y hin]
      have hgrown : Fresh grown (count + 1) := by
        apply hfresh.grow (by omega)
        intro y hy
        rcases mem_addUnder.mp hy with rfl | hy
        · exact Or.inr ⟨type, count, by omega, rfl⟩
        · exact Or.inl hy
      have hnewbelow : new ∉ idsOfList below :=
        fun hin => (hold new (Or.inl hin)).right.right.left rfl
      rcases ihbelow ((idsOfList rest).length + steps) (count + 1)
        (rest.map (fun s => (s.id, some above)) ++ stack) grown new copied
        (fun y hy => (hold y (Or.inl hy)).right.right.right)
        addUnder_self hnewbelow hgrown with ⟨middle, hrun, hmiddle⟩
      have hnewgrown : new ∈ grown := mem_addUnder.mpr (Or.inl rfl)
      have hfresh' := hmiddle.fresh hnewgrown hgrown
      have habove' : middle[above]? =
          some { entry with children := entry.children ++ [new] } := by
        rw [hmiddle.frame above hne.symm
          (not_mem_renumberList_of_mem hgrown (mem_addUnder.mpr (Or.inr hmem)))]
        exact addUnder_above hne habove
      have hkept : forall y, y ∈ idsOfList rest → middle[y]? = arena[y]? := by
        intro y hy
        rcases hold y (Or.inr hy) with ⟨hybefore, hyabove, hynew, hygrown⟩
        rw [hmiddle.frame y hynew
          (not_mem_renumberList_of_mem hgrown
            (mem_addUnder.mpr (Or.inr hybefore))), hygrown]
      rcases ihrest steps (count + 1 + (idsOfList below).length) stack middle
        above _ hkept habove' (fun hin => hnot (by simp [hin])) hfresh'
        with ⟨after, hrun', hafter⟩
      -- the copies of the nodes below are not touched by those beside them
      have hmiddlemem : forall y, y ∈ new :: idsOfList (renumberList (count + 1) below) →
          after[y]? = middle[y]? := by
        intro y hy
        have hymiddle : y ∈ middle := by
          rcases List.mem_cons.mp hy with rfl | hy
          · rw [Std.ExtHashMap.mem_iff_isSome_getElem?, hmiddle.above_entry]
            rfl
          · exact hmiddle.copies.mem hy
        have hyabove : y ≠ above := by
          rcases List.mem_cons.mp hy with rfl | hy
          · exact hne
          · intro e
            exact not_mem_renumberList_of_mem hgrown
              (mem_addUnder.mpr (Or.inr hmem)) (e ▸ hy)
        exact hafter.frame y hyabove
          (not_mem_renumberList_of_mem hfresh' hymiddle)
      have hcount : count + 1 + (idsOfList below).length =
          count + ((idsOfList below).length + 1) := by omega
      refine ⟨after, ?_, ?_, ?_, ?_⟩
      · have hsteps :
            (idsOfList (.node id type properties below :: rest)).length + steps =
              (idsOfList below).length +
                ((idsOfList rest).length + steps) + 1 := by
          simp only [Snapshot.idsOfList_node_cons, List.length_cons,
            List.length_append]
          omega
        have hlink : Careful.linkable ⟨before, count, some top⟩ (some above) =
            true := by
          simpa [Careful.linkable] using hmem
        have hchildren : source.children.map (·, some new) =
            below.map (fun s => (s.id, some new)) := by
          simp [source]
        rw [hsteps, List.map_cons, List.cons_append]
        simp only [Careful.copy, Snapshot.id_node, hsource, hlink, if_true]
        rw [Copy.add_below]
        show Careful.copy _ (source.children.map (·, some new) ++ _)
          ⟨grown, count + 1, some top⟩ = _
        rw [hchildren, hrun, hrun', hcount]
        simp only [Snapshot.idsOfList_node_cons, List.length_cons,
          List.length_append]
        congr 2
        omega
      · rw [hafter.above_entry, hcount]
        simp [new]
      · rw [Snapshot.renumberList_node_cons, ← hcount]
        apply Holds.cons
        · rw [hmiddlemem new (by simp), hmiddle.above_entry]
          simp [copied, source, new, Snapshot.toNode]
        · exact hmiddle.copies.frame
            fun y hy => hmiddlemem y (List.mem_cons_of_mem _ hy)
        · exact hafter.copies
      · intro y hyabove hy
        rw [Snapshot.renumberList_node_cons, ← hcount,
          Snapshot.idsOfList_node_cons, List.mem_cons, List.mem_append] at hy
        push Not at hy
        rcases hy with ⟨hynew, hybelow, hyrest⟩
        rw [hafter.frame y hyabove hyrest, hmiddle.frame y hynew hybelow,
          addUnder_of_ne hynew hyabove]

theorem Careful.copy_top {arena : Arena} {parent : Option NodeId}
    {id : NodeId} {type : NodeType} {properties : Properties}
    {below : List Snapshot} {count : Nat}
    (h : Holds arena parent [.node id type properties below])
    (hfresh : Fresh arena count) (steps : Nat) :
    exists after,
      Careful.copy ((idsOfList below).length + 1 + steps) [(id, parent)]
          ⟨arena, count, none⟩ =
        some ⟨after, count + 1 + (idsOfList below).length,
          some (NodeId.generate type count)⟩ ∧
      Holds after parent
        [renumber count (.node id type properties below)] ∧
      forall y, y ∉ (renumber count (.node id type properties below)).ids →
        after[y]? = arena[y]? := by
  cases h with
  | cons hfind hbelow _ =>
      let source := (Snapshot.node id type properties below).toNode parent
      let new := NodeId.generate type count
      let copied : Node := { source with id := new, children := [] }
      let grown := arena.insert new copied
      have hnew : new ∉ arena := hfresh type count (Nat.le_refl count)
      have hsame : forall y, y ∈ arena → grown[y]? = arena[y]? := by
        intro y hy
        have hne : new ≠ y := fun e => hnew (e ▸ hy)
        rw [Std.ExtHashMap.getElem?_insert, if_neg (by simpa using hne)]
      have hgrown : Fresh grown (count + 1) := by
        apply hfresh.grow (by omega)
        intro y hy
        rw [Std.ExtHashMap.mem_insert, beq_iff_eq] at hy
        rcases hy with hy | hy
        · exact Or.inr ⟨type, count, by omega, hy.symm⟩
        · exact Or.inl hy
      rcases Careful.copy_held hbelow steps (count + 1) [] grown new new copied
        (fun y hy => hsame y (hbelow.mem hy)) Std.ExtHashMap.getElem?_insert_self
        (fun hin => hnew (hbelow.mem hin)) hgrown with ⟨after, hrun, hafter⟩
      refine ⟨after, ?_, ?_, ?_⟩
      · have hsteps : (idsOfList below).length + 1 + steps =
            (idsOfList below).length + steps + 1 := by omega
        have hchildren : source.children.map (·, some new) =
            below.map (fun s => (s.id, some new)) ++ [] := by
          simp [source]
        rw [hsteps]
        simp only [Careful.copy, hfind, Careful.linkable, if_true]
        show Careful.copy _ (source.children.map (·, some new) ++ [])
          ⟨grown, count + 1, some new⟩ = _
        rw [hchildren, List.append_assoc, List.append_nil, hrun]
        simp [Careful.copy, new]
      · apply Holds.cons
        · rw [hafter.above_entry]
          simp [copied, source, new, Snapshot.toNode]
        · exact hafter.copies
        · exact Holds.nil
      · intro y hy
        have hy' : y ≠ new ∧ y ∉ idsOfList (renumberList (count + 1) below) := by
          simpa [renumber, new] using hy
        rw [hafter.frame y hy'.left hy'.right, Std.ExtHashMap.getElem?_insert,
          if_neg (by simpa using hy'.left.symm)]

end Forest

end MarkupForest
