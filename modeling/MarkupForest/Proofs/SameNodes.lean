import MarkupForest.Proofs.Contents

/-!
# Forests with the same nodes

The nested nodes say everything about a forest but its counter and its
configuration.  So two ways of editing lead to the same forest when they lead to
the same nested nodes, and there the changes of lists of siblings can be put
together, exchanged and taken back.
-/

namespace MarkupForest

namespace Snapshot

variable {s : Snapshot} {level : List Snapshot} {p q : NodeId}

/-!
# Changes of one level
-/

theorem strike_insertBy (index : List NodeId → Nat)
    (hnew : s.id ∉ level.map Snapshot.id) :
    strike s.id (insertBy index s level) = level := by
  rcases exists_insertBy_eq index s level with ⟨left, right, rfl, hinsert⟩
  rw [hinsert]
  exact strike_between hnew

theorem strike_comm (x y : NodeId) (level : List Snapshot) :
    strike x (strike y level) = strike y (strike x level) :=
  List.filter_comm _ _ level

theorem strike_changeBelowList (x p : NodeId)
    (change : List Snapshot → List Snapshot) (level : List Snapshot) :
    strike x (changeBelowList p change level) =
      changeBelowList p change (strike x level) := by
  induction level with
  | nil => rfl
  | cons s rest ih =>
      have hid : (changeBelow p change s).id = s.id := by
        cases s
        rfl
      show strike x (changeBelow p change s :: changeBelowList p change rest) = _
      by_cases hx : s.id = x
      · rw [strike_cons_of_eq (hid.trans hx), strike_cons_of_eq hx, ih]
      · rw [strike_cons_of_ne (hid ▸ hx), strike_cons_of_ne hx, ih]
        rfl

/-!
# Changes of two levels
-/

theorem changeSiblings_changeSiblings (slot : Option NodeId)
    (next first : List Snapshot → List Snapshot) (ss : List Snapshot) :
    changeSiblings slot next (changeSiblings slot first ss) =
      changeSiblings slot (fun level => next (first level)) ss := by
  cases slot with
  | none => rfl
  | some p =>
      show changeBelowList p next (changeBelowList p first ss) =
        changeBelowList p _ ss
      induction ss using nested_induction with
      | nil => rfl
      | cons id type properties below rest ihbelow ihrest =>
          simp only [changeBelowList_node_cons, ihrest]
          by_cases hid : id = p
          · simp only [if_pos hid]
          · simp only [if_neg hid, ihbelow]

theorem changeBelowList_strike_comm (p q x y : NodeId) (ss : List Snapshot) :
    changeBelowList p (strike x) (changeBelowList q (strike y) ss) =
      changeBelowList q (strike y) (changeBelowList p (strike x) ss) := by
  induction ss using nested_induction with
  | nil => rfl
  | cons id type properties below rest ihbelow ihrest =>
      simp only [changeBelowList_node_cons, ihrest]
      by_cases hp : id = p
      · by_cases hq : id = q
        · simp only [if_pos hp, if_pos hq, strike_comm x y]
        · simp only [if_pos hp, if_neg hq, strike_changeBelowList]
      · by_cases hq : id = q
        · simp only [if_neg hp, if_pos hq, strike_changeBelowList]
        · simp only [if_neg hp, if_neg hq, ihbelow]

theorem changeSiblings_strike_comm (slot other : Option NodeId) (x y : NodeId)
    (ss : List Snapshot) :
    changeSiblings slot (strike x) (changeSiblings other (strike y) ss) =
      changeSiblings other (strike y) (changeSiblings slot (strike x) ss) := by
  cases slot with
  | none =>
      cases other with
      | none => exact strike_comm x y ss
      | some q => exact strike_changeBelowList x q (strike y) ss
  | some p =>
      cases other with
      | none => exact (strike_changeBelowList y p (strike x) ss).symm
      | some q => exact changeBelowList_strike_comm p q x y ss

end Snapshot

namespace Forest

open Snapshot (idsOfList changeSiblings insertBy strike)

variable {forest changed : Forest} {arena other : Arena}
  {ss ts level : List Snapshot} {s : Snapshot} {slot parent : Option NodeId}
  {x y : NodeId} {depth : Nat} {left right : List Snapshot}
  {before after : List Snapshot.Row}

/-!
# Nested nodes and the arena
-/

/-- An arena holds one list of nested nodes under a list of identifiers. -/
theorem Holds.unique (h : Holds arena parent ss) (h' : Holds arena parent ts)
    (hids : ss.map Snapshot.id = ts.map Snapshot.id) : ss = ts := by
  induction h generalizing ts with
  | nil => exact (List.map_eq_nil_iff.mp hids.symm).symm
  | cons hfind hbelow hrest ihbelow ihrest =>
      cases h' with
      | nil => cases hids
      | cons hfind' hbelow' hrest' =>
          rw [List.map_cons, List.map_cons, List.cons.injEq] at hids
          rcases hids with ⟨hid, hids⟩
          cases hid
          rw [hfind, Option.some_inj] at hfind'
          injection hfind' with _ htype hproperties _ hchildren
          rw [htype, hproperties, ihbelow hbelow' hchildren, ihrest hrest' hids]

theorem Holds.find_eq (h : Holds arena parent ss) (h' : Holds other parent ss)
    (hx : x ∈ idsOfList ss) : other[x]? = arena[x]? := by
  induction h with
  | nil => cases hx
  | cons hfind hbelow hrest ihbelow ihrest =>
      cases h' with
      | cons hfind' hbelow' hrest' =>
          rw [Snapshot.idsOfList_node_cons, List.mem_cons, List.mem_append] at hx
          rcases hx with rfl | hx | hx
          · rw [hfind, hfind']
          · exact ihbelow hbelow' hx
          · exact ihrest hrest' hx

/-- Two forests have the same counter and the same configuration. -/
structure SameSettings (forest changed : Forest) : Prop where
  nextCount : changed.nextCount = forest.nextCount
  registry : changed.registry = forest.registry
  options : changed.options = forest.options

theorem SameSettings.symm (h : SameSettings forest changed) :
    SameSettings changed forest :=
  ⟨h.nextCount.symm, h.registry.symm, h.options.symm⟩

theorem SameSettings.trans {last : Forest} (h : SameSettings forest changed)
    (h' : SameSettings changed last) : SameSettings forest last :=
  ⟨h'.nextCount.trans h.nextCount, h'.registry.trans h.registry,
    h'.options.trans h.options⟩

/-- The nested nodes and the configuration of a forest leave nothing open but its
counter. -/
theorem Shows.eq_of_same (h : Shows forest ss) (h' : Shows changed ss)
    (hconfiguration : changed.registry = forest.registry ∧
      changed.options = forest.options) :
    changed = { forest with nextCount := changed.nextCount } := by
  have harena : changed.arena = forest.arena := by
    apply Std.ExtHashMap.ext_getElem?
    intro x
    by_cases hx : x ∈ idsOfList ss
    · exact h.held.find_eq h'.held hx
    · rw [Std.ExtHashMap.getElem?_eq_none fun hmem => hx (h'.complete x hmem),
        Std.ExtHashMap.getElem?_eq_none fun hmem => hx (h.complete x hmem)]
  have hroots : changed.roots = forest.roots := h'.roots.trans h.roots.symm
  rw [← harena, ← hroots, ← hconfiguration.left, ← hconfiguration.right]

theorem Shows.eq_of_sameSettings (h : Shows forest ss) (h' : Shows changed ss)
    (hsettings : SameSettings forest changed) : changed = forest := by
  rw [h.eq_of_same h' ⟨hsettings.registry, hsettings.options⟩, hsettings.nextCount]

theorem Shows.nodup_of_snapshotOf? (h : Shows forest ss)
    (hs : forest.snapshotOf? x = some s) : s.ids.Nodup := by
  have hinside := ((h.coherent.nested x s).mp hs).right
  rw [h.snapshot] at hinside
  exact hinside.ids_sublist.nodup h.nodup

theorem Shows.mem_of_snapshotOf? (h : Shows forest ss)
    (hs : forest.snapshotOf? x = some s) (hy : y ∈ s.ids) : y ∈ forest.arena := by
  rcases h.subtree_of_snapshotOf? hs with ⟨_, slot, hsub⟩
  rw [← Snapshot.idsOfList_singleton] at hy
  exact hsub.held.mem hy

theorem Shows.snapshotOf?_congr (h : Shows forest ss)
    (hs : forest.snapshotOf? x = some s)
    (hsame : forall y, y ∈ s.ids → changed.find? y = forest.find? y) :
    changed.snapshotOf? x = some s := by
  rcases h.subtree_of_snapshotOf? hs with ⟨rfl, slot, hsub⟩
  have hheld : Holds changed.arena slot [s] := by
    apply hsub.held.frame
    intro y hy
    rw [Snapshot.idsOfList_singleton] at hy
    exact hsame y hy
  exact (hheld.subtree (h.nodup_of_snapshotOf? hs)).snapshotOf?

/-!
# Changes that leave a level as it is
-/

theorem Links.changeSiblings_eq_self (h : Links forest ss)
    (hfocus : Focus forest.arena none 0 ss slot level depth before after)
    {change : List Snapshot → List Snapshot} (hchange : change level = level) :
    changeSiblings slot change ss = ss := by
  cases slot with
  | none =>
      rw [← hfocus.first rfl]
      exact hchange
  | some p =>
      have hheld : Holds forest.arena none (changeSiblings (some p) change ss) := by
        apply hfocus.change_held change forest.arena
        · intro row _ _
          rfl
        · intro q hq
          rcases hfocus.owner q hq with ⟨node, hnode, hchildren⟩
          rw [hnode, hchange, ← hchildren]
          rfl
        · rw [hchange]
          exact hfocus.held
      exact hheld.unique h.held (Snapshot.map_id_changeBelowList p change ss)

theorem Links.strike_insertBy (h : Links forest ss) (hslot : SlotOf ss slot)
    (hnew : s.id ∉ idsOfList ss) (index : List NodeId → Nat) :
    changeSiblings slot (strike s.id) (changeSiblings slot (insertBy index s) ss) =
      ss := by
  rcases h.exists_focus hslot with ⟨level, depth, before, after, hfocus⟩
  have hlevel : s.id ∉ level.map Snapshot.id := by
    intro hmem
    apply hnew
    have hsub := (Snapshot.map_id_sublist_idsOfList level).subset hmem
    rw [hfocus.ids]
    simp [hsub]
  rw [Snapshot.changeSiblings_changeSiblings]
  exact h.changeSiblings_eq_self hfocus (Snapshot.strike_insertBy index hlevel)

theorem Stands.insertBy_strike
    (h : Stands forest ss slot s left right depth before after)
    (hlinks : Links forest ss) :
    changeSiblings slot (insertBy (fun _ => left.length) s)
      (changeSiblings slot (Snapshot.strike s.id) ss) = ss := by
  rw [Snapshot.changeSiblings_changeSiblings]
  apply hlinks.changeSiblings_eq_self h.focus
  rw [h.strike]
  unfold Snapshot.insertBy
  rw [Nat.min_eq_left (by simp), Snapshot.insertIdx_between]

end Forest

end MarkupForest
