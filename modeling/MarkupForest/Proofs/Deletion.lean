import MarkupForest.Proofs.Contents
import MarkupForest.Registry.Standard

/-!
# What a deletion takes away

Deleting a node takes one entry out of one list of siblings, one block out of
the contents, and the nodes of this block out of the arena.  The loop that
erases them reads the arena that it shrinks; that it erases these nodes and no
others was shown for the loop, so here only its outcome matters.
-/

namespace MarkupForest

namespace Forest

open Snapshot (idsOfList rowsOfListAt changeSiblings strike)

/-- What is left of `forest` once the node `id` under `slot`, with everything
below it the nested nodes `s`, is gone. -/
structure Deleted (forest : Forest) (id : NodeId) (slot : Option NodeId)
    (s : Snapshot) (changed : Forest) : Prop where
  snapshotOf : forest.snapshotOf? id = some s
  parent : (forest.find? id).map Node.parent = some slot
  contains_iff : forall y, changed.contains y = true ↔
    forest.contains y = true ∧ y ∉ s.ids
  contents : exists depth before after,
    forest.contents =
      before ++ s.rows.map (Snapshot.Row.lower depth) ++ after ∧
    changed.contents = before ++ after
  siblings : exists before after,
    forest.siblings slot = before ++ id :: after ∧
    changed.siblings slot = before ++ after
  keeps : forall y, changed.contains y = true → Keeps forest changed slot y
  roots : slot ≠ none → changed.roots = forest.roots
  nextCount : changed.nextCount = forest.nextCount
  configuration : changed.registry = forest.registry ∧
    changed.options = forest.options

variable {forest : Forest} {ss : List Snapshot} {s : Snapshot}
  {slot : Option NodeId} {x : NodeId}

theorem Deleted.parent_eq {changed : Forest} {other : Option NodeId}
    (hdeleted : Deleted forest x slot s changed)
    (hparent : (forest.find? x).map Node.parent = some other) : slot = other :=
  Option.some_inj.mp (hdeleted.parent.symm.trans hparent)

theorem Shows.exists_erased_of_snapshotOf? (h : Shows forest ss)
    (hs : forest.snapshotOf? s.id = some s)
    (hfind : forest.find? s.id = some (s.toNode slot)) :
    exists gone, Erased forest ss (s.toNode slot) s gone := by
  rcases h.exists_erased hfind with ⟨t, gone, hid, herased⟩
  have hnodup := h.nodup
  rw [herased.ids.nodup_iff, List.nodup_append] at hnodup
  cases herased.held.eq_of_snapshotOf? hnodup.left (hid ▸ hs)
  exact ⟨gone, herased⟩

theorem Erased.delete {gone : Arena} (herased : Erased forest ss (s.toNode slot) s gone)
    (h : Shows forest ss) (hfind : forest.find? s.id = some (s.toNode slot)) :
    forest.delete s.id =
        .ok (s.ids.length, { forest.detach s.id slot with arena := gone }) ∧
      Shows { forest.detach s.id slot with arena := gone }
        (changeSiblings slot (strike s.id) ss) := by
  have hcut := herased.cut (Snapshot.toNode_id slot s)
  have hshows := h.cut herased (Snapshot.toNode_id slot s)
  rw [hcut] at hshows
  rw [Snapshot.toNode_parent] at hcut hshows
  constructor
  · unfold Forest.delete
    rw [hfind]
    exact congrArg Except.ok hcut
  · exact hshows

/-- What is left when the nodes of a place are struck and erased. -/
theorem Stands.deleted {left right : List Snapshot} {depth : Nat}
    {before after : List Snapshot.Row} {gone : Arena}
    (hplace : Stands forest ss slot s left right depth before after)
    (h : Shows forest ss) (hs : forest.snapshotOf? s.id = some s)
    (herased : Erased forest ss (s.toNode slot) s gone) :
    Deleted forest s.id slot s { forest.detach s.id slot with arena := gone } := by
  let rest := forest.detach s.id slot
  let changed : Forest := { rest with arena := gone }
  have hshows : Shows changed (changeSiblings slot (Snapshot.strike s.id) ss) :=
    (herased.delete h hplace.find).right
  have hgone : forall y, gone[y]? = if y ∈ s.ids then none else rest.arena[y]? := by
    intro y
    rw [herased.find, Snapshot.toNode_parent]
  have hkept : forall y, y ∉ s.ids → changed.find? y = rest.find? y := by
    intro y hy
    exact (hgone y).trans (if_neg hy)
  have hmem : forall y, y ∈ gone ↔ y ∈ forest.arena ∧ y ∉ s.ids := by
    intro y
    rw [Std.ExtHashMap.mem_iff_isSome_getElem?, hgone]
    by_cases hy : y ∈ s.ids
    · simp [hy]
    · rw [if_neg hy, ← Std.ExtHashMap.mem_iff_isSome_getElem?]
      simp [hy, rest, detach, mem_modifySiblings]
  refine ⟨hs, hplace.map_parent, ?_, ?_, ?_, ?_, ?_, ?_, ?_⟩
  · intro y
    rw [contains_iff, contains_iff]
    exact hmem y
  · refine ⟨depth, _, _, hplace.contents h, ?_⟩
    rw [hshows.contents, hplace.focus.change_rows, hplace.strike,
      Snapshot.rowsOfListAt_append]
    simp only [List.append_assoc]
  · refine ⟨_, _, hplace.siblings h.toLinks, ?_⟩
    have hsiblings : changed.siblings slot = rest.siblings slot :=
      siblings_congr (fun _ => rfl) fun p hp => hkept p (hplace.apart hp)
    rw [hsiblings]
    exact (h.siblings_detach hplace.map_parent hplace.slotOf).trans
      (hplace.siblingsBeside h.toLinks)
  · intro y hy
    rcases (hmem y).mp (contains_iff.mp hy) with ⟨hold, hout⟩
    rcases exists_entry_of_mem hold with ⟨node, hfind⟩
    exact (keeps_modifySiblings _ hfind).congr rfl (hkept y hout)
  · intro hne
    cases slot with
    | none => exact absurd rfl hne
    | some p => rfl
  · exact modifySiblings_nextCount forest slot _
  · exact ⟨modifySiblings_registry forest slot _,
      modifySiblings_options forest slot _⟩

theorem Shows.exists_rest (h : Shows forest ss)
    (hs : forest.snapshotOf? x = some s) :
    exists slot changed, forest.delete x = .ok (s.ids.length, changed) ∧
      Shows changed (changeSiblings slot (strike x) ss) ∧
      Deleted forest x slot s changed := by
  rcases h.exists_stands hs with
    ⟨slot, left, right, depth, before, after, rfl, hplace⟩
  rcases h.exists_erased_of_snapshotOf? hs hplace.find with ⟨gone, herased⟩
  rcases herased.delete h hplace.find with ⟨hdelete, hshows⟩
  exact ⟨slot, _, hdelete, hshows, hplace.deleted h hs herased⟩

theorem Shows.exists_deleted (h : Shows forest ss)
    (hs : forest.snapshotOf? x = some s) :
    exists slot changed, forest.delete x = .ok (s.ids.length, changed) ∧
      Deleted forest x slot s changed := by
  rcases h.exists_rest hs with ⟨slot, changed, hdelete, _, hdeleted⟩
  exact ⟨slot, changed, hdelete, hdeleted⟩

/-- After every run of edits, a node that is there can be deleted, with
everything below it and nothing else.  The answer counts the deleted nodes. -/
theorem ofEdits_delete_takes_block (registry : Registry) (options : Options)
    (requests : List Edit) (id : NodeId)
    (hid : (ofEdits registry options requests).contains id = true) :
    exists slot s count changed,
      (ofEdits registry options requests).delete id = .ok (count + 1, changed) ∧
      (ofEdits registry options requests).descendantCount? id = some count ∧
      Deleted (ofEdits registry options requests) id slot s changed := by
  rcases exists_shows_ofEdits registry options requests with ⟨ss, h⟩
  rcases h.exists_subtree (contains_iff.mp hid) with ⟨place, s, rfl, hsub⟩
  rcases h.exists_deleted hsub.snapshotOf? with
    ⟨slot, changed, hdelete, hdeleted⟩
  refine ⟨slot, s, (idsOfList s.children).length, changed, ?_,
    hsub.descendantCount?, hdeleted⟩
  rw [hdelete]
  cases s with
  | node id type properties below => rfl

theorem delete_takes_block_of_card :
    let forest := ofEdits .standard ⟨false⟩
      [.insert .card none, .insert .button (some (NodeId.generate .card 1))]
    let card := NodeId.generate .card 1
    forest.contains card = true ∧
    exists slot s count changed,
      forest.delete card = .ok (count + 1, changed) ∧
      forest.descendantCount? card = some count ∧
      Deleted forest card slot s changed := by
  intro forest card
  have h : Shows forest _ := shows_nested rfl rfl
  have hid : forest.contains card = true :=
    contains_iff.mpr (h.mem_iff.mpr List.mem_cons_self)
  exact ⟨hid, ofEdits_delete_takes_block .standard ⟨false⟩ _ card hid⟩

end Forest

end MarkupForest
