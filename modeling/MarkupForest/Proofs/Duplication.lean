import MarkupForest.Proofs.Anonymity
import MarkupForest.Proofs.Contents
import MarkupForest.Proofs.History

/-!
# What a duplicate adds

The copy of a node is the same snapshot under new identifiers, which are counted
in document order.  It is one more entry right after its original, and one more
block of the contents right after the original's.  Nothing else is new, and
nothing else changes.
-/

namespace MarkupForest

namespace Snapshot

/-!
# Renumbered snapshots, row by row
-/

theorem eraseIdsOfList_renumberList (ss : List Snapshot) :
    forall count, eraseIdsOfList (renumberList count ss) = eraseIdsOfList ss := by
  induction ss using nested_induction with
  | nil => exact fun _ => rfl
  | cons id type properties below rest ihbelow ihrest =>
      intro count
      rw [renumberList_node_cons]
      show node default type properties (eraseIdsOfList _) :: eraseIdsOfList _ = _
      rw [ihbelow, ihrest]
      rfl

theorem eraseIds_renumber (s : Snapshot) (count : Nat) :
    (s.renumber count).eraseIds = s.eraseIds :=
  (List.cons.inj (eraseIdsOfList_renumberList [s] count)).left

theorem idsOfList_renumberList (ss : List Snapshot) :
    forall count depth, idsOfList (renumberList count ss) =
      (rowsOfListAt depth ss).mapIdx fun place row =>
        NodeId.generate row.type (count + place) := by
  induction ss using nested_induction with
  | nil => exact fun _ _ => rfl
  | cons id type properties below rest ihbelow ihrest =>
      intro count depth
      have hlength : (rowsOfListAt (depth + 1) below).length =
          (idsOfList below).length := by
        rw [← map_id_rowsOfListAt (depth + 1) below, List.length_map]
      rw [renumberList_node_cons, idsOfList_node_cons, rowsOfListAt_node_cons,
        ihbelow (count + 1) (depth + 1), ihrest _ depth, List.mapIdx_cons,
        List.mapIdx_append, hlength]
      have hbelow : forall place, count + 1 + place = count + (place + 1) := by
        omega
      have hrest : forall place,
          count + ((idsOfList below).length + 1) + place =
            count + (place + (idsOfList below).length + 1) := by
        omega
      simp only [hbelow, hrest, Nat.add_zero]

theorem ids_renumber (s : Snapshot) (count : Nat) :
    (s.renumber count).ids =
      s.rows.mapIdx fun place row => NodeId.generate row.type (count + place) := by
  have hlist := idsOfList_renumberList [s] count 0
  rw [rowsOfListAt_cons, rowsOfListAt_nil, List.append_nil] at hlist
  rw [← idsOfList_singleton]
  exact hlist

end Snapshot

namespace Forest

open Snapshot (idsOfList rowsOfListAt changeSiblings insertBy)

/-- What has become of `forest` once the node `id` under `slot`, with everything
below it the nested nodes `s`, was duplicated as `copy` with the snapshot `t`. -/
structure Duplicated (forest : Forest) (id : NodeId) (slot : Option NodeId)
    (s : Snapshot) (copy : NodeId) (t : Snapshot) (changed : Forest) : Prop where
  original : forest.snapshotOf? id = some s
  snapshotOf : changed.snapshotOf? copy = some t
  /-- The copy has the same types and properties, nested in the same way. -/
  content : t.eraseIds = s.eraseIds
  /-- New identifiers are counted in document order. -/
  ids : t.ids = s.rows.mapIdx fun place row =>
    NodeId.generate row.type (forest.nextCount + place)
  parents : (forest.find? id).map Node.parent = some slot ∧
    (changed.find? copy).map Node.parent = some slot
  siblings : exists before after,
    forest.siblings slot = before ++ id :: after ∧
    changed.siblings slot = before ++ id :: copy :: after
  contents : exists depth before after,
    forest.contents =
      before ++ s.rows.map (Snapshot.Row.lower depth) ++ after ∧
    changed.contents =
      before ++ s.rows.map (Snapshot.Row.lower depth) ++
        t.rows.map (Snapshot.Row.lower depth) ++ after
  keeps : forall y, forest.contains y = true → Keeps forest changed slot y
  roots : slot ≠ none → changed.roots = forest.roots
  contains_iff : forall y, changed.contains y = true ↔
    forest.contains y = true ∨ y ∈ t.ids
  nextCount : changed.nextCount = forest.nextCount + s.ids.length
  configuration : changed.registry = forest.registry ∧
    changed.options = forest.options

variable {forest : Forest} {ss : List Snapshot} {s : Snapshot}
  {slot : Option NodeId} {x : NodeId}

theorem Shows.exists_grown_of_snapshotOf? (h : Shows forest ss)
    (hs : forest.snapshotOf? s.id = some s)
    (hfind : forest.find? s.id = some (s.toNode slot)) :
    exists after, Grown forest (s.toNode slot) s after ∧
      forest.duplicate s.id =
        .ok ((s.renumber forest.nextCount).id,
          forest.withCopy (s.toNode slot) s after) := by
  rcases h.exists_duplicate hfind with ⟨t, after, hid, hgrown, hanswer⟩
  cases hgrown.held.eq_of_snapshotOf? hgrown.nodup (hid ▸ hs)
  exact ⟨after, hgrown, hanswer⟩

theorem Shows.withCopy {copied : Arena} (h : Shows forest ss)
    (hfind : forest.find? s.id = some (s.toNode slot))
    (hgrown : Grown forest (s.toNode slot) s copied) :
    Shows (forest.withCopy (s.toNode slot) s copied)
      (changeSiblings slot
        (insertBy (indexAfter s.id) (s.renumber forest.nextCount)) ss) := by
  have hself : forest.arena[(s.toNode slot).id]? = some (s.toNode slot) := by
    rw [Snapshot.toNode_id]
    exact hfind
  have hshows := h.graft hself hgrown
  rwa [Snapshot.toNode_parent, Snapshot.toNode_id] at hshows

theorem Shows.withCopy_parent {copied : Arena} (h : Shows forest ss)
    (hslot : SlotOf ss slot) (hgrown : Grown forest (s.toNode slot) s copied) :
    ((forest.withCopy (s.toNode slot) s copied).find?
        (s.renumber forest.nextCount).id).map Node.parent = some slot := by
  rw [← Snapshot.toNode_parent slot s] at hslot
  have hcopy := (hgrown.held_withCopy h hslot).right
  rw [Snapshot.toNode_parent] at hcopy
  have hentry : (forest.withCopy (s.toNode slot) s copied).find?
      (s.renumber forest.nextCount).id = _ :=
    hcopy.find (List.mem_singleton.mpr rfl)
  rw [hentry, Option.map_some, Snapshot.toNode_parent]

/-- What is there once the nodes of a place were copied. -/
theorem Stands.duplicated {left right : List Snapshot} {depth : Nat}
    {before after : List Snapshot.Row} {copied : Arena}
    (hplace : Stands forest ss slot s left right depth before after)
    (h : Shows forest ss) (hs : forest.snapshotOf? s.id = some s)
    (hgrown : Grown forest (s.toNode slot) s copied) :
    Duplicated forest s.id slot s (s.renumber forest.nextCount).id
      (s.renumber forest.nextCount) (forest.withCopy (s.toNode slot) s copied) := by
  let t := s.renumber forest.nextCount
  let changed := forest.withCopy (s.toNode slot) s copied
  let grown : Forest :=
    { forest with
      arena := copied, nextCount := forest.nextCount + s.ids.length }
  have hchanged : changed =
      grown.modifySiblings slot (insertAfter s.id t.id) := by
    show grown.modifySiblings (s.toNode slot).parent _ = _
    rw [Snapshot.toNode_parent, Snapshot.toNode_id]
  have hshows : Shows changed
      (changeSiblings slot (insertBy (indexAfter s.id) t) ss) :=
    h.withCopy hplace.find hgrown
  rcases h.graft_issued hplace.find hgrown with ⟨hissued, hsnapshot⟩
  have hold : forall y, y ∈ forest.arena → grown.find? y = forest.find? y :=
    fun y hy => hgrown.find_of_mem h hy
  have hkeeps : forall y, y ∈ forest.arena → Keeps forest changed slot y := by
    intro y hy
    rcases exists_entry_of_mem hy with ⟨node, hfind⟩
    rw [hchanged]
    exact (keeps_modifySiblings _ ((hold y hy).trans hfind)).congr
      (hold y hy).symm rfl
  have hlevel : insertBy (indexAfter s.id) t (left ++ s :: right) =
      left ++ s :: t :: right :=
    Snapshot.insertBy_indexAfter t hplace.not_mem_left
  have hparent := h.withCopy_parent hplace.slotOf hgrown
  show Duplicated forest s.id slot s t.id t changed
  refine ⟨hs, hsnapshot, Snapshot.eraseIds_renumber s _, Snapshot.ids_renumber s _,
    ⟨hplace.map_parent, hparent⟩, ?_, ?_, fun y hy => hkeeps y (contains_iff.mp hy),
    ?_, ?_, ?_, ?_⟩
  · refine ⟨_, _, hplace.siblings h.toLinks, ?_⟩
    have hsame : grown.siblings slot = forest.siblings slot :=
      siblings_congr (fun _ => rfl)
        fun p hp => hold p (h.mem_of_slot hplace.slotOf p hp)
    have howner : forall p, slot = some p → p ∈ grown.arena := by
      intro p hp
      rcases exists_entry_of_mem (h.mem_of_slot hplace.slotOf p hp) with
        ⟨node, hfind⟩
      exact mem_of_entry
        ((hold p (h.mem_of_slot hplace.slotOf p hp)).trans hfind)
    rw [hchanged, siblings_modifySiblings _ howner, hsame,
      h.toLinks.siblings_focus hplace.focus]
    show insertAt (indexAfter s.id _) t.id _ = _
    rw [← Snapshot.map_id_insertBy, hlevel]
    simp only [List.map_append, List.map_cons]
  · refine ⟨depth, _, _, hplace.contents h, ?_⟩
    rw [hshows.contents, hplace.focus.change_rows, hlevel,
      Snapshot.rowsOfListAt_append, Snapshot.rowsOfListAt_cons,
      Snapshot.rowsOfListAt_cons, Snapshot.rowsAt_eq_map, Snapshot.rowsAt_eq_map]
    simp only [List.append_assoc]
  · intro hne
    rw [hchanged]
    cases slot with
    | none => exact absurd rfl hne
    | some p => rfl
  · intro y
    rw [contains_iff, contains_iff]
    constructor
    · exact hissued.complete y
    · rintro (hy | hy)
      · rcases hkeeps y hy with ⟨_, _, _, hkept, _⟩
        exact mem_of_entry hkept
      · exact hissued.present y hy
  · rw [hchanged, modifySiblings_nextCount]
  · rw [hchanged, modifySiblings_registry, modifySiblings_options]
    exact ⟨rfl, rfl⟩

theorem Shows.exists_copied (h : Shows forest ss)
    (hs : forest.snapshotOf? x = some s) :
    exists slot t changed, forest.duplicate x = .ok (t.id, changed) ∧
      Shows changed (changeSiblings slot (insertBy (indexAfter x) t) ss) ∧
      Duplicated forest x slot s t.id t changed := by
  rcases h.exists_stands hs with
    ⟨slot, left, right, depth, before, after, rfl, hplace⟩
  rcases h.exists_grown_of_snapshotOf? hs hplace.find with
    ⟨copied, hgrown, hanswer⟩
  exact ⟨slot, _, _, hanswer, h.withCopy hplace.find hgrown,
    hplace.duplicated h hs hgrown⟩

theorem Shows.exists_duplicated (h : Shows forest ss)
    (hs : forest.snapshotOf? x = some s) :
    exists slot copy t changed, forest.duplicate x = .ok (copy, changed) ∧
      Duplicated forest x slot s copy t changed := by
  rcases h.exists_copied hs with ⟨slot, t, changed, hduplicate, _, hduplicated⟩
  exact ⟨slot, t.id, t, changed, hduplicate, hduplicated⟩

theorem Duplicated.not_mem {copy : NodeId} {t : Snapshot} {changed : Forest}
    (hduplicated : Duplicated forest x slot s copy t changed)
    (h : Shows forest ss) {y : NodeId} (hy : y ∈ t.ids) : y ∉ forest.arena := by
  rw [hduplicated.ids, List.mem_mapIdx] at hy
  rcases hy with ⟨place, _, rfl⟩
  exact h.fresh _ _ (Nat.le_add_right _ _)

theorem Duplicated.length_ids {copy : NodeId} {t : Snapshot} {changed : Forest}
    (hduplicated : Duplicated forest x slot s copy t changed) :
    t.ids.length = s.ids.length := by
  rw [hduplicated.ids, List.length_mapIdx, Snapshot.length_rows]

/-- After every run of edits, a node that is there can be duplicated.  The copy
follows its original, and nothing else is added or changed. -/
theorem ofEdits_duplicate_adds_block (registry : Registry) (options : Options)
    (requests : List Edit) (id : NodeId)
    (hid : (ofEdits registry options requests).contains id = true) :
    exists slot s copy t changed,
      (ofEdits registry options requests).duplicate id = .ok (copy, changed) ∧
      Duplicated (ofEdits registry options requests) id slot s copy t changed := by
  rcases exists_shows_ofEdits registry options requests with ⟨ss, h⟩
  rcases h.exists_subtree (contains_iff.mp hid) with ⟨place, s, rfl, hsub⟩
  rcases h.exists_duplicated hsub.snapshotOf? with
    ⟨slot, copy, t, changed, hduplicate, hduplicated⟩
  exact ⟨slot, s, copy, t, changed, hduplicate, hduplicated⟩

theorem duplicate_adds_block_of_card :
    let forest := ofEdits .standard ⟨false⟩
      [.insert .card none, .insert .button (some (NodeId.generate .card 1))]
    let card := NodeId.generate .card 1
    forest.contains card = true ∧
    exists slot s copy t changed,
      forest.duplicate card = .ok (copy, changed) ∧
      Duplicated forest card slot s copy t changed := by
  intro forest card
  have h : Shows forest _ := shows_nested rfl rfl
  have hid : forest.contains card = true :=
    contains_iff.mpr (h.mem_iff.mpr List.mem_cons_self)
  exact ⟨hid, ofEdits_duplicate_adds_block .standard ⟨false⟩ _ card hid⟩

end Forest

end MarkupForest
