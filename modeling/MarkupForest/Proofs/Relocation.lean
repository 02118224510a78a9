import MarkupForest.Proofs.Contents
import MarkupForest.Registry.Standard

/-!
# What a move changes

A node that is moved leaves one list of siblings and enters another one, or the
same one at another index.  Its block goes from one place of the contents to
another and keeps its rows, but for a common shift of their depths.  What is
left when the block is taken out of the contents is the same before and after.
-/

namespace MarkupForest

namespace Forest

open Snapshot (idsOfList rowsOfListAt changeSiblings insertBy strike)

/-- What has become of `forest` once the node `id` under `source`, with
everything below it the nested nodes `s`, was moved under `target`. -/
structure Moved (forest : Forest) (id : NodeId) (source : Option NodeId)
    (s : Snapshot) (target : Option NodeId) (index : Option Nat)
    (changed : Forest) : Prop where
  snapshotOf : forest.snapshotOf? id = some s ∧ changed.snapshotOf? id = some s
  parents : (forest.find? id).map Node.parent = some source ∧
    (changed.find? id).map Node.parent = some target
  /-- The index counts the siblings at the destination without the node. -/
  destination : changed.siblings target =
    match index with
    | none => forest.siblingsBeside id target ++ [id]
    | some place =>
        (forest.siblingsBeside id target).insertIdx
          (min place (forest.siblingsBeside id target).length) id
  origin : exists before after,
    forest.siblings source = before ++ id :: after ∧
    forest.siblingsBeside id source = before ++ after ∧
    (source ≠ target → changed.siblings source = before ++ after)
  elsewhere : forall slot, slot ≠ source → slot ≠ target →
    changed.siblings slot = forest.siblings slot
  contents : exists depth before after depth' before' after',
    forest.contents =
      before ++ s.rows.map (Snapshot.Row.lower depth) ++ after ∧
    changed.contents =
      before' ++ s.rows.map (Snapshot.Row.lower depth') ++ after' ∧
    before' ++ after' = before ++ after
  /-- A node keeps everything but its list of children and, if it is the moved
  one, its parent. -/
  find : forall y, changed.find? y = (forest.find? y).map fun node =>
    { node with
      parent := if y = id then target else node.parent
      children := changed.siblings (some y) }
  size : changed.size = forest.size
  nextCount : changed.nextCount = forest.nextCount
  configuration : changed.registry = forest.registry ∧
    changed.options = forest.options

variable {forest changed : Forest} {ss : List Snapshot} {s : Snapshot}
  {node : Node} {slot source target : Option NodeId} {index : Option Nat}
  {x y : NodeId} {depth : Nat} {left right : List Snapshot}
  {before after : List Snapshot.Row}

/-!
# Lists of siblings
-/

theorem relocate_siblings (forest : Forest) (node : Node) (slot : Option NodeId)
    (index : Option Nat) (other : Option NodeId) :
    (forest.relocate node slot index).siblings other =
      ((forest.detach node.id node.parent).attach node.id slot index).siblings
        other := by
  cases other with
  | none => rfl
  | some p =>
      show (Option.map _ ((forest.relocate node slot index).arena[p]?)).getD [] = _
      rw [relocate_find, Option.map_map]
      rfl

theorem siblings_attach (index : Option Nat)
    (hslot : forall p, slot = some p → p ∈ forest.arena) :
    (forest.attach x slot index).siblings slot =
      match index with
      | none => forest.siblings slot ++ [x]
      | some place =>
          (forest.siblings slot).insertIdx
            (min place (forest.siblings slot).length) x := by
  cases index with
  | none => exact siblings_attach_last hslot
  | some place => exact siblings_modifySiblings _ hslot

/-!
# The nodes of the changed forest
-/

theorem modifySiblings_find_siblings (forest : Forest) (slot : Option NodeId)
    (change : List NodeId → List NodeId) (y : NodeId) :
    (forest.modifySiblings slot change).find? y =
      (forest.find? y).map fun node =>
        { node with
          children := (forest.modifySiblings slot change).siblings (some y) } := by
  cases hfind : forest.find? y with
  | none =>
      have hentry : forest.arena[y]? = none := hfind
      show (forest.modifySiblings slot change).arena[y]? = none
      rw [modifySiblings_find, hentry]
      exact ite_self none
  | some node =>
      have hkeeps : Keeps forest (forest.modifySiblings slot change) slot y :=
        keeps_modifySiblings change hfind
      rcases hkeeps with ⟨old, kept, hold, hkept, hlinks, _⟩
      rw [hfind] at hold
      cases hold
      rw [siblings_of_find hkept, hkept]
      exact congrArg some hlinks

theorem relocate_find_siblings (forest : Forest) (node : Node)
    (slot : Option NodeId) (index : Option Nat) (y : NodeId) :
    (forest.relocate node slot index).find? y =
      (forest.find? y).map fun entry =>
        { entry with
          parent := if y = node.id then slot else entry.parent
          children := (forest.relocate node slot index).siblings (some y) } := by
  let rest := forest.detach node.id node.parent
  have hrest : rest.find? y = _ :=
    modifySiblings_find_siblings forest node.parent _ y
  have hattached : (rest.attach node.id slot index).find? y = _ :=
    modifySiblings_find_siblings rest slot _ y
  have hfind : (forest.relocate node slot index).find? y =
      ((rest.attach node.id slot index).find? y).map _ :=
    relocate_find forest node slot index y
  rw [hfind, hattached, hrest, Option.map_map, Option.map_map,
    relocate_siblings]
  rfl

theorem relocate_size (forest : Forest) (node : Node) (slot : Option NodeId)
    (index : Option Nat) :
    (forest.relocate node slot index).size = forest.size := by
  have hsize : forall (other : Forest) parent change,
      (other.modifySiblings parent change).size = other.size := by
    intro other parent change
    cases parent with
    | none => rfl
    | some p => exact Std.ExtHashMap.size_modify
  have hrelocate : (forest.relocate node slot index).size =
      ((forest.detach node.id node.parent).attach node.id slot index).size :=
    Std.ExtHashMap.size_modify
  rw [hrelocate]
  exact (hsize _ slot _).trans (hsize _ node.parent _)

/-!
# A move that is carried out
-/

theorem Stands.movable (h : Stands forest ss source s left right depth before after)
    (hshows : Shows forest ss) (hs : forest.snapshotOf? s.id = some s)
    (htarget : SlotOf ss target)
    (hclear : forall p, target = some p → forest.isSelfOrAncestor s.id p = false) :
    Movable forest ss (s.toNode source) s target := by
  have hself : forest.arena[(s.toNode source).id]? = some (s.toNode source) := by
    rw [Snapshot.toNode_id]
    exact h.find
  have hclear' : forall p, target = some p →
      forest.isSelfOrAncestor (s.toNode source).id p = false := by
    rwa [Snapshot.toNode_id]
  rcases hshows.exists_movable hself htarget hclear' with ⟨t, ht⟩
  have hid : t.id = s.id := ht.id.trans (Snapshot.toNode_id source s)
  cases ht.held.eq_of_snapshotOf? ht.nodup (hid ▸ hs)
  exact ht

/-- The block of the moved nodes leaves the contents and comes back in. -/
theorem Stands.contents_relocate
    (h : Stands forest ss source s left right depth before after)
    (hshows : Shows forest ss)
    (hmovable : Movable forest ss (s.toNode source) s target)
    (index : Option Nat) :
    exists depth' before' after',
      (forest.relocate (s.toNode source) target index).contents =
        before' ++ s.rows.map (Snapshot.Row.lower depth') ++ after' ∧
      before' ++ after' =
        (before ++ rowsOfListAt depth left) ++
          (rowsOfListAt depth right ++ after) := by
  have hlinks := hmovable.links
  have hslot := hmovable.slotOf
  have hchanged := hmovable.shows_relocate hshows index
  rw [Snapshot.toNode_parent] at hlinks hslot hchanged
  rcases hlinks.exists_focus hslot with ⟨level, depth', before', after', hfocus⟩
  rcases Snapshot.exists_insertBy_eq
    (fun siblings => index.getD siblings.length) s level with
    ⟨left', right', rfl, hinsert⟩
  have hrest := h.focus.change_rows (Snapshot.strike s.id)
  rw [hfocus.rows, h.strike, Snapshot.rowsOfListAt_append,
    Snapshot.rowsOfListAt_append] at hrest
  refine ⟨depth', before' ++ rowsOfListAt depth' left',
    rowsOfListAt depth' right' ++ after', ?_, ?_⟩
  · rw [hchanged.contents, hfocus.change_rows, hinsert,
      Snapshot.rowsOfListAt_append, Snapshot.rowsOfListAt_cons,
      Snapshot.rowsAt_eq_map]
    simp only [List.append_assoc]
  · simpa only [List.append_assoc] using hrest

theorem Stands.siblings_relocate_of_ne
    (h : Stands forest ss source s left right depth before after)
    (hshows : Shows forest ss) (hne : target ≠ slot) (index : Option Nat) :
    (forest.relocate (s.toNode source) target index).siblings slot =
      forest.siblingsBeside s.id slot := by
  rw [relocate_siblings, Snapshot.toNode_id, Snapshot.toNode_parent,
    ← hshows.siblings_detach h.map_parent h.slotOf]
  exact siblings_modifySiblings_of_ne _ hne

theorem Stands.siblings_relocate
    (h : Stands forest ss source s left right depth before after)
    (hshows : Shows forest ss) (htarget : SlotOf ss target)
    (index : Option Nat) :
    (forest.relocate (s.toNode source) target index).siblings target =
      match index with
      | none => forest.siblingsBeside s.id target ++ [s.id]
      | some place =>
          (forest.siblingsBeside s.id target).insertIdx
            (min place (forest.siblingsBeside s.id target).length) s.id := by
  have hmem : forall p, target = some p →
      p ∈ (forest.detach s.id source).arena := by
    intro p hp
    exact mem_modifySiblings.mpr (hshows.mem_of_slot htarget p hp)
  rw [relocate_siblings, Snapshot.toNode_id, Snapshot.toNode_parent,
    siblings_attach index hmem, hshows.siblings_detach h.map_parent h.slotOf]

theorem Stands.moved (h : Stands forest ss source s left right depth before after)
    (hshows : Shows forest ss) (hs : forest.snapshotOf? s.id = some s)
    (htarget : SlotOf ss target)
    (hmovable : Movable forest ss (s.toNode source) s target) :
    Moved forest s.id source s target index
      (forest.relocate (s.toNode source) target index) := by
  have hfind := relocate_find_siblings forest (s.toNode source) target index
  rw [Snapshot.toNode_id] at hfind
  have hbeside := h.siblingsBeside hshows.toLinks
  rcases h.contents_relocate hshows hmovable index with
    ⟨depth', before', after', hcontents, hrest⟩
  constructor
  · refine ⟨hs, ?_⟩
    exact ((hmovable.held_relocate index).subtree hmovable.nodup).snapshotOf?
  · refine ⟨h.map_parent, ?_⟩
    rw [hfind, h.find, Option.map_some, Option.map_some, if_pos rfl]
  · exact h.siblings_relocate hshows htarget index
  · refine ⟨_, _, h.siblings hshows.toLinks, hbeside, ?_⟩
    intro hne
    rw [h.siblings_relocate_of_ne hshows hne.symm, hbeside]
  · intro slot hfrom hto
    rw [h.siblings_relocate_of_ne hshows hto.symm]
    exact hshows.siblingsBeside_of_ne h.map_parent hfrom.symm
  · exact ⟨_, _, _, depth', before', after', h.contents hshows, hcontents, hrest⟩
  · exact hfind
  · exact relocate_size _ _ _ _
  · simp [Forest.relocate, attach, detach]
  · simp [Forest.relocate, attach, detach]

theorem Stands.movable_of_move
    (h : Stands forest ss source s left right depth before after)
    (hshows : Shows forest ss) (hs : forest.snapshotOf? s.id = some s)
    (hmove : forest.move s.id target index = .ok changed) :
    changed = forest.relocate (s.toNode source) target index ∧
      SlotOf ss target ∧ Movable forest ss (s.toNode source) s target := by
  unfold move at hmove
  rw [h.find] at hmove
  cases hcheck : forest.checkMove (s.toNode source) target with
  | error e => simp [hcheck] at hmove
  | ok slot =>
      simp only [hcheck, Except.ok.injEq] at hmove
      rcases hshows.slot_of_checkMove hcheck with ⟨rfl, htarget, hclear⟩
      rw [Snapshot.toNode_id] at hclear
      exact ⟨hmove.symm, htarget, h.movable hshows hs htarget hclear⟩

theorem Shows.exists_moved (h : Shows forest ss)
    (hmove : forest.move x target index = .ok changed) :
    exists source s, Moved forest x source s target index changed := by
  cases hnode : forest.find? x with
  | none => simp [move, hnode] at hmove
  | some node =>
      rcases h.exists_subtree (mem_of_entry hnode) with ⟨_, s, rfl, hsub⟩
      rcases h.exists_stands hsub.snapshotOf? with
        ⟨source, left, right, depth, before, after, _, hstands⟩
      rcases hstands.movable_of_move h hsub.snapshotOf? hmove with
        ⟨rfl, htarget, hmovable⟩
      exact ⟨source, s, hstands.moved h hsub.snapshotOf? htarget hmovable⟩

/-- After every run of edits, a move that is carried out shifts one block, and
leaves everything else where it is. -/
theorem ofEdits_move_shifts_block (registry : Registry) (options : Options)
    (requests : List Edit) (id : NodeId) (target : Option NodeId)
    (index : Option Nat) (changed : Forest)
    (hmove : (ofEdits registry options requests).move id target index =
      .ok changed) :
    exists source s,
      Moved (ofEdits registry options requests) id source s target index
        changed := by
  rcases exists_shows_ofEdits registry options requests with ⟨ss, h⟩
  exact h.exists_moved hmove

theorem move_shifts_block_of_button :
    let forest := ofEdits .standard ⟨false⟩
      [.insert .card none, .insert .button (some (NodeId.generate .card 1))]
    let button := NodeId.generate .button 2
    exists changed,
      forest.move button none (some 5) = .ok changed ∧
      exists source s, Moved forest button source s none (some 5) changed := by
  intro forest button
  have h : Shows forest _ := shows_nested rfl rfl
  have hmem : button ∈ forest.arena := h.mem_iff.mpr (by simp [button])
  rcases exists_entry_of_mem hmem with ⟨node, hfind⟩
  have hmove : forest.move button none (some 5) =
      .ok (forest.relocate node none (some 5)) := by
    have hentry : forest.find? button = some node := hfind
    unfold move
    rw [hentry]
    rfl
  exact ⟨_, hmove,
    ofEdits_move_shifts_block .standard ⟨false⟩ _ button none (some 5) _ hmove⟩

end Forest

end MarkupForest
