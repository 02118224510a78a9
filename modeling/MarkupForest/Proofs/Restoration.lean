import MarkupForest.Proofs.Deletion
import MarkupForest.Proofs.Duplication
import MarkupForest.Proofs.Insertion
import MarkupForest.Proofs.Relocation
import MarkupForest.Proofs.SameNodes
import MarkupForest.Proofs.StructureRule
import MarkupForest.Registry.Standard

/-!
# Edits that are taken back

What was inserted or copied is gone when its top is deleted, and what was moved
is back when it is moved back.  The forest is then the one before, not just one
with the same contents.  Only identifiers are not given back, so the counter
stays where the insert or the copy left it.
-/

namespace MarkupForest

namespace Forest

open Snapshot (idsOfList changeSiblings insertBy strike)

/-- Deleting `id` takes `count` nodes and leaves `forest` as it was before these
nodes were created. -/
structure Restores (changed : Forest) (id : NodeId) (count : Nat)
    (forest : Forest) : Prop where
  delete : changed.delete id =
    .ok (count, { forest with nextCount := changed.nextCount })
  nextCount : forest.nextCount < changed.nextCount

variable {forest changed : Forest} {ss ts : List Snapshot} {s : Snapshot}
  {slot source target other : Option NodeId} {index : Option Nat}
  {type : NodeType} {id x : NodeId} {depth : Nat} {left right : List Snapshot}
  {before after : List Snapshot.Row}

/-!
# Created nodes
-/

theorem Shows.slotOf_parent (h : Shows forest ss)
    (hparent : (forest.find? x).map Node.parent = some slot) : SlotOf ss slot := by
  rcases Option.map_eq_some_iff.mp hparent with ⟨node, hfind, rfl⟩
  exact (h.toLinks.mem_siblings (h.complete x (mem_of_entry hfind)) hfind).left

/-- New nodes that were inserted somewhere can be deleted again. -/
theorem Shows.restores (h : Shows forest ss) (hslot : SlotOf ss slot)
    (hnew : s.id ∉ forest.arena) {place : List NodeId → Nat}
    (hchanged : Shows changed (changeSiblings slot (insertBy place s) ss))
    (hs : changed.snapshotOf? s.id = some s)
    (hparent : (changed.find? s.id).map Node.parent = some slot)
    (hcount : forest.nextCount < changed.nextCount)
    (hconfiguration : changed.registry = forest.registry ∧
      changed.options = forest.options) :
    Restores changed s.id s.ids.length forest := by
  rcases hchanged.exists_rest hs with ⟨_, rest, hdelete, hrest, hdeleted⟩
  cases hdeleted.parent_eq hparent
  rw [h.toLinks.strike_insertBy hslot fun hmem => hnew (h.mem_iff.mpr hmem)] at hrest
  have hsame : rest = { forest with nextCount := rest.nextCount } := by
    apply h.eq_of_same hrest
    constructor
    · exact hdeleted.configuration.left.trans hconfiguration.left
    · exact hdeleted.configuration.right.trans hconfiguration.right
  rw [hdeleted.nextCount] at hsame
  exact ⟨hsame ▸ hdelete, hcount⟩

theorem Shows.restores_of_insert (h : Shows forest ss)
    (hinsert : forest.insert source type = .ok (id, changed)) :
    Restores changed id 1 forest := by
  cases changes_of_insert hinsert with
  | @insert _ _ slot descriptor htype hcheck =>
      rcases h.slot_of_checkInsert hcheck with ⟨rfl, hslot⟩
      have hinserted := h.inserted hslot type descriptor.defaults
      let leaf : Snapshot :=
        .node (NodeId.generate type forest.nextCount) type descriptor.defaults []
      have hnew : leaf.id ∉ forest.arena := h.fresh type _ (Nat.le_refl _)
      have hparent : ((forest.place type descriptor.defaults slot).find?
          leaf.id).map Node.parent = some slot := by
        rw [Snapshot.id_node, hinserted.find]
        rfl
      have hcount : forest.nextCount <
          (forest.place type descriptor.defaults slot).nextCount := by
        rw [hinserted.nextCount]
        exact Nat.lt_succ_self _
      exact h.restores hslot hnew (h.place hslot type descriptor.defaults)
        (h.place_issued hslot type descriptor.defaults).right hparent hcount
        hinserted.configuration

theorem Shows.restores_of_duplicate (h : Shows forest ss)
    (hduplicate : forest.duplicate x = .ok (id, changed)) :
    exists count, forest.descendantCount? x = some count ∧
      Restores changed id (count + 1) forest := by
  cases hnode : forest.find? x with
  | none => simp [duplicate, hnode] at hduplicate
  | some node =>
      rcases h.exists_subtree (mem_of_entry hnode) with ⟨_, s, rfl, hsub⟩
      rcases h.exists_copied hsub.snapshotOf? with
        ⟨slot, t, grown, hanswer, hshows, hduplicated⟩
      rw [hduplicate] at hanswer
      cases hanswer
      have hlength : t.ids.length = (idsOfList s.children).length + 1 := by
        rw [hduplicated.length_ids]
        cases s with
        | node id type properties below => rfl
      have hcount : forest.nextCount < changed.nextCount := by
        rw [hduplicated.nextCount, ← hduplicated.length_ids, hlength]
        omega
      refine ⟨_, hsub.descendantCount?, ?_⟩
      rw [← hlength]
      exact h.restores (h.slotOf_parent hduplicated.parents.left)
        (hduplicated.not_mem h (Snapshot.id_mem_ids t)) hshows
        hduplicated.snapshotOf hduplicated.parents.right hcount
        hduplicated.configuration

/-- After every run of edits, what an insert or a duplicate creates can be
deleted, and then the forest is as it was before, but for the counter. -/
theorem ofEdits_creations_undone (registry : Registry) (options : Options)
    (requests : List Edit) :
    let forest := ofEdits registry options requests
    (forall (parent : Option NodeId) (type : NodeType) (id : NodeId)
        (changed : Forest), forest.insert parent type = .ok (id, changed) →
      Restores changed id 1 forest) ∧
    (forall (source copy : NodeId) (changed : Forest),
        forest.duplicate source = .ok (copy, changed) →
      exists count, forest.descendantCount? source = some count ∧
        Restores changed copy (count + 1) forest) := by
  intro forest
  rcases exists_shows_ofEdits registry options requests with ⟨ss, h⟩
  constructor
  · intro parent type id changed hinsert
    exact h.restores_of_insert hinsert
  · intro source copy changed hduplicate
    exact h.restores_of_duplicate hduplicate

theorem creations_undone_of_card :
    let forest := ofEdits .standard ⟨false⟩
      [.insert .card none, .insert .button (some (NodeId.generate .card 1))]
    let card := NodeId.generate .card 1
    (exists id changed, forest.insert (some card) .button = .ok (id, changed) ∧
      Restores changed id 1 forest) ∧
    (exists copy changed, forest.duplicate card = .ok (copy, changed) ∧
      forest.descendantCount? card = some 1 ∧ Restores changed copy 2 forest) := by
  intro forest card
  have h : Shows forest _ := shows_nested rfl rfl
  have hcard := h.subtree_of_root List.mem_cons_self
  have hinsert : forest.insert (some card) .button = _ :=
    ofEdits_insert_below rfl hcard.find
  rcases h.exists_duplicated hcard.snapshotOf? with
    ⟨_, copy, _, changed, hduplicate, _⟩
  have hcount : forest.descendantCount? card = some 1 := hcard.descendantCount?
  rcases ofEdits_creations_undone .standard ⟨false⟩
    [.insert .card none, .insert .button (some card)] with ⟨hinserted, hcopied⟩
  rcases hcopied card copy changed hduplicate with ⟨count, hsame, hrestores⟩
  cases Option.some_inj.mp (hcount.symm.trans hsame)
  exact ⟨⟨_, _, hinsert, hinserted _ _ _ _ hinsert⟩,
    ⟨copy, changed, hduplicate, hcount, hrestores⟩⟩

/-!
# Moved nodes
-/

theorem OpenParent.congr (h : OpenParent forest x)
    (htype : (changed.find? x).map Node.type = (forest.find? x).map Node.type)
    (hsettings : SameSettings forest changed) : OpenParent changed x := by
  rcases h with ⟨above, hfind, hcontainer⟩
  rw [hfind, Option.map_some, Option.map_eq_some_iff] at htype
  rcases htype with ⟨node, hnode, htype⟩
  refine ⟨node, hnode, ?_⟩
  rw [hsettings.registry, hsettings.options, htype]
  exact hcontainer

theorem Moved.sameSettings (h : Moved forest x source s target index changed) :
    SameSettings forest changed :=
  ⟨h.nextCount, h.configuration.left, h.configuration.right⟩

theorem Shows.slotOf_of_open (h : Shows forest ss)
    (hopen : forall p, slot = some p → OpenParent forest p) : SlotOf ss slot := by
  intro p hp
  rcases hopen p hp with ⟨above, hfind, _⟩
  exact h.complete p (mem_of_entry hfind)

theorem Stands.move_eq (h : Stands forest ss source s left right depth before after)
    (hshows : Shows forest ss)
    (hopen : forall p, target = some p → OpenParent forest p)
    (hclear : forall p, target = some p → forest.isSelfOrAncestor s.id p = false) :
    forest.move s.id target index =
      .ok (forest.relocate (s.toNode source) target index) := by
  have hcheck : forest.checkMove (s.toNode source) target = .ok target := by
    cases target with
    | none => rfl
    | some p =>
        simp only [checkMove, (hopen p rfl).checkParent hshows, Snapshot.toNode_id,
          hclear p rfl]
        rfl
  unfold move
  rw [h.find]
  simp only [hcheck]

/-- A node goes back to where it stood in `forest`, if the changed forest is the
same apart from this node. -/
theorem Stands.move_back (h : Stands forest ss source s left right depth before after)
    (hshows : Shows forest ss)
    (hopen : forall p, source = some p → OpenParent forest p)
    (hchanged : Shows changed ts) (hs : changed.snapshotOf? s.id = some s)
    (hparent : (changed.find? s.id).map Node.parent = some other)
    (hrest : changeSiblings other (Snapshot.strike s.id) ts =
      changeSiblings source (Snapshot.strike s.id) ss)
    (htypes : forall y, (changed.find? y).map Node.type =
      (forest.find? y).map Node.type)
    (hsettings : SameSettings forest changed) :
    changed.move s.id source (some left.length) = .ok forest := by
  have hplace : forall p, source = some p → OpenParent changed p :=
    fun p hp => (hopen p hp).congr (htypes p) hsettings
  have hslot : SlotOf ts source := hchanged.slotOf_of_open hplace
  -- the old parent is still none of the nodes that it gets back
  have hclear : forall p, source = some p → changed.isSelfOrAncestor s.id p = false := by
    intro p hp
    rcases hchanged.subtree_of_snapshotOf? hs with ⟨_, _, hsub⟩
    rw [← Bool.not_eq_true, hsub.isSelfOrAncestor_iff hchanged]
    exact h.apart hp
  rcases hchanged.exists_stands hs with
    ⟨slot, left', right', depth', before', after', _, hstands⟩
  cases Option.some_inj.mp (hstands.map_parent.symm.trans hparent)
  have hmovable := hstands.movable hchanged hs hslot hclear
  have hmoved : Moved changed s.id other s source (some left.length) _ :=
    hstands.moved hchanged hs hslot hmovable
  have hback := hmovable.shows_relocate hchanged (some left.length)
  have hsame : changeSiblings source
      (insertBy (fun siblings => (some left.length).getD siblings.length) s)
      (changeSiblings source (Snapshot.strike s.id) ss) = ss :=
    h.insertBy_strike hshows.toLinks
  rw [Snapshot.toNode_parent, hrest, hsame] at hback
  rw [hstands.move_eq hchanged hplace hclear]
  apply congrArg Except.ok
  exact hshows.eq_of_sameSettings hback (hsettings.trans hmoved.sameSettings)

theorem Stands.move_move (h : Stands forest ss source s left right depth before after)
    (hshows : Shows forest ss) (hs : forest.snapshotOf? s.id = some s)
    (hopen : forall p, source = some p → OpenParent forest p)
    (hmove : forest.move s.id target index = .ok changed) :
    changed.move s.id source (some left.length) = .ok forest := by
  rcases h.movable_of_move hshows hs hmove with ⟨rfl, htarget, hmovable⟩
  have hmoved : Moved forest s.id source s target index _ :=
    h.moved hshows hs htarget hmovable
  have hchanged := hmovable.shows_relocate hshows index
  have hlinks := hmovable.links
  have hslot := hmovable.slotOf
  have hnew := hmovable.not_mem hshows.toLinks (Snapshot.id_mem_ids s)
  rw [Snapshot.toNode_parent] at hchanged hlinks hslot hnew
  apply h.move_back hshows hopen hchanged hmoved.snapshotOf.right
    hmoved.parents.right (hlinks.strike_insertBy hslot hnew _) _ hmoved.sameSettings
  intro y
  rw [hmoved.find y, Option.map_map]
  rfl

theorem Shows.exists_stands_at (h : Shows forest ss) {place : Nat}
    (hplace : (forest.siblings source)[place]? = some x) :
    exists s left right depth before after, s.id = x ∧ left.length = place ∧
      forest.snapshotOf? x = some s ∧
      Stands forest ss source s left right depth before after := by
  have hlisted : x ∈ forest.siblings source := List.mem_of_getElem? hplace
  rcases h.parent_of_listed hlisted with ⟨node, hfind, hparent⟩
  rcases h.exists_subtree (mem_of_entry hfind) with ⟨_, s, rfl, hsub⟩
  rcases h.exists_stands hsub.snapshotOf? with
    ⟨slot, left, right, depth, before, after, _, hstands⟩
  have hslot : slot = source := by
    have hsame := hstands.map_parent
    rw [hfind, Option.map_some, hparent] at hsame
    exact (Option.some_inj.mp hsame).symm
  rw [hslot] at hstands
  refine ⟨s, left, right, depth, before, after, rfl, ?_, hsub.snapshotOf?, hstands⟩
  have hself : ((left ++ s :: right).map Snapshot.id)[left.length]? = some s.id := by
    rw [List.getElem?_map, List.getElem?_append_right (Nat.le_refl _), Nat.sub_self]
    rfl
  rw [h.toLinks.siblings_focus hstands.focus] at hplace
  apply (List.getElem?_inj _ hstands.nodup).mp (hself.trans hplace.symm)
  simp

/-- After every run of edits, a node that was moved can be moved back, and then
the forest is as it was before. -/
theorem ofEdits_moves_undone (registry : Registry) (options : Options)
    (requests : List Edit) (id : NodeId) (source : Option NodeId) (place : Nat)
    (hplace : ((ofEdits registry options requests).siblings source)[place]? =
      some id) :
    let forest := ofEdits registry options requests
    forest.move id source (some place) = .ok forest ∧
    forall (target : Option NodeId) (index : Option Nat) (changed : Forest),
      forest.move id target index = .ok changed →
        changed.move id source (some place) = .ok forest := by
  intro forest
  rcases exists_shows_ofEdits registry options requests with ⟨ss, h⟩
  rcases h.exists_stands_at hplace with
    ⟨s, left, right, depth, before, after, rfl, rfl, hs, hstands⟩
  have hopen : forall p, source = some p → OpenParent forest p := by
    intro p hp
    cases hp
    apply Owned.openParent _ (List.mem_of_getElem? hplace)
    intro hstrict
    rw [run_options] at hstrict
    exact owned_ofEdits registry hstrict requests
  constructor
  · exact hstands.move_back h hopen h hs hstands.map_parent rfl (fun _ => rfl)
      ⟨rfl, rfl, rfl⟩
  · intro target index changed hmove
    exact hstands.move_move h hs hopen hmove

theorem moves_undone_of_button :
    let forest := ofEdits .standard ⟨false⟩
      [.insert .card none, .insert .button (some (NodeId.generate .card 1))]
    let card := NodeId.generate .card 1
    let button := NodeId.generate .button 2
    (forest.siblings (some card))[0]? = some button ∧
    forest.move button (some card) (some 0) = .ok forest ∧
    exists changed, forest.move button none none = .ok changed ∧
      changed.move button (some card) (some 0) = .ok forest := by
  intro forest card button
  have h : Shows forest _ := shows_nested rfl rfl
  have hcard := h.subtree_of_root List.mem_cons_self
  have hplace : (forest.siblings (some card))[0]? = some button := by
    have hsiblings : forest.siblings (some card) = _ := siblings_of_find hcard.find
    rw [hsiblings]
    rfl
  rcases ofEdits_moves_undone .standard ⟨false⟩ _ button (some card) 0 hplace with
    ⟨hstay, hback⟩
  have hmem : button ∈ forest.arena := h.mem_iff.mpr (by simp [button])
  rcases exists_entry_of_mem hmem with ⟨node, hfind⟩
  have hmove : forest.move button none none = .ok (forest.relocate node none none) := by
    have hentry : forest.find? button = some node := hfind
    unfold move
    rw [hentry]
    rfl
  exact ⟨hplace, hstay, _, hmove, hback _ _ _ hmove⟩

end Forest

end MarkupForest
