import MarkupForest.Proofs.Contents
import MarkupForest.Registry.Standard

/-!
# What an insert adds

A new node is listed last under its parent, or last among the roots.  The
contents get one row for it, right after the block of its parent, which stays as
it is.  The identifier is new, so no node is written over.
-/

namespace MarkupForest

namespace Snapshot

variable {s : Snapshot} {ss : List Snapshot} {p : NodeId}

/-!
# A change below one node
-/

theorem insertBy_length (s : Snapshot) (level : List Snapshot) :
    insertBy List.length s level = level ++ [s] := by
  unfold insertBy
  rw [List.length_map, Nat.min_self, List.insertIdx_length_self]

theorem changeBelowList_self (p : NodeId) (ss : List Snapshot) :
    changeBelowList p (fun level => level) ss = ss := by
  induction ss using nested_induction with
  | nil => rfl
  | cons id type properties below rest ihbelow ihrest =>
      rw [changeBelowList_node_cons, ihbelow, ihrest, ite_self]

/-- A change right below a node changes the block of this node, from its second
row on, and no other rows. -/
theorem exists_block_changeBelow (hnodup : (idsOfList ss).Nodup)
    (hp : p ∈ idsOfList ss) (top : Nat) :
    exists type properties below depth before after,
      (node p type properties below).Inside ss ∧
      forall change, rowsOfListAt top (changeBelowList p change ss) =
        before ++ (node p type properties (change below)).rowsAt depth ++
          after := by
  induction ss using nested_induction generalizing top with
  | nil => cases hp
  | cons id type properties below rest ihbelow ihrest =>
      rw [idsOfList_node_cons, List.nodup_cons, List.nodup_append] at hnodup
      rcases hnodup with ⟨hid, hnbelow, hnrest, hdisjoint⟩
      rw [idsOfList_node_cons, List.mem_cons, List.mem_append] at hp
      rcases hp with rfl | hp | hp
      · have hrest : p ∉ idsOfList rest :=
          fun hmem => hid (List.mem_append_right _ hmem)
        refine ⟨type, properties, below, top, [], rowsOfListAt top rest,
          .level List.mem_cons_self, ?_⟩
        intro change
        rw [changeBelowList_node_cons, if_pos rfl,
          changeBelowList_of_not_mem change hrest]
        rfl
      · have hne : id ≠ p := fun e => hid (e ▸ List.mem_append_left _ hp)
        have hrest : p ∉ idsOfList rest :=
          fun hmem => hdisjoint p hp p hmem rfl
        rcases ihbelow hnbelow hp (top + 1) with
          ⟨type', properties', below', depth, before, after, hinside, hrows⟩
        refine ⟨type', properties', below', depth,
          ⟨top, id, type, properties⟩ :: before,
          after ++ rowsOfListAt top rest, .deeper List.mem_cons_self hinside, ?_⟩
        intro change
        rw [changeBelowList_node_cons, if_neg hne,
          changeBelowList_of_not_mem change hrest, rowsOfListAt_node_cons,
          hrows change]
        simp only [List.append_assoc, List.cons_append]
      · have hne : id ≠ p := fun e => hid (e ▸ List.mem_append_right _ hp)
        have hbelow : p ∉ idsOfList below :=
          fun hmem => hdisjoint p hmem p hp rfl
        rcases ihrest hnrest hp top with
          ⟨type', properties', below', depth, before, after, hinside, hrows⟩
        refine ⟨type', properties', below', depth,
          ⟨top, id, type, properties⟩ :: (rowsOfListAt (top + 1) below ++ before),
          after, hinside.cons, ?_⟩
        intro change
        rw [changeBelowList_node_cons, if_neg hne,
          changeBelowList_of_not_mem change hbelow, rowsOfListAt_node_cons,
          hrows change]
        simp only [List.append_assoc, List.cons_append]

end Snapshot

namespace Forest

open Snapshot (idsOfList rowsOfListAt changeSiblings changeBelowList insertBy)

/-- The contents have a row more: right after the block of the parent and one
level deeper than it, or at the end for a root. -/
def RowAdded (forest : Forest) (parent : Option NodeId) (id : NodeId)
    (type : NodeType) (properties : Properties) (changed : Forest) : Prop :=
  match parent with
  | none => changed.contents = forest.contents ++ [⟨0, id, type, properties⟩]
  | some p => exists s depth before after,
      forest.snapshotOf? p = some s ∧
      forest.contents =
        before ++ s.rows.map (Snapshot.Row.lower depth) ++ after ∧
      changed.contents =
        before ++ s.rows.map (Snapshot.Row.lower depth) ++
          ⟨depth + 1, id, type, properties⟩ :: after

/-- What has become of `forest` once the node `id` was inserted under
`parent`. -/
structure Inserted (forest : Forest) (type : NodeType) (properties : Properties)
    (parent : Option NodeId) (id : NodeId) (changed : Forest) : Prop where
  new : forest.contains id = false
  find : changed.find? id =
    some { id, type, properties, parent, children := [] }
  contents : RowAdded forest parent id type properties changed
  siblings : changed.siblings parent = forest.siblings parent ++ [id]
  keeps : forall y, forest.contains y = true → Keeps forest changed parent y
  roots : parent ≠ none → changed.roots = forest.roots
  contains_iff : forall y, changed.contains y = true ↔
    forest.contains y = true ∨ y = id
  nextCount : changed.nextCount = forest.nextCount + 1
  configuration : changed.registry = forest.registry ∧
    changed.options = forest.options

variable {forest changed : Forest} {ss : List Snapshot} {slot parent : Option NodeId}
  {type : NodeType} {id p y : NodeId}

/-!
# The row of the new node
-/

theorem Shows.rowAdded_root (h : Shows forest ss) (type : NodeType)
    (properties : Properties) :
    RowAdded forest none (NodeId.generate type forest.nextCount) type properties
      (forest.place type properties none) := by
  unfold RowAdded
  rw [(h.place (slotOf_none ss) type properties).contents, h.contents]
  show rowsOfListAt 0 (insertBy List.length _ ss) = _
  rw [Snapshot.insertBy_length, Snapshot.rowsOfListAt_append]
  rfl

theorem Shows.rowAdded_below (h : Shows forest ss) (hp : p ∈ idsOfList ss)
    (type : NodeType) (properties : Properties) :
    RowAdded forest (some p) (NodeId.generate type forest.nextCount) type properties
      (forest.place type properties (some p)) := by
  rcases Snapshot.exists_block_changeBelow h.nodup hp 0 with
    ⟨type', properties', below, depth, before, after, hinside, hrows⟩
  refine ⟨.node p type' properties' below, depth, before, after, ?_, ?_, ?_⟩
  · apply (h.coherent.nested p _).mpr
    rw [h.snapshot]
    exact ⟨rfl, hinside⟩
  · have hself := hrows fun level => level
    rwa [Snapshot.changeBelowList_self, Snapshot.rowsAt_eq_map,
      ← h.contents] at hself
  · rw [(h.place (slotOf_some hp) type properties).contents, ← Snapshot.rowsAt_eq_map]
    show rowsOfListAt 0 (changeBelowList p (insertBy List.length _) ss) = _
    rw [hrows, Snapshot.insertBy_length]
    unfold Snapshot.rowsAt
    rw [Snapshot.rowsOfListAt_append]
    simp only [List.append_assoc, List.cons_append]
    rfl

/-!
# An insert that is carried out
-/

theorem Shows.inserted (h : Shows forest ss) (hslot : SlotOf ss slot)
    (type : NodeType) (properties : Properties) :
    Inserted forest type properties slot (NodeId.generate type forest.nextCount)
      (forest.place type properties slot) := by
  let new := NodeId.generate type forest.nextCount
  let grown : Forest :=
    { forest with
      arena := forest.arena.insert new
        { id := new, type, properties, parent := slot, children := [] }
      nextCount := forest.nextCount + 1 }
  have hnew : new ∉ forest.arena := h.fresh type forest.nextCount (Nat.le_refl _)
  have hold : forall y, y ∈ forest.arena → grown.find? y = forest.find? y := by
    intro y hy
    have hne : new ≠ y := fun e => hnew (e ▸ hy)
    show (forest.arena.insert new _)[y]? = forest.arena[y]?
    rw [Std.ExtHashMap.getElem?_insert, if_neg (by simpa using hne)]
  constructor
  · rw [← Bool.not_eq_true, contains_iff]
    exact hnew
  · exact h.place_find_new hslot type properties
  · cases slot with
    | none => exact h.rowAdded_root type properties
    | some p => exact h.rowAdded_below (hslot p rfl) type properties
  · have hsame : grown.siblings slot = forest.siblings slot :=
      siblings_congr (fun _ => rfl)
        fun p hp => hold p (h.mem_of_slot hslot p hp)
    have howner : forall p, slot = some p → p ∈ grown.arena := by
      intro p hp
      exact Std.ExtHashMap.mem_insert.mpr (Or.inr (h.mem_of_slot hslot p hp))
    rw [← hsame]
    exact siblings_attach_last howner
  · intro y hy
    have hmem := contains_iff.mp hy
    rcases exists_entry_of_mem hmem with ⟨node, hfind⟩
    have hkeeps : Keeps grown (forest.place type properties slot) slot y :=
      keeps_modifySiblings _ ((hold y hmem).trans hfind)
    exact hkeeps.congr (hold y hmem).symm rfl
  · intro hne
    cases slot with
    | none => exact absurd rfl hne
    | some p => rfl
  · intro y
    rw [contains_iff, contains_iff]
    have hmem : y ∈ (forest.place type properties slot).arena ↔
        y ∈ grown.arena := mem_modifySiblings
    rw [hmem, Std.ExtHashMap.mem_insert, beq_iff_eq, eq_comm, or_comm]
  · exact modifySiblings_nextCount grown slot _
  · exact ⟨modifySiblings_registry grown slot _,
      modifySiblings_options grown slot _⟩

theorem changes_of_insert
    (hinsert : forest.insert parent type = .ok (id, changed)) :
    Changes forest (.insert type parent) (.created id) changed := by
  apply changes_of_edit?
  show (forest.insert parent type).map _ = _
  rw [hinsert]
  rfl

theorem Shows.exists_inserted (h : Shows forest ss)
    (hinsert : forest.insert parent type = .ok (id, changed)) :
    exists descriptor, forest.registry.find? type = some descriptor ∧
      Inserted forest type descriptor.defaults parent id changed := by
  cases changes_of_insert hinsert with
  | @insert _ _ slot descriptor htype hcheck =>
      rcases h.slot_of_checkInsert hcheck with ⟨rfl, hslot⟩
      exact ⟨descriptor, htype, h.inserted hslot type descriptor.defaults⟩

/-- After every run of edits, an insert that is carried out adds one row with the
registered properties of its type, last under its parent, and leaves everything
else where it is. -/
theorem ofEdits_insert_adds_row (registry : Registry) (options : Options)
    (requests : List Edit) (parent : Option NodeId) (type : NodeType)
    (id : NodeId) (changed : Forest)
    (hinsert : (ofEdits registry options requests).insert parent type =
      .ok (id, changed)) :
    exists descriptor, registry.find? type = some descriptor ∧
      Inserted (ofEdits registry options requests) type descriptor.defaults
        parent id changed := by
  rcases exists_shows_ofEdits registry options requests with ⟨ss, h⟩
  rcases h.exists_inserted hinsert with ⟨descriptor, htype, hinserted⟩
  rw [ofEdits_registry] at htype
  exact ⟨descriptor, htype, hinserted⟩

theorem insert_adds_row_of_button :
    let forest := ofEdits .standard ⟨false⟩
      [.insert .card none, .insert .button (some (NodeId.generate .card 1))]
    let card := NodeId.generate .card 1
    exists id changed,
      forest.insert (some card) .button = .ok (id, changed) ∧
      exists descriptor, Registry.standard.find? .button = some descriptor ∧
        Inserted forest .button descriptor.defaults (some card) id changed := by
  intro forest card
  have h : Shows forest _ := shows_nested rfl rfl
  have hcard := h.subtree_of_root List.mem_cons_self
  have hinsert : forest.insert (some card) .button = _ :=
    ofEdits_insert_below rfl hcard.find
  exact ⟨_, _, hinsert,
    ofEdits_insert_adds_row .standard ⟨false⟩ _ (some card) .button _ _ hinsert⟩

end Forest

end MarkupForest
