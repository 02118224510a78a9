import MarkupForest.Proofs.Editing

/-!
# Runs of edits

`Forest.Changes` says once what an edit that is carried out does, and which
checks it has passed.  Every change keeps the invariant, so every run of edits
from the empty forest ends in a forest that shows some nested nodes.
-/

namespace MarkupForest

namespace Forest

open Snapshot (idsOfList)

/-- An edit that passes its checks, its answer, and the changed forest. -/
inductive Changes (forest : Forest) : Edit → EditResult → Forest → Prop where
  | insert {type : NodeType} {parent slot : Option NodeId}
      {descriptor : Descriptor} :
      forest.registry.find? type = some descriptor →
      forest.checkInsert type parent = .ok slot →
      Changes forest (.insert type parent)
        (.created (NodeId.generate type forest.nextCount))
        (forest.place type descriptor.defaults slot)
  | replaceProperties {id : NodeId} {properties : Properties} :
      forest.contains id = true →
      Changes forest (.replaceProperties id properties) .done
        (forest.modifyProperties id fun _ => properties)
  | setProperty {id : NodeId} {key : String} {value : PropertyValue} :
      forest.contains id = true →
      Changes forest (.setProperty id key value) .done
        (forest.modifyProperties id (·.insert key value))
  | delete {id : NodeId} {node : Node} :
      forest.find? id = some node →
      Changes forest (.delete id) (.removed (forest.cut node).1)
        (forest.cut node).2
  | move {id : NodeId} {parent slot : Option NodeId} {index : Option Nat}
      {node : Node} :
      forest.find? id = some node →
      forest.checkMove node parent = .ok slot →
      Changes forest (.move id parent index) .done
        (forest.relocate node slot index)
  | duplicate {id top : NodeId} {source : Node} :
      forest.find? id = some source →
      (forest.copySubtree source).top = some top →
      Changes forest (.duplicate id) (.created top)
        (forest.graft source (forest.copySubtree source) top)

variable {forest changed : Forest} {request : Edit} {result : EditResult}
  {ss : List Snapshot} {node : Node} {x : NodeId}

theorem edit_of_ok (h : forest.edit? request = .ok (result, changed)) :
    forest.edit request = ⟨.ok result, changed, request.notices result⟩ := by
  unfold Forest.edit
  rw [h]

theorem edit_of_error {e : EditError} (h : forest.edit? request = .error e) :
    forest.edit request = ⟨.error e, forest, []⟩ := by
  unfold Forest.edit
  rw [h]

theorem changes_of_edit? (h : forest.edit? request = .ok (result, changed)) :
    Changes forest request result changed := by
  cases request with
  | insert type parent =>
      simp only [edit?, insert] at h
      cases hfind : forest.registry.find? type with
      | none => simp [hfind, Except.map] at h
      | some descriptor =>
          cases hcheck : forest.checkInsert type parent with
          | error e => simp [hfind, hcheck, Except.map] at h
          | ok slot =>
              simp only [hfind, hcheck, Except.map, Except.ok.injEq,
                Prod.mk.injEq] at h
              rcases h with ⟨rfl, rfl⟩
              exact Changes.insert hfind hcheck
  | replaceProperties id properties =>
      simp only [edit?, replaceProperties] at h
      cases hmem : forest.contains id with
      | false => simp [hmem, Except.map] at h
      | true =>
          simp only [hmem, if_true, Except.map, Except.ok.injEq,
            Prod.mk.injEq] at h
          rcases h with ⟨rfl, rfl⟩
          exact Changes.replaceProperties hmem
  | setProperty id key value =>
      simp only [edit?, setProperty] at h
      cases hmem : forest.contains id with
      | false => simp [hmem, Except.map] at h
      | true =>
          simp only [hmem, if_true, Except.map, Except.ok.injEq,
            Prod.mk.injEq] at h
          rcases h with ⟨rfl, rfl⟩
          exact Changes.setProperty hmem
  | delete id =>
      simp only [edit?, delete] at h
      cases hfind : forest.find? id with
      | none => simp [hfind, Except.map] at h
      | some node =>
          simp only [hfind, Except.map, Except.ok.injEq, Prod.mk.injEq] at h
          rcases h with ⟨rfl, rfl⟩
          exact Changes.delete hfind
  | move id parent index =>
      simp only [edit?, move] at h
      cases hfind : forest.find? id with
      | none => simp [hfind, Except.map] at h
      | some node =>
          cases hcheck : forest.checkMove node parent with
          | error e => simp [hfind, hcheck, Except.map] at h
          | ok slot =>
              simp only [hfind, hcheck, Except.map, Except.ok.injEq,
                Prod.mk.injEq] at h
              rcases h with ⟨rfl, rfl⟩
              exact Changes.move hfind hcheck
  | duplicate id =>
      simp only [edit?, duplicate] at h
      cases hfind : forest.find? id with
      | none => simp [hfind, Except.map] at h
      | some source =>
          cases htop : (forest.copySubtree source).top with
          | none => simp [hfind, htop, Except.map] at h
          | some top =>
              simp only [hfind, htop, Except.map, Except.ok.injEq,
                Prod.mk.injEq] at h
              rcases h with ⟨rfl, rfl⟩
              exact Changes.duplicate hfind htop

/-!
# Configuration
-/

@[simp] theorem modifySiblings_registry (forest : Forest)
    (slot : Option NodeId) (change : List NodeId → List NodeId) :
    (forest.modifySiblings slot change).registry = forest.registry := by
  cases slot <;> rfl

@[simp] theorem modifySiblings_options (forest : Forest)
    (slot : Option NodeId) (change : List NodeId → List NodeId) :
    (forest.modifySiblings slot change).options = forest.options := by
  cases slot <;> rfl

theorem Changes.registry (h : Changes forest request result changed) :
    changed.registry = forest.registry := by
  cases h with
  | insert _ _ => simp [place, attach]
  | replaceProperties _ => rfl
  | setProperty _ => rfl
  | delete _ => simp [cut, detach]
  | move _ _ => simp [relocate, attach, detach]
  | duplicate _ _ => simp [graft]

theorem run_registry (forest : Forest) (requests : List Edit) :
    (forest.run requests).registry = forest.registry := by
  induction requests generalizing forest with
  | nil => rfl
  | cons request rest ih =>
      have hedit : (forest.edit request).forest.registry = forest.registry := by
        unfold Forest.edit
        cases hanswer : forest.edit? request with
        | error e => rfl
        | ok answer =>
            rcases answer with ⟨result, changed⟩
            exact (changes_of_edit? hanswer).registry
      exact (ih (forest.edit request).forest).trans hedit

theorem Changes.options (h : Changes forest request result changed) :
    changed.options = forest.options := by
  cases h with
  | insert _ _ => simp [place, attach]
  | replaceProperties _ => rfl
  | setProperty _ => rfl
  | delete _ => simp [cut, detach]
  | move _ _ => simp [relocate, attach, detach]
  | duplicate _ _ => simp [graft]

theorem edit_options (forest : Forest) (request : Edit) :
    (forest.edit request).forest.options = forest.options := by
  cases hedit : forest.edit? request with
  | error e => rw [edit_of_error hedit]
  | ok answer =>
      rcases answer with ⟨result, changed⟩
      rw [edit_of_ok hedit]
      exact (changes_of_edit? hedit).options

theorem run_options (forest : Forest) (requests : List Edit) :
    (forest.run requests).options = forest.options := by
  induction requests generalizing forest with
  | nil => rfl
  | cons request rest ih =>
      exact (ih (forest.edit request).forest).trans (edit_options forest request)

/-!
# Checks
-/

theorem exists_of_checkParent {parent p : NodeId} {type : NodeType}
    (h : forest.checkParent parent type = .ok p) :
    exists node, forest.find? parent = some node ∧ node.id = p := by
  unfold checkParent at h
  cases hfind : forest.find? parent with
  | none => simp [hfind] at h
  | some node =>
      refine ⟨node, rfl, ?_⟩
      rw [hfind] at h
      cases hstrict : forest.options.strictStructure with
      | false => simpa [hstrict] using h
      | true =>
          simp only [hstrict, if_true] at h
          cases hlookup : forest.registry.find? node.type with
          | none => simp [hlookup] at h
          | some descriptor =>
              cases hcontainer : descriptor.isContainer with
              | false => simp [hlookup, hcontainer] at h
              | true => simpa [hlookup, hcontainer] using h

theorem Shows.of_checkParent {parent p : NodeId} {type : NodeType}
    (h : Shows forest ss) (hcheck : forest.checkParent parent type = .ok p) :
    p = parent ∧ p ∈ idsOfList ss := by
  rcases exists_of_checkParent hcheck with ⟨node, hfind, rfl⟩
  have hid := h.keyed hfind
  rw [hid]
  exact ⟨rfl, h.complete _ (mem_of_entry hfind)⟩

theorem Shows.slot_of_checkInsert {type : NodeType}
    {parent slot : Option NodeId} (h : Shows forest ss)
    (hcheck : forest.checkInsert type parent = .ok slot) :
    slot = parent ∧ SlotOf ss slot := by
  cases parent with
  | none =>
      simp only [checkInsert, Except.ok.injEq] at hcheck
      cases hcheck
      exact ⟨rfl, slotOf_none ss⟩
  | some parent =>
      simp only [checkInsert] at hcheck
      cases hparent : forest.checkParent parent type with
      | error e => simp [hparent, Except.map] at hcheck
      | ok p =>
          simp only [hparent, Except.map, Except.ok.injEq] at hcheck
          cases hcheck
          rcases h.of_checkParent hparent with ⟨rfl, hmem⟩
          exact ⟨rfl, slotOf_some hmem⟩

theorem Shows.slot_of_checkMove {parent slot : Option NodeId}
    (h : Shows forest ss) (hcheck : forest.checkMove node parent = .ok slot) :
    slot = parent ∧ SlotOf ss slot ∧
      forall p, slot = some p → forest.isSelfOrAncestor node.id p = false := by
  cases parent with
  | none =>
      simp only [checkMove, Except.ok.injEq] at hcheck
      cases hcheck
      refine ⟨rfl, slotOf_none ss, ?_⟩
      intro p hp
      cases hp
  | some target =>
      simp only [checkMove] at hcheck
      cases hparent : forest.checkParent target node.type with
      | error e => simp [hparent] at hcheck
      | ok p =>
          cases habove : forest.isSelfOrAncestor node.id p with
          | true => simp [hparent, habove] at hcheck
          | false =>
              simp only [hparent, habove] at hcheck
              cases hcheck
              rcases h.of_checkParent hparent with ⟨rfl, hmem⟩
              refine ⟨rfl, slotOf_some hmem, ?_⟩
              intro q hq
              cases hq
              exact habove

/-!
# The invariant
-/

theorem Shows.changes (h : Shows forest ss)
    (hchange : Changes forest request result changed) :
    exists ts, Shows changed ts := by
  cases hchange with
  | insert _ hcheck =>
      exact ⟨_, h.place (h.slot_of_checkInsert hcheck).right _ _⟩
  | replaceProperties _ => exact ⟨_, h.modifyProperties _ _⟩
  | setProperty _ => exact ⟨_, h.modifyProperties _ _⟩
  | delete hfind =>
      rcases h.exists_erased hfind with ⟨s, left, hid, herased⟩
      exact ⟨_, h.cut herased ((h.keyed hfind).trans hid.symm)⟩
  | @move id _ _ _ node hfind hcheck =>
      rcases h.slot_of_checkMove hcheck with ⟨_, hslot, hclear⟩
      have hself : forest.arena[node.id]? = some node := by
        rw [h.keyed hfind]
        exact hfind
      rcases h.exists_movable hself hslot hclear with ⟨s, hmovable⟩
      exact ⟨_, hmovable.shows_relocate h _⟩
  | @duplicate id top source hfind htop =>
      rcases h.exists_grown hfind with ⟨s, after, hid, hgrown⟩
      have hself : forest.arena[source.id]? = some source := by
        rw [h.keyed hfind]
        exact hfind
      rw [hgrown.copySubtree ((h.keyed hfind).trans hid.symm)] at htop ⊢
      cases htop
      exact ⟨_, h.graft hself hgrown⟩

theorem Shows.edit (h : Shows forest ss) (request : Edit) :
    exists ts, Shows (forest.edit request).forest ts := by
  unfold Forest.edit
  cases hedit : forest.edit? request with
  | error e => exact ⟨ss, h⟩
  | ok answer =>
      rcases answer with ⟨result, changed⟩
      exact h.changes (changes_of_edit? hedit)

theorem Shows.run (h : Shows forest ss) (requests : List Edit) :
    exists ts, Shows (forest.run requests) ts := by
  induction requests generalizing forest ss with
  | nil => exact ⟨ss, h⟩
  | cons request rest ih =>
      rcases h.edit request with ⟨ts, hts⟩
      exact ih hts

/-- The forest that a run of edits makes of the empty one. -/
abbrev ofEdits (registry : Registry) (options : Options)
    (requests : List Edit) : Forest :=
  (Forest.empty registry options).run requests

theorem ofEdits_registry (registry : Registry) (options : Options)
    (requests : List Edit) :
    (ofEdits registry options requests).registry = registry :=
  run_registry (Forest.empty registry options) requests

theorem exists_shows_ofEdits (registry : Registry) (options : Options)
    (requests : List Edit) :
    exists ss, Shows (ofEdits registry options requests) ss :=
  (Shows.empty registry options).run requests

/-!
# Inserts that are carried out
-/

theorem edit_insert_root {type : NodeType} {descriptor : Descriptor}
    (htype : forest.registry.find? type = some descriptor) :
    (forest.edit (.insert type none)).forest =
      forest.place type descriptor.defaults none := by
  simp only [edit, edit?, insert, htype, checkInsert, Except.map]

theorem insert_below {type : NodeType} {descriptor : Descriptor}
    {parent : NodeId} {node : Node}
    (htype : forest.registry.find? type = some descriptor)
    (hlax : forest.options.strictStructure = false)
    (hparent : forest.find? parent = some node) :
    forest.insert (some parent) type =
      .ok (NodeId.generate type forest.nextCount,
        forest.place type descriptor.defaults (some node.id)) := by
  simp [insert, htype, checkInsert, checkParent, hparent, hlax, Except.map]

theorem edit_of_insert {type : NodeType} {id : NodeId}
    (hinsert : forest.insert slot type = .ok (id, changed)) :
    (forest.edit (.insert type slot)).forest = changed := by
  simp only [edit, edit?, hinsert, Except.map]

theorem edit_insert_below {type : NodeType} {descriptor : Descriptor}
    {parent : NodeId} {node : Node}
    (htype : forest.registry.find? type = some descriptor)
    (hlax : forest.options.strictStructure = false)
    (hparent : forest.find? parent = some node) :
    (forest.edit (.insert type (some parent))).forest =
      forest.place type descriptor.defaults (some node.id) :=
  edit_of_insert (insert_below htype hlax hparent)

theorem ofEdits_insert_below {registry : Registry} {requests : List Edit}
    {type : NodeType} {descriptor : Descriptor} {parent : NodeId} {node : Node}
    (htype : registry.find? type = some descriptor)
    (hparent : (ofEdits registry ⟨false⟩ requests).find? parent = some node) :
    (ofEdits registry ⟨false⟩ requests).insert (some parent) type =
      .ok (NodeId.generate type (ofEdits registry ⟨false⟩ requests).nextCount,
        (ofEdits registry ⟨false⟩ requests).place type descriptor.defaults
          (some node.id)) := by
  apply insert_below _ _ hparent
  · rw [ofEdits_registry, htype]
  · exact congrArg Options.strictStructure (run_options _ _)

theorem shows_pair {registry : Registry} {options : Options}
    {first second : NodeType} {descriptor next : Descriptor}
    (hfirst : registry.find? first = some descriptor)
    (hsecond : registry.find? second = some next) :
    Shows (ofEdits registry options [.insert first none, .insert second none])
      [.node (NodeId.generate first 1) first descriptor.defaults [],
        .node (NodeId.generate second 2) second next.defaults []] := by
  let bare := Forest.empty registry options
  have hplaced := (Shows.empty registry options).place (slotOf_none []) first
    descriptor.defaults
  have hedit : (bare.edit (.insert first none)).forest =
      bare.place first descriptor.defaults none := edit_insert_root hfirst
  have htype : (bare.place first descriptor.defaults none).registry.find? second =
      some next := hsecond
  show Shows ((bare.edit _).forest.edit _).forest _
  rw [hedit, edit_insert_root htype]
  exact hplaced.place (slotOf_none _) second next.defaults

/-!
# Runs on nested nodes
-/

/-- A forest without the structure rule, the nested nodes that it shows, and the
count for its next identifier. -/
structure Stage (registry : Registry) (count : Nat) (ss : List Snapshot)
    (forest : Forest) : Prop where
  shows : Shows forest ss
  types : forest.registry = registry
  lax : forest.options.strictStructure = false
  count : forest.nextCount = count

theorem stage_empty (registry : Registry) :
    Stage registry 1 [] (Forest.empty registry ⟨false⟩) :=
  ⟨.empty registry ⟨false⟩, rfl, rfl, rfl⟩

namespace Stage

variable {registry : Registry} {count : Nat} {slot : Option NodeId}
  {type : NodeType} {descriptor : Descriptor}

theorem edit_insert (h : Stage registry count ss forest)
    (htype : registry.find? type = some descriptor) (hslot : SlotOf ss slot) :
    (forest.edit (.insert type slot)).forest =
      forest.place type descriptor.defaults slot := by
  have hfound : forest.registry.find? type = some descriptor := by
    rw [h.types]
    exact htype
  cases slot with
  | none => exact edit_insert_root hfound
  | some parent =>
      rcases exists_entry_of_mem (h.shows.mem_iff.mpr (hslot parent rfl)) with
        ⟨node, hparent⟩
      rw [edit_insert_below hfound h.lax hparent, h.shows.keyed hparent]

theorem insert (h : Stage registry count ss forest)
    (htype : registry.find? type = some descriptor) (hslot : SlotOf ss slot) :
    Stage registry (count + 1)
      (Snapshot.changeSiblings slot
        (Snapshot.insertBy List.length
          (.node (NodeId.generate type count) type descriptor.defaults [])) ss)
      (forest.edit (.insert type slot)).forest := by
  rw [h.edit_insert htype hslot]
  have hshows := h.shows.place hslot type descriptor.defaults
  rw [h.count] at hshows
  refine ⟨hshows, ?_, ?_, ?_⟩
  · simp [place, attach, h.types]
  · simp [place, attach, h.lax]
  · simp [place, attach, h.count]

theorem setProperty (h : Stage registry count ss forest) (hx : x ∈ idsOfList ss)
    (key : String) (value : PropertyValue) :
    Stage registry count (Snapshot.changePropertiesList x (·.insert key value) ss)
      (forest.edit (.setProperty x key value)).forest := by
  have hedit : (forest.edit (.setProperty x key value)).forest =
      forest.modifyProperties x (·.insert key value) := by
    have hmem : forest.contains x = true := contains_iff.mpr (h.shows.mem_iff.mpr hx)
    simp [edit, edit?, Forest.setProperty, hmem, Except.map]
  rw [hedit]
  exact ⟨h.shows.modifyProperties x _, h.types, h.lax, h.count⟩

end Stage

/-- What inserts and new properties make of nested nodes, without looking at a
forest.  Nothing comes of any other edit, nor of one that names a missing node. -/
def layOut? (registry : Registry) :
    Nat → List Snapshot → List Edit → Option (List Snapshot)
  | _, ss, [] => some ss
  | count, ss, .insert type slot :: rest =>
      match registry.find? type with
      | some descriptor =>
          if slot.all (· ∈ idsOfList ss) then
            layOut? registry (count + 1)
              (Snapshot.changeSiblings slot
                (Snapshot.insertBy List.length
                  (.node (NodeId.generate type count) type descriptor.defaults []))
                ss)
              rest
          else
            none
      | none => none
  | count, ss, .setProperty id key value :: rest =>
      if id ∈ idsOfList ss then
        layOut? registry count
          (Snapshot.changePropertiesList id (·.insert key value) ss) rest
      else
        none
  | _, _, _ => none

theorem Stage.run {registry : Registry} {requests : List Edit} {ts : List Snapshot} :
    forall {count ss forest}, Stage registry count ss forest →
      layOut? registry count ss requests = some ts →
        Shows (forest.run requests) ts := by
  induction requests with
  | nil =>
      intro count ss forest h hlaid
      cases hlaid
      exact h.shows
  | cons request rest ih =>
      intro count ss forest h hlaid
      cases request with
      | insert type slot =>
          cases htype : registry.find? type with
          | none => simp [layOut?, htype] at hlaid
          | some descriptor =>
              simp only [layOut?, htype, Option.ite_none_right_eq_some,
                Option.all_eq_true, decide_eq_true_eq] at hlaid
              exact ih (h.insert htype hlaid.left) hlaid.right
      | setProperty id key value =>
          simp only [layOut?, Option.ite_none_right_eq_some] at hlaid
          exact ih (h.setProperty hlaid.left key value) hlaid.right
      | replaceProperties id properties => cases hlaid
      | delete id => cases hlaid
      | move id parent index => cases hlaid
      | duplicate id => cases hlaid

/-- Edits that can be carried out on nested nodes make a forest that shows them. -/
theorem shows_of_layOut {registry : Registry} {requests : List Edit}
    {ss : List Snapshot} (h : layOut? registry 1 [] requests = some ss) :
    Shows (ofEdits registry ⟨false⟩ requests) ss :=
  (stage_empty registry).run h

theorem shows_nested {registry : Registry} {outer inner : NodeType}
    {descriptor next : Descriptor}
    (houter : registry.find? outer = some descriptor)
    (hinner : registry.find? inner = some next) :
    Shows
      (ofEdits registry ⟨false⟩
        [.insert outer none, .insert inner (some (NodeId.generate outer 1))])
      [.node (NodeId.generate outer 1) outer descriptor.defaults
        [.node (NodeId.generate inner 2) inner next.defaults []]] := by
  apply shows_of_layOut
  simp [layOut?, houter, hinner, Snapshot.changeSiblings, Snapshot.insertBy]

end Forest

end MarkupForest
