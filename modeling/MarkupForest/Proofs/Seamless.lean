import MarkupForest.Proofs.Runs

/-!
# No look-up that comes back empty

Edits and traversals pass silently over a list of siblings or a node that is not
there.  The careful versions in this module give up instead.  On a forest that
shows nested nodes they never do, and their answers are those of the plain ones;
so none of the silent branches is ever taken.
-/

namespace MarkupForest

namespace Forest

open Snapshot (idsOfList idsOfList_node_cons)

namespace Careful

/-!
# Careful edits
-/

/-- Change a list of siblings that must be there. -/
def modifySiblings (forest : Forest) (parent : Option NodeId)
    (change : List NodeId → List NodeId) : Option Forest :=
  match parent with
  | none => some (forest.modifySiblings none change)
  | some id =>
      if forest.contains id then
        some (forest.modifySiblings (some id) change)
      else
        none

def attach (forest : Forest) (id : NodeId) (parent : Option NodeId)
    (index : Option Nat) : Option Forest :=
  modifySiblings forest parent fun siblings =>
    insertAt (index.getD siblings.length) id siblings

def detach (forest : Forest) (id : NodeId) (parent : Option NodeId) :
    Option Forest :=
  modifySiblings forest parent (List.filter (· ≠ id))

def place (forest : Forest) (type : NodeType) (properties : Properties)
    (parent : Option NodeId) : Option Forest :=
  let id := NodeId.generate type forest.nextCount
  let node : Node := { id, type, properties, parent, children := [] }
  let grown : Forest :=
    { forest with
      arena := forest.arena.insert id node
      nextCount := forest.nextCount + 1 }
  attach grown id parent none

def cut (forest : Forest) (node : Node) : Option (Nat × Forest) :=
  (detach forest node.id node.parent).bind fun rest =>
    (erase forest.size [node.id] 0 rest.arena).map fun erased =>
      (erased.1, { rest with arena := erased.2 })

def relocate (forest : Forest) (node : Node) (parent : Option NodeId)
    (index : Option Nat) : Option Forest :=
  (detach forest node.id node.parent).bind fun rest =>
    (attach rest node.id parent index).bind fun moved =>
      if moved.contains node.id then
        some { moved with
          arena := moved.arena.modify node.id fun node => { node with parent } }
      else
        none

def copySubtree (forest : Forest) (node : Node) : Option Copy :=
  copy forest.size [(node.id, node.parent)]
    ⟨forest.arena, forest.nextCount, none⟩

/-- List a copy after its source, which must be listed. -/
def graft (forest : Forest) (source : Node) (copy : Copy) (id : NodeId) :
    Option Forest :=
  let grown : Forest :=
    { forest with arena := copy.arena, nextCount := copy.nextCount }
  if source.id ∈ grown.siblings source.parent then
    modifySiblings grown source.parent (insertAfter source.id id)
  else
    none

/-- Carry out an edit.  A refusal is an answer; giving up is not. -/
def edit? (forest : Forest) :
    Edit → Option (Except EditError (EditResult × Forest))
  | .insert type parent =>
      match forest.registry.find? type with
      | none => some (.error (.unknownType type.name))
      | some descriptor =>
          match forest.checkInsert type parent with
          | .error e => some (.error e)
          | .ok slot =>
              (place forest type descriptor.defaults slot).map fun changed =>
                .ok (.created (NodeId.generate type forest.nextCount), changed)
  | .replaceProperties id properties =>
      some (forest.edit? (.replaceProperties id properties))
  | .setProperty id key value =>
      some (forest.edit? (.setProperty id key value))
  | .delete id =>
      match forest.find? id with
      | none => some (.error (.nodeNotFound id))
      | some node =>
          (cut forest node).map fun answer =>
            .ok (.removed answer.1, answer.2)
  | .move id parent index =>
      match forest.find? id with
      | none => some (.error (.nodeNotFound id))
      | some node =>
          match forest.checkMove node parent with
          | .error e => some (.error e)
          | .ok slot =>
              (relocate forest node slot index).map fun changed =>
                .ok (.done, changed)
  | .duplicate id =>
      match forest.find? id with
      | none => some (.error (.nodeNotFound id))
      | some source =>
          (copySubtree forest source).bind fun copy =>
            copy.top.bind fun top =>
              (graft forest source copy top).map fun changed =>
                .ok (.created top, changed)

end Careful

variable {forest : Forest} {ss : List Snapshot} {slot : Option NodeId}
  {node : Node} {x : NodeId}

theorem Careful.modifySiblings_eq
    (hslot : forall p, slot = some p → p ∈ forest.arena)
    (change : List NodeId → List NodeId) :
    Careful.modifySiblings forest slot change =
      some (forest.modifySiblings slot change) := by
  cases slot with
  | none => rfl
  | some p =>
      unfold Careful.modifySiblings
      exact if_pos (contains_iff.mpr (hslot p rfl))

theorem Shows.mem_of_slot (h : Shows forest ss) (hslot : SlotOf ss slot) :
    forall p, slot = some p → p ∈ forest.arena :=
  fun p hp => h.mem_iff.mpr (hslot p hp)

theorem Shows.careful_place (h : Shows forest ss) (hslot : SlotOf ss slot)
    (type : NodeType) (properties : Properties) :
    Careful.place forest type properties slot =
      some (forest.place type properties slot) := by
  apply Careful.modifySiblings_eq
  intro p hp
  exact Std.ExtHashMap.mem_insert.mpr (Or.inr (h.mem_of_slot hslot p hp))

theorem Shows.careful_cut (h : Shows forest ss)
    (hfind : forest.arena[node.id]? = some node) :
    Careful.cut forest node = some (forest.cut node) := by
  rcases h.exists_erased hfind with ⟨s, left, hid, herased⟩
  have hslot := (h.toLinks.mem_siblings (h.complete _ (mem_of_entry hfind)) hfind).left
  have hdetach : Careful.detach forest node.id node.parent =
      some (forest.detach node.id node.parent) :=
    Careful.modifySiblings_eq (h.mem_of_slot hslot) _
  have hrun := herased.run
  rw [hid] at hrun
  unfold Careful.cut
  rw [hdetach, Option.bind_some, hrun, herased.cut hid.symm, hid]
  rfl

theorem Shows.careful_relocate (h : Shows forest ss)
    (hfind : forest.arena[node.id]? = some node) (hslot : SlotOf ss slot)
    (index : Option Nat) :
    Careful.relocate forest node slot index =
      some (forest.relocate node slot index) := by
  have hold := (h.toLinks.mem_siblings (h.complete _ (mem_of_entry hfind)) hfind).left
  have hdetach : Careful.detach forest node.id node.parent =
      some (forest.detach node.id node.parent) :=
    Careful.modifySiblings_eq (h.mem_of_slot hold) _
  have hattach : Careful.attach (forest.detach node.id node.parent) node.id
      slot index =
        some ((forest.detach node.id node.parent).attach node.id slot index) := by
    apply Careful.modifySiblings_eq
    intro p hp
    exact mem_modifySiblings.mpr (h.mem_of_slot hslot p hp)
  have hmoved : ((forest.detach node.id node.parent).attach node.id slot
      index).contains node.id = true :=
    contains_iff.mpr
      (mem_modifySiblings.mpr (mem_modifySiblings.mpr (mem_of_entry hfind)))
  unfold Careful.relocate
  rw [hdetach, Option.bind_some, hattach, Option.bind_some, if_pos hmoved]
  rfl

theorem Shows.careful_duplicate (h : Shows forest ss)
    (hfind : forest.arena[node.id]? = some node) :
    exists copy top,
      Careful.copySubtree forest node = some copy ∧
      forest.copySubtree node = copy ∧ copy.top = some top ∧
      Careful.graft forest node copy top = some (forest.graft node copy top) := by
  rcases h.exists_grown hfind with ⟨s, after, hid, hgrown⟩
  rcases h.toLinks.mem_siblings (h.complete _ (mem_of_entry hfind)) hfind with
    ⟨hslot, hlisted⟩
  refine ⟨_, _, ?_, hgrown.copySubtree hid.symm, rfl, ?_⟩
  · unfold Careful.copySubtree
    rw [← hid]
    exact hgrown.run
  have hold : forall y, y ∈ idsOfList ss → after[y]? = forest.arena[y]? := by
    intro y hy
    apply hgrown.frame
    intro hcopy
    rcases exists_generate_of_mem_renumber hcopy with ⟨type, c, hle, _, heq⟩
    exact h.fresh.ne (h.mem_iff.mpr hy) type hle heq
  unfold Careful.graft
  rw [if_pos]
  · apply Careful.modifySiblings_eq
    intro p hp
    show p ∈ after
    rw [Std.ExtHashMap.mem_iff_isSome_getElem?, hold p (hslot p hp),
      ← Std.ExtHashMap.mem_iff_isSome_getElem?]
    exact h.mem_of_slot hslot p hp
  · cases hparent : node.parent with
    | none =>
        rw [hparent] at hlisted
        exact hlisted
    | some p =>
        rw [hparent] at hlisted
        show node.id ∈ ((after[p]?).map Node.children).getD []
        rw [hold p (hslot p hparent)]
        exact hlisted

/-- Edits never miss a list of siblings or a node. -/
theorem Shows.careful_edit? (h : Shows forest ss) (request : Edit) :
    Careful.edit? forest request = some (forest.edit? request) := by
  cases request with
  | insert type parent =>
      simp only [Careful.edit?, Forest.edit?, Forest.insert]
      cases forest.registry.find? type with
      | none => rfl
      | some descriptor =>
          cases hcheck : forest.checkInsert type parent with
          | error e => simp [Except.map]
          | ok slot =>
              have hslot := (h.slot_of_checkInsert hcheck).right
              simp [h.careful_place hslot, Except.map]
  | replaceProperties id properties => rfl
  | setProperty id key value => rfl
  | delete id =>
      simp only [Careful.edit?, Forest.edit?, Forest.delete]
      cases hfind : forest.find? id with
      | none => rfl
      | some node =>
          have hself : forest.arena[node.id]? = some node := by
            rw [h.keyed hfind]
            exact hfind
          simp [h.careful_cut hself, Except.map]
  | move id parent index =>
      simp only [Careful.edit?, Forest.edit?, Forest.move]
      cases hfind : forest.find? id with
      | none => rfl
      | some node =>
          have hself : forest.arena[node.id]? = some node := by
            rw [h.keyed hfind]
            exact hfind
          cases hcheck : forest.checkMove node parent with
          | error e => simp [hcheck, Except.map]
          | ok slot =>
              have hslot := (h.slot_of_checkMove hcheck).right.left
              simp [hcheck, h.careful_relocate hself hslot, Except.map]
  | duplicate id =>
      simp only [Careful.edit?, Forest.edit?, Forest.duplicate]
      cases hfind : forest.find? id with
      | none => rfl
      | some source =>
          have hself : forest.arena[source.id]? = some source := by
            rw [h.keyed hfind]
            exact hfind
          rcases h.careful_duplicate hself with
            ⟨copy, top, hcopy, hplain, htop, hgraft⟩
          simp [hcopy, hplain, htop, hgraft, Except.map]

end Forest

end MarkupForest
