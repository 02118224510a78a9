import MarkupForest.Proofs.Reading
import MarkupForest.Proofs.Runs

/-!
# Identifiers over a whole run

Nodes come and go, but an identifier is used only once.  The count for new
identifiers says how many were ever used: an edit moves it on by the number of
nodes that it creates, and nothing moves it back.
-/

namespace MarkupForest

namespace Forest

open Snapshot (idsOfList)

/-- The identifiers of a node that an edit answers with, and of everything below
it. -/
def idsFrom (forest : Forest) : EditResult → List NodeId
  | .created id => ((forest.snapshotOf? id).map Snapshot.ids).getD []
  | .removed _ => []
  | .done => []

/-- The identifiers of the nodes that an edit creates. -/
def createdBy (forest : Forest) (request : Edit) : List NodeId :=
  match (forest.edit request).answer with
  | .ok result => (forest.edit request).forest.idsFrom result
  | .error _ => []

/-- The identifiers of all nodes that a run of edits ever creates. -/
def createdIn (forest : Forest) : List Edit → List NodeId
  | [] => []
  | request :: rest =>
      forest.createdBy request ++ createdIn (forest.edit request).forest rest

/-- How many identifiers an edit uses up: one for a node that is inserted, one
for each node of a subtree that is copied, and none otherwise. -/
def consumption (forest : Forest) :
    Edit → Except EditError EditResult → Nat
  | .insert _ _, .ok _ => 1
  | .duplicate id, .ok _ =>
      ((forest.snapshotOf? id).map fun s => s.ids.length).getD 0
  | _, _ => 0

/-- An edit creates exactly the nodes that are there afterwards and were not
there before, and uses up one identifier for each. -/
structure Accounted (forest : Forest) (request : Edit) : Prop where
  created : forall id, id ∈ forest.createdBy request ↔
    (forest.edit request).forest.contains id = true ∧
      forest.contains id = false
  nextCount : (forest.edit request).forest.nextCount =
    forest.nextCount +
      forest.consumption request (forest.edit request).answer
  length : (forest.createdBy request).length =
    forest.consumption request (forest.edit request).answer

variable {forest changed : Forest} {request : Edit} {result : EditResult}
  {ss : List Snapshot} {s : Snapshot} {node : Node} {x : NodeId}
  {slot : Option NodeId} {new : List NodeId}

/-!
# One edit
-/

/-- The nodes `new` are all that is new in a changed forest, under identifiers
generated at the counts in between. -/
structure Issued (forest changed : Forest) (new : List NodeId) : Prop where
  nextCount : changed.nextCount = forest.nextCount + new.length
  nodup : new.Nodup
  generated : forall x, x ∈ new → exists type count,
    forest.nextCount ≤ count ∧ count < changed.nextCount ∧
      x = NodeId.generate type count
  present : forall x, x ∈ new → x ∈ changed.arena
  complete : forall x, x ∈ changed.arena → x ∈ forest.arena ∨ x ∈ new

theorem issued_nil (hcount : changed.nextCount = forest.nextCount)
    (hmem : forall x, x ∈ changed.arena → x ∈ forest.arena) :
    Issued forest changed [] := by
  refine ⟨hcount, List.nodup_nil, ?_, ?_, fun x hx => Or.inl (hmem x hx)⟩
  · intro x hx
    cases hx
  · intro x hx
    cases hx

theorem Issued.mem_iff (h : Issued forest changed new) (hshows : Shows forest ss) :
    x ∈ new ↔ x ∈ changed.arena ∧ x ∉ forest.arena := by
  constructor
  · intro hx
    refine ⟨h.present x hx, ?_⟩
    rcases h.generated x hx with ⟨type, count, hle, _, rfl⟩
    exact hshows.fresh type count hle
  · rintro ⟨hx, hnot⟩
    exact (h.complete x hx).resolve_left hnot

theorem Shows.place_issued (h : Shows forest ss) (hslot : SlotOf ss slot)
    (type : NodeType) (properties : Properties) :
    Issued forest (forest.place type properties slot)
        [NodeId.generate type forest.nextCount] ∧
      (forest.place type properties slot).snapshotOf?
          (NodeId.generate type forest.nextCount) =
        some (.node (NodeId.generate type forest.nextCount) type
          properties []) := by
  have hleaf := h.place_find_new hslot type properties
  have hcount : (forest.place type properties slot).nextCount =
      forest.nextCount + 1 := by
    simp [Forest.place, attach]
  constructor
  · refine ⟨hcount, by simp, ?_, ?_, ?_⟩
    · intro x hx
      rw [List.mem_singleton] at hx
      exact ⟨type, forest.nextCount, Nat.le_refl _, by omega, hx⟩
    · intro x hx
      rw [List.mem_singleton] at hx
      exact hx ▸ mem_of_entry hleaf
    · intro x hx
      have hgrown := mem_modifySiblings.mp hx
      rw [Std.ExtHashMap.mem_insert, beq_iff_eq] at hgrown
      rcases hgrown with heq | hold
      · exact Or.inr (List.mem_singleton.mpr heq.symm)
      · exact Or.inl hold
  · have hheld := Holds.cons hleaf Holds.nil Holds.nil
    exact (hheld.subtree (by simp)).snapshotOf?

theorem Shows.cut_issued (h : Shows forest ss)
    (hfind : forest.arena[x]? = some node) :
    Issued forest (forest.cut node).2 [] := by
  rcases h.exists_erased hfind with ⟨s, left, hid, herased⟩
  rw [herased.cut ((h.keyed hfind).trans hid.symm)]
  apply issued_nil
  · exact modifySiblings_nextCount forest node.parent _
  · intro y hy
    have hy' : y ∈ left := hy
    rcases exists_entry_of_mem hy' with ⟨entry, hentry⟩
    rw [herased.find] at hentry
    split at hentry
    · cases hentry
    · exact mem_modifySiblings.mp (mem_of_entry hentry)

theorem relocate_issued (forest : Forest) (node : Node) (slot : Option NodeId)
    (index : Option Nat) :
    Issued forest (forest.relocate node slot index) [] := by
  apply issued_nil
  · simp [relocate, attach, detach]
  · intro y hy
    exact mem_modifySiblings.mp
      (mem_modifySiblings.mp (Std.ExtHashMap.mem_modify.mp hy))

theorem modifyProperties_issued (forest : Forest) (x : NodeId)
    (change : Properties → Properties) :
    Issued forest (forest.modifyProperties x change) [] :=
  issued_nil rfl fun _ hy => Std.ExtHashMap.mem_modify.mp hy

theorem Shows.graft_issued {after : Arena} (h : Shows forest ss)
    (hfind : forest.arena[x]? = some node) (hgrown : Grown forest node s after) :
    Issued forest (forest.withCopy node s after)
        (s.renumber forest.nextCount).ids ∧
      (forest.withCopy node s after).snapshotOf?
          (s.renumber forest.nextCount).id =
        some (s.renumber forest.nextCount) := by
  have hslot := (h.toLinks.mem_siblings (h.complete x (mem_of_entry hfind)) hfind).left
  have hcopy := (hgrown.held_withCopy h hslot).right
  have hcount : (forest.withCopy node s after).nextCount =
      forest.nextCount + s.ids.length :=
    modifySiblings_nextCount _ node.parent _
  constructor
  · refine ⟨?_, Snapshot.nodup_renumber s _, ?_, ?_, ?_⟩
    · rw [hcount, Snapshot.length_renumber]
    · intro y hy
      rw [hcount]
      exact exists_generate_of_mem_renumber hy
    · intro y hy
      rw [← Snapshot.idsOfList_singleton] at hy
      exact hcopy.mem hy
    · intro y hy
      by_cases hnew : y ∈ (s.renumber forest.nextCount).ids
      · exact Or.inr hnew
      · rcases exists_entry_of_mem (mem_modifySiblings.mp hy) with
          ⟨entry, hentry⟩
        have hold : after[y]? = some entry := hentry
        rw [hgrown.frame y hnew] at hold
        exact Or.inl (mem_of_entry hold)
  · exact (hcopy.subtree (Snapshot.nodup_renumber s _)).snapshotOf?

/-- What an edit creates is issued by it, as many identifiers as it uses up. -/
theorem Shows.issued (h : Shows forest ss) (request : Edit) :
    Issued forest (forest.edit request).forest (forest.createdBy request) ∧
      (forest.createdBy request).length =
        forest.consumption request (forest.edit request).answer := by
  cases hedit : forest.edit? request with
  | error e =>
      unfold createdBy
      rw [edit_of_error hedit]
      refine ⟨issued_nil rfl fun _ hx => hx, ?_⟩
      cases request <;> rfl
  | ok answer =>
      rcases answer with ⟨result, changed⟩
      unfold createdBy
      rw [edit_of_ok hedit]
      cases changes_of_edit? hedit with
      | @insert type parent slot descriptor htype hcheck =>
          rcases h.place_issued (h.slot_of_checkInsert hcheck).right type
            descriptor.defaults with ⟨hissued, hsnapshot⟩
          simp only [idsFrom, hsnapshot]
          exact ⟨hissued, rfl⟩
      | @replaceProperties id properties _ =>
          exact ⟨modifyProperties_issued forest id fun _ => properties, rfl⟩
      | @setProperty id key value _ =>
          exact ⟨modifyProperties_issued forest id (·.insert key value), rfl⟩
      | delete hfind => exact ⟨h.cut_issued hfind, rfl⟩
      | move _ _ => exact ⟨relocate_issued forest _ _ _, rfl⟩
      | @duplicate id top source hfind htop =>
          rcases h.exists_grown hfind with ⟨s, after, hid, hgrown⟩
          rcases h.graft_issued hfind hgrown with ⟨hissued, hsnapshot⟩
          have hsource : forest.snapshotOf? id = some s := by
            rw [← hid]
            exact (hgrown.held.subtree hgrown.nodup).snapshotOf?
          rw [hgrown.copySubtree ((h.keyed hfind).trans hid.symm)] at htop ⊢
          cases htop
          simp only [idsFrom, hsnapshot, consumption, hsource]
          exact ⟨hissued, Snapshot.length_renumber s forest.nextCount⟩

theorem Shows.accounted (h : Shows forest ss) (request : Edit) :
    Accounted forest request := by
  rcases h.issued request with ⟨hissued, hlength⟩
  refine ⟨?_, ?_, hlength⟩
  · intro id
    rw [hissued.mem_iff h, contains_iff, ← Bool.not_eq_true, contains_iff]
  · rw [hissued.nextCount, hlength]

/-!
# A whole run
-/

theorem Shows.createdIn (h : Shows forest ss) (requests : List Edit) :
    (forest.createdIn requests).Nodup ∧
      forall x, x ∈ forest.createdIn requests →
        exists type count, forest.nextCount ≤ count ∧
          x = NodeId.generate type count := by
  induction requests generalizing forest ss with
  | nil =>
      refine ⟨List.nodup_nil, ?_⟩
      intro x hx
      cases hx
  | cons request rest ih =>
      have hissued := (h.issued request).left
      rcases h.edit request with ⟨ts, hts⟩
      rcases ih hts with ⟨hnodup, hlater⟩
      have hcount := hissued.nextCount
      constructor
      · unfold Forest.createdIn
        rw [List.nodup_append]
        refine ⟨hissued.nodup, hnodup, ?_⟩
        -- the first edit uses counts that the rest of the run is past
        intro x hx y hy hxy
        rcases hissued.generated x hx with ⟨type, count, _, hlt, hxeq⟩
        rcases hlater y hy with ⟨type', count', hle, hyeq⟩
        have hsame := NodeId.generate_inj.mp (hxeq.symm.trans (hxy.trans hyeq))
        omega
      · intro x hx
        rcases List.mem_append.mp hx with hx | hx
        · rcases hissued.generated x hx with ⟨type, count, hle, _, heq⟩
          exact ⟨type, count, hle, heq⟩
        · rcases hlater x hx with ⟨type, count, hle, heq⟩
          exact ⟨type, count, by omega, heq⟩

/-- Over every run of edits, no identifier is given to two nodes, deleted ones
included.  An identifier consists of the type of its node and a count that was
passed, and every further edit moves the count on by what it creates. -/
theorem ofEdits_identifiers (registry : Registry) (options : Options)
    (requests : List Edit) :
    ((Forest.empty registry options).createdIn requests).Nodup ∧
      (forall id node,
        (ofEdits registry options requests).find? id = some node →
          exists count, 1 ≤ count ∧
            count < (ofEdits registry options requests).nextCount ∧
            id = NodeId.generate node.type count) ∧
      forall request, Accounted (ofEdits registry options requests) request := by
  rcases exists_shows_ofEdits registry options requests with ⟨ss, h⟩
  refine ⟨((Shows.empty registry options).createdIn requests).left,
    h.numbered, h.accounted⟩

end Forest

end MarkupForest
