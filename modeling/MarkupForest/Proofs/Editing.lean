import MarkupForest.Proofs.Copying
import MarkupForest.Proofs.Shape

/-!
# What each change makes of the nested nodes

One lemma for each change of a forest: a forest that shows nested nodes shows
the changed ones afterwards.  From these, every edit keeps the invariant, and so
does every run.
-/

namespace MarkupForest

namespace Forest

open Snapshot (idsOfList changeSiblings insertBy strike)

variable {forest : Forest} {ss : List Snapshot} {slot : Option NodeId}

/-!
# A new node
-/

theorem Shows.generate_not_mem (h : Shows forest ss) (type : NodeType) :
    NodeId.generate type forest.nextCount ∉ idsOfList ss := by
  intro hmem
  exact h.fresh type forest.nextCount (Nat.le_refl _) (h.mem_iff.mpr hmem)

theorem Shows.place_find_new (h : Shows forest ss) (hslot : SlotOf ss slot)
    (type : NodeType) (properties : Properties) :
    (forest.place type properties slot).arena[
        NodeId.generate type forest.nextCount]? =
      some ((Snapshot.node (NodeId.generate type forest.nextCount) type
        properties []).toNode slot) := by
  unfold Forest.place attach
  rw [modifySiblings_find_of_ne fun e =>
    h.generate_not_mem type (hslot _ e)]
  exact Std.ExtHashMap.getElem?_insert_self

theorem Shows.place (h : Shows forest ss) (hslot : SlotOf ss slot)
    (type : NodeType) (properties : Properties) :
    Shows (forest.place type properties slot)
      (changeSiblings slot
        (insertBy List.length
          (.node (NodeId.generate type forest.nextCount) type properties []))
        ss) := by
  let new := NodeId.generate type forest.nextCount
  let leaf : Node := { id := new, type, properties, parent := slot, children := [] }
  let grown : Forest :=
    { forest with
      arena := forest.arena.insert new leaf
      nextCount := forest.nextCount + 1 }
  have hnew : new ∉ idsOfList ss := h.generate_not_mem type
  have hgrown : forall y, y ≠ new → grown.arena[y]? = forest.arena[y]? := by
    intro y hy
    rw [Std.ExtHashMap.getElem?_insert, if_neg (by simpa using hy.symm)]
  have hleaf : (forest.place type properties slot).arena[new]? = some leaf :=
    h.place_find_new hslot type properties
  rcases h.toLinks.insert_node hslot (forest.place type properties slot)
    (.node new type properties []) List.length
    (by cases slot <;> rfl)
    (by
      intro y hy
      have hne : y ≠ new := fun e => hnew (e ▸ hy)
      show (grown.modifySiblings slot _).arena[y]? = _
      rw [modifySiblings_find, modifySiblings_find, hgrown y hne]
      rfl)
    (Holds.cons hleaf Holds.nil Holds.nil)
    (by simp)
    (by
      intro y hy
      rw [Snapshot.ids_node, Snapshot.idsOfList_nil, List.mem_singleton] at hy
      exact hy ▸ hnew) with ⟨hlinks, hperm⟩
  have hcount : (forest.place type properties slot).nextCount =
      forest.nextCount + 1 := by
    simp [Forest.place, attach]
  apply h.of_links hlinks (by omega)
  intro y node hnode
  rw [hperm.mem_iff, List.mem_append, Snapshot.ids_node, List.mem_cons]
  by_cases hy : y = new
  · rw [hy, hleaf, Option.some_inj] at hnode
    refine ⟨Or.inl (Or.inl hy), Or.inr ⟨forest.nextCount, Nat.le_refl _, ?_, ?_⟩⟩
    · omega
    · rw [hy, ← hnode]
  · rcases exists_of_modifySiblings_find hnode with ⟨old, hold, heq⟩
    have hold' : forest.arena[y]? = some old := by
      rw [← hgrown y hy]
      exact hold
    refine ⟨Or.inr (h.complete y (mem_of_entry hold')), Or.inl ⟨old, hold', ?_⟩⟩
    rw [heq]

/-!
# Changed properties
-/

end Forest

namespace Snapshot

mutual

/-- Change the properties of the node `x`. -/
def changeProperties (x : NodeId) (change : Properties → Properties) :
    Snapshot → Snapshot
  | node id type properties below =>
      node id type (if id = x then change properties else properties)
        (changePropertiesList x change below)

def changePropertiesList (x : NodeId) (change : Properties → Properties) :
    List Snapshot → List Snapshot
  | [] => []
  | s :: rest => changeProperties x change s :: changePropertiesList x change rest

end

@[simp] theorem changePropertiesList_node_cons (x : NodeId)
    (change : Properties → Properties) (id : NodeId) (type : NodeType)
    (properties : Properties) (below rest : List Snapshot) :
    changePropertiesList x change (node id type properties below :: rest) =
      node id type (if id = x then change properties else properties)
          (changePropertiesList x change below) ::
        changePropertiesList x change rest := rfl

@[simp] theorem map_id_changePropertiesList (x : NodeId)
    (change : Properties → Properties) (ss : List Snapshot) :
    (changePropertiesList x change ss).map Snapshot.id = ss.map Snapshot.id := by
  induction ss with
  | nil => rfl
  | cons s rest ih =>
      cases s with
      | node id type properties below => simp [ih]

@[simp] theorem idsOfList_changePropertiesList (x : NodeId)
    (change : Properties → Properties) (ss : List Snapshot) :
    idsOfList (changePropertiesList x change ss) = idsOfList ss := by
  induction ss using nested_induction with
  | nil => rfl
  | cons id type properties below rest ihbelow ihrest => simp [ihbelow, ihrest]

end Snapshot

namespace Forest

variable {forest changed : Forest} {ss : List Snapshot} {s : Snapshot}
  {slot : Option NodeId} {x y a b : NodeId} {node : Node} {arena : Arena}
  {parent : Option NodeId}

theorem modifyProperties_find (forest : Forest) (x : NodeId)
    (change : Properties → Properties) (y : NodeId) :
    (forest.modifyProperties x change).arena[y]? =
      (forest.arena[y]?).map fun node =>
        { node with properties :=
            if y = x then change node.properties else node.properties } := by
  simp only [modifyProperties, Std.ExtHashMap.getElem?_modify, beq_iff_eq]
  by_cases hx : x = y
  · simp [hx]
  · have hy : ¬ y = x := fun e => hx e.symm
    simp [hx, hy]

theorem Holds.modifyProperties (h : Holds forest.arena parent ss)
    (x : NodeId) (change : Properties → Properties) :
    Holds (forest.modifyProperties x change).arena parent
      (Snapshot.changePropertiesList x change ss) := by
  induction h with
  | nil => exact Holds.nil
  | cons hfind hbelow hrest ihbelow ihrest =>
      rw [Snapshot.changePropertiesList_node_cons]
      refine Holds.cons ?_ ihbelow ihrest
      rw [modifyProperties_find, hfind]
      simp [Snapshot.toNode]

theorem Shows.modifyProperties (h : Shows forest ss) (x : NodeId)
    (change : Properties → Properties) :
    Shows (forest.modifyProperties x change)
      (Snapshot.changePropertiesList x change ss) := by
  have hlinks : Links (forest.modifyProperties x change)
      (Snapshot.changePropertiesList x change ss) := by
    constructor
    · rw [Snapshot.map_id_changePropertiesList]
      exact h.roots
    · exact h.held.modifyProperties x change
    · rw [Snapshot.idsOfList_changePropertiesList]
      exact h.nodup
  apply h.of_links hlinks (Nat.le_refl _)
  intro y node hnode
  rw [modifyProperties_find, Option.map_eq_some_iff] at hnode
  rcases hnode with ⟨old, hold, rfl⟩
  rw [Snapshot.idsOfList_changePropertiesList]
  exact ⟨h.complete y (mem_of_entry hold), Or.inl ⟨old, hold, rfl⟩⟩

/-!
# A subtree that is cut off
-/

open Snapshot (idsOfList changeSiblings insertBy strike)

/-- What is left of a forest once the node `x` with everything below it, the
nested nodes `s`, was struck from its siblings and erased. -/
structure Erased (forest : Forest) (ss : List Snapshot) (node : Node)
    (s : Snapshot) (left : Arena) : Prop where
  held : Holds forest.arena node.parent [s]
  links : Links (forest.detach s.id node.parent)
    (changeSiblings node.parent (strike s.id) ss)
  ids : (idsOfList ss).Perm
    (s.ids ++ idsOfList (changeSiblings node.parent (strike s.id) ss))
  run : Careful.erase forest.size [s.id] 0
    (forest.detach s.id node.parent).arena = some (s.ids.length, left)
  find : forall y, left[y]? =
    if y ∈ s.ids then none
    else (forest.detach s.id node.parent).arena[y]?

theorem Shows.length_le_of_perm {xs others : List NodeId}
    (h : Shows forest ss) (hperm : (idsOfList ss).Perm (xs ++ others)) :
    xs.length ≤ forest.size := by
  have hle := h.length_le
  rw [hperm.length_eq, List.length_append] at hle
  exact Nat.le_trans (Nat.le_add_right _ _) hle

theorem Shows.exists_erased (h : Shows forest ss)
    (hfind : forest.arena[x]? = some node) :
    exists s left, s.id = x ∧ Erased forest ss node s left := by
  rcases h.toLinks.exists_struck (h.complete x (mem_of_entry hfind)) hfind with
    ⟨s, rfl, hheld, _, hlinks, hperm, hdetached⟩
  have hnodup := h.nodup
  rw [hperm.nodup_iff, List.nodup_append] at hnodup
  have hlen := h.length_le_of_perm hperm
  have hids := Snapshot.idsOfList_singleton s
  rcases Careful.erase_held hdetached (hids ▸ hnodup.left)
    (forest.size - s.ids.length) 0 [] (forest.detach s.id node.parent).arena
    (fun _ _ => rfl) with ⟨left, hrun, hleft⟩
  rw [hids] at hrun hleft
  refine ⟨s, left, rfl, hheld, hlinks, hperm, ?_, hleft⟩
  have hsteps : s.ids.length + (forest.size - s.ids.length) = forest.size := by
    omega
  rw [hsteps, Nat.zero_add] at hrun
  rw [List.map_singleton, List.reverse_singleton, List.singleton_append] at hrun
  rw [hrun]
  cases forest.size - s.ids.length with
  | zero => rfl
  | succ steps => rfl

theorem Erased.cut {left : Arena} (h : Erased forest ss node s left)
    (hid : node.id = s.id) :
    forest.cut node =
      (s.ids.length,
        { forest.detach s.id node.parent with arena := left }) := by
  have herase := Careful.erase_sound h.run
  unfold Forest.cut
  simp only [hid, herase]

theorem Shows.cut {left : Arena} (h : Shows forest ss)
    (herased : Erased forest ss node s left) (hid : node.id = s.id) :
    Shows (forest.cut node).2
      (changeSiblings node.parent (strike s.id) ss) := by
  rw [herased.cut hid]
  have hnodup := h.nodup
  rw [herased.ids.nodup_iff, List.nodup_append] at hnodup
  have hkept : forall y, y ∈
      idsOfList (changeSiblings node.parent (strike s.id) ss) →
        left[y]? = (forest.detach s.id node.parent).arena[y]? := by
    intro y hy
    rw [herased.find, if_neg]
    intro hmem
    exact hnodup.right.right y hmem y hy rfl
  have hlinks : Links { forest.detach s.id node.parent with arena := left }
      (changeSiblings node.parent (strike s.id) ss) :=
    ⟨herased.links.roots, herased.links.held.frame hkept, herased.links.nodup⟩
  apply h.of_links hlinks
  · exact Nat.le_of_eq (modifySiblings_nextCount forest node.parent _).symm
  · intro y entry hentry
    have hentry' : left[y]? = some entry := hentry
    rw [herased.find] at hentry'
    by_cases hy : y ∈ s.ids
    · rw [if_pos hy] at hentry'
      cases hentry'
    · rw [if_neg hy] at hentry'
      rcases exists_of_modifySiblings_find hentry' with ⟨old, hold, heq⟩
      have hmem := h.complete y (mem_of_entry hold)
      rw [herased.ids.mem_iff, List.mem_append] at hmem
      refine ⟨hmem.resolve_left hy, Or.inl ⟨old, hold, ?_⟩⟩
      rw [heq]

/-!
# A subtree that is moved
-/

theorem meetsAbove_next (hparent : (arena[b]?).bind Node.parent = some a) :
    forall {steps : Nat} {x : NodeId}, meetsAbove arena b steps x = true →
      meetsAbove arena a (steps + 1) x = true := by
  intro steps
  induction steps with
  | zero =>
      intro x hx
      have heq : x = b := by simpa [meetsAbove] using hx
      cases heq
      simp [meetsAbove, hparent]
  | succ steps ih =>
      intro x hx
      unfold meetsAbove at hx ⊢
      rw [Bool.or_eq_true] at hx ⊢
      rcases hx with hx | hx
      · have heq : x = b := by simpa using hx
        cases heq
        right
        rw [hparent]
        simp [meetsAbove]
      · cases hup : (arena[x]?).bind Node.parent with
        | none => simp [hup] at hx
        | some q =>
            rw [hup] at hx
            exact Or.inr (ih hx)

theorem meetsAbove_mono {steps more : Nat} (hle : steps ≤ more)
    (hx : meetsAbove arena a steps x = true) :
    meetsAbove arena a more x = true := by
  induction more generalizing steps x with
  | zero =>
      have hzero : steps = 0 := by omega
      rw [hzero] at hx
      exact hx
  | succ more ih =>
      unfold meetsAbove
      cases steps with
      | zero =>
          rw [Bool.or_eq_true]
          exact Or.inl hx
      | succ steps =>
          unfold meetsAbove at hx
          rw [Bool.or_eq_true] at hx ⊢
          refine hx.imp_right fun hup => ?_
          cases hparent : (arena[x]?).bind Node.parent with
          | none => simp [hparent] at hup
          | some q =>
              rw [hparent] at hup
              exact ih (by omega) hup

/-- The walk up from a nested node leads out of the nested nodes. -/
theorem Holds.meetsAbove (h : Holds arena parent ss) (ha : parent = some a)
    (hx : x ∈ idsOfList ss) :
    meetsAbove arena a (idsOfList ss).length x = true := by
  induction h generalizing a with
  | nil => simp at hx
  | @cons parent id type properties below rest hfind hbelow hrest ihbelow ihrest =>
      have hparent : (arena[id]?).bind Node.parent = some a := by
        rw [hfind]
        exact ha
      rw [Snapshot.idsOfList_node_cons, List.mem_cons, List.mem_append] at hx
      rw [Snapshot.idsOfList_node_cons, List.length_cons, List.length_append]
      rcases hx with rfl | hx | hx
      · apply meetsAbove_next hparent
        apply meetsAbove_mono (Nat.zero_le _)
        simp [Forest.meetsAbove]
      · apply meetsAbove_next hparent
        exact meetsAbove_mono (by omega) (ihbelow rfl hx)
      · exact meetsAbove_mono (by omega) (ihrest ha hx)

theorem isSelfOrAncestor_of_mem (hheld : Holds forest.arena parent [s])
    (hlen : s.ids.length ≤ forest.size) (hx : x ∈ s.ids) :
    forest.isSelfOrAncestor s.id x = true := by
  have hmeets : meetsAbove forest.arena s.id s.ids.length x = true := by
    cases s with
    | node id type properties below =>
        cases hheld with
        | cons hfind hbelow _ =>
            rcases List.mem_cons.mp hx with rfl | hx
            · apply meetsAbove_mono (Nat.zero_le _)
              simp [Forest.meetsAbove]
            · apply meetsAbove_mono (Nat.le_succ _)
              exact hbelow.meetsAbove rfl hx
  exact meetsAbove_mono hlen hmeets

theorem relocate_roots (forest : Forest) (node : Node) (slot : Option NodeId)
    (index : Option Nat) :
    (forest.relocate node slot index).roots =
      ((forest.detach node.id node.parent).attach node.id slot index).roots := rfl

theorem relocate_find (forest : Forest) (node : Node) (slot : Option NodeId)
    (index : Option Nat) (y : NodeId) :
    (forest.relocate node slot index).arena[y]? =
      (((forest.detach node.id node.parent).attach node.id slot index).arena[y]?).map
        fun entry =>
          { entry with parent := if y = node.id then slot else entry.parent } := by
  simp only [relocate, Std.ExtHashMap.getElem?_modify, beq_iff_eq]
  by_cases hy : node.id = y
  · simp [hy]
  · have hy' : ¬ y = node.id := fun e => hy e.symm
    simp [hy, hy']

/-- The nested nodes `s` of the entry `node`, struck from their siblings, and a
place for them under `slot`, which is none of them. -/
structure Movable (forest : Forest) (ss : List Snapshot) (node : Node)
    (s : Snapshot) (slot : Option NodeId) : Prop
    extends Struck forest ss node s where
  id : s.id = node.id
  nodup : s.ids.Nodup
  outside : forall p, slot = some p → p ∉ s.ids
  slotOf : SlotOf (changeSiblings node.parent (strike s.id) ss) slot

theorem Shows.exists_movable (h : Shows forest ss)
    (hfind : forest.arena[node.id]? = some node) (hslot : SlotOf ss slot)
    (hclear : forall p, slot = some p →
      forest.isSelfOrAncestor node.id p = false) :
    exists s, Movable forest ss node s slot := by
  rcases h.toLinks.exists_struck (h.complete _ (mem_of_entry hfind)) hfind with
    ⟨s, hid, hstruck⟩
  have hnodup := h.nodup
  rw [hstruck.perm.nodup_iff, List.nodup_append] at hnodup
  have hout : forall p, slot = some p → p ∉ s.ids := by
    intro p hp hmem
    have habove := isSelfOrAncestor_of_mem hstruck.held
      (h.length_le_of_perm hstruck.perm) hmem
    rw [hid, hclear p hp] at habove
    cases habove
  refine ⟨s, hstruck, hid, hnodup.left, hout, ?_⟩
  intro p hp
  have hmem := hslot p hp
  rw [hstruck.perm.mem_iff, List.mem_append] at hmem
  exact hmem.resolve_left (hout p hp)

namespace Movable

theorem relocate_find_of_ne (h : Movable forest ss node s slot)
    (index : Option Nat) (hy : y ≠ s.id) :
    (forest.relocate node slot index).arena[y]? =
      ((forest.detach s.id node.parent).attach s.id slot index).arena[y]? := by
  rw [relocate_find, ← h.id]
  simp [hy]

theorem held_relocate (h : Movable forest ss node s slot) (index : Option Nat) :
    Holds (forest.relocate node slot index).arena slot [s] := by
  have hbeside : forall y, y ∈ s.ids →
      ((forest.detach s.id node.parent).attach s.id slot index).arena[y]? =
        (forest.detach s.id node.parent).arena[y]? := by
    intro y hy
    rw [attach, modifySiblings_find_of_ne fun e => h.outside y e hy]
  have hs := h.nodup
  have hdetached := h.kept
  have hid := h.id
  cases s with
  | node id type properties below =>
      rw [Snapshot.ids_node, List.nodup_cons] at hs
      cases hdetached with
      | cons hentry hbelow _ =>
          refine Holds.cons ?_ ?_ Holds.nil
          · rw [relocate_find, ← hid, hbeside id List.mem_cons_self, hentry]
            simp [Snapshot.toNode]
          · apply hbelow.frame
            intro y hy
            have hne : y ≠ id := fun e => hs.left (e ▸ hy)
            rw [h.relocate_find_of_ne index hne,
              hbeside y (List.mem_cons_of_mem _ hy)]

theorem shows_relocate (h : Movable forest ss node s slot)
    (hshows : Shows forest ss) (index : Option Nat) :
    Shows (forest.relocate node slot index)
      (changeSiblings slot
        (insertBy (fun siblings => index.getD siblings.length) s)
        (changeSiblings node.parent (strike s.id) ss)) := by
  have hnew : forall y, y ∈ s.ids →
      y ∉ idsOfList (changeSiblings node.parent (strike s.id) ss) :=
    fun y hy => h.not_mem hshows.toLinks hy
  rcases h.links.insert_node h.slotOf (forest.relocate node slot index) s
    (fun siblings => index.getD siblings.length)
    (by rw [relocate_roots, ← h.id]; rfl)
    (by
      intro y hy
      have hne : y ≠ s.id := by
        rintro rfl
        exact hnew _ (Snapshot.id_mem_ids s) hy
      exact h.relocate_find_of_ne index hne)
    (h.held_relocate index) h.nodup hnew with ⟨hfinal, hperm⟩
  apply hshows.of_links hfinal
  · simp [Forest.relocate, attach, detach]
  · intro y entry hentry
    rw [relocate_find, Option.map_eq_some_iff] at hentry
    rcases hentry with ⟨middle, hmiddle, rfl⟩
    rcases exists_of_modifySiblings_find hmiddle with ⟨first, hfirst, hmeq⟩
    rcases exists_of_modifySiblings_find hfirst with ⟨old, hold, hfeq⟩
    refine ⟨?_, Or.inl ⟨old, hold, ?_⟩⟩
    · rw [hperm.mem_iff, ← h.perm.mem_iff]
      exact hshows.complete y (mem_of_entry hold)
    · rw [hmeq, hfeq]

end Movable

/-!
# A copy
-/

/-- The place right after an entry of a list of siblings. -/
def indexAfter (entry : NodeId) (siblings : List NodeId) : Nat :=
  siblings.idxOf entry + 1

/-- A finished copy of the nested nodes `s`. -/
structure Grown (forest : Forest) (node : Node) (s : Snapshot)
    (after : Arena) : Prop where
  held : Holds forest.arena node.parent [s]
  nodup : s.ids.Nodup
  apart : forall p, node.parent = some p → p ∉ s.ids
  run : Careful.copy forest.size [(s.id, node.parent)]
      ⟨forest.arena, forest.nextCount, none⟩ =
    some ⟨after, forest.nextCount + s.ids.length,
      some (s.renumber forest.nextCount).id⟩
  copies : Holds after node.parent [s.renumber forest.nextCount]
  frame : forall y, y ∉ (s.renumber forest.nextCount).ids →
    after[y]? = forest.arena[y]?

theorem Shows.exists_grown (h : Shows forest ss)
    (hfind : forest.arena[x]? = some node) :
    exists s after, s.id = x ∧ Grown forest node s after := by
  rcases h.toLinks.exists_struck (h.complete x (mem_of_entry hfind)) hfind with
    ⟨s, hid, hheld, hapart, _, hperm, _⟩
  have hlen := h.length_le_of_perm hperm
  have hnodup := h.nodup
  rw [hperm.nodup_iff, List.nodup_append] at hnodup
  cases s with
  | node id type properties below =>
      rw [Snapshot.ids_node, List.length_cons] at hlen
      rcases Careful.copy_top hheld h.fresh
        (forest.size - ((idsOfList below).length + 1)) with
        ⟨after, hrun, hcopies, hframe⟩
      have hsteps : (idsOfList below).length + 1 +
          (forest.size - ((idsOfList below).length + 1)) = forest.size := by
        omega
      have hcount : forest.nextCount + 1 + (idsOfList below).length =
          forest.nextCount + ((idsOfList below).length + 1) := by
        omega
      rw [hsteps, hcount] at hrun
      exact ⟨_, after, hid, hheld, hnodup.left, hapart, hrun, hcopies, hframe⟩

theorem Grown.copySubtree {after : Arena} (h : Grown forest node s after)
    (hid : node.id = s.id) :
    forest.copySubtree node =
      ⟨after, forest.nextCount + s.ids.length,
        some (s.renumber forest.nextCount).id⟩ := by
  unfold Forest.copySubtree
  rw [hid, Careful.copy_sound h.run]

theorem exists_generate_of_mem_renumber {count : Nat}
    (hx : x ∈ (s.renumber count).ids) :
    exists type c, count ≤ c ∧ c < count + s.ids.length ∧
      x = NodeId.generate type c := by
  have hlist : x ∈ idsOfList (Snapshot.renumberList count [s]) := by
    rw [← Snapshot.idsOfList_singleton] at hx
    exact hx
  rw [← Snapshot.idsOfList_singleton s]
  exact Snapshot.exists_generate_of_mem_renumberList hlist

/-- The forest with a finished copy of `s` listed after its source. -/
abbrev withCopy (forest : Forest) (node : Node) (s : Snapshot)
    (after : Arena) : Forest :=
  forest.graft node
    ⟨after, forest.nextCount + s.ids.length,
      some (s.renumber forest.nextCount).id⟩
    (s.renumber forest.nextCount).id

theorem Shows.not_mem_of_mem_renumber (h : Shows forest ss)
    (hx : x ∈ (s.renumber forest.nextCount).ids) : x ∉ idsOfList ss := by
  intro hmem
  rcases exists_generate_of_mem_renumber hx with ⟨type, c, hle, _, heq⟩
  exact h.fresh.ne (h.mem_iff.mpr hmem) type hle heq

theorem Grown.find_of_mem {after : Arena} (hgrown : Grown forest node s after)
    (h : Shows forest ss) (hx : x ∈ forest.arena) : after[x]? = forest.arena[x]? := by
  apply hgrown.frame
  intro hcopy
  exact h.not_mem_of_mem_renumber hcopy (h.complete x hx)

theorem Grown.held_withCopy {after : Arena} (h : Shows forest ss)
    (hgrown : Grown forest node s after) (hslot : SlotOf ss node.parent) :
    Holds (forest.withCopy node s after).arena node.parent [s] ∧
      Holds (forest.withCopy node s after).arena node.parent
        [s.renumber forest.nextCount] := by
  constructor
  · apply hgrown.held.frame
    intro y hy
    rw [← hgrown.find_of_mem h (hgrown.held.mem hy)]
    rw [Snapshot.idsOfList_singleton] at hy
    exact modifySiblings_find_of_ne fun e => hgrown.apart y e hy
  · apply hgrown.copies.frame
    intro y hy
    rw [Snapshot.idsOfList_singleton] at hy
    exact modifySiblings_find_of_ne fun e =>
      h.not_mem_of_mem_renumber hy (hslot y e)

theorem Shows.graft {after : Arena} (h : Shows forest ss)
    (hfind : forest.arena[node.id]? = some node)
    (hgrown : Grown forest node s after) :
    Shows (forest.withCopy node s after)
      (changeSiblings node.parent
        (insertBy (indexAfter node.id) (s.renumber forest.nextCount)) ss) := by
  let copy := s.renumber forest.nextCount
  let grown : Forest :=
    { forest with arena := after, nextCount := forest.nextCount + s.ids.length }
  rcases h.toLinks.mem_siblings (h.complete _ (mem_of_entry hfind)) hfind with
    ⟨hslot, _⟩
  have hnew : forall y, y ∈ copy.ids → y ∉ idsOfList ss :=
    fun y hy => h.not_mem_of_mem_renumber hy
  have hold : forall y, y ∈ idsOfList ss → after[y]? = forest.arena[y]? :=
    fun y hy => hgrown.find_of_mem h (h.mem_iff.mpr hy)
  have hcopies := (hgrown.held_withCopy h hslot).right
  rcases h.toLinks.insert_node hslot
    (grown.modifySiblings node.parent (insertAfter node.id copy.id)) copy
    (indexAfter node.id)
    (by cases node.parent <;> rfl)
    (by
      intro y hy
      rw [modifySiblings_find, modifySiblings_find]
      show _ = if _ then (forest.arena[y]?).map _ else forest.arena[y]?
      rw [← hold y hy]
      rfl)
    hcopies (Snapshot.nodup_renumber s _) hnew with ⟨hlinks, hperm⟩
  apply h.of_links hlinks
  · show forest.nextCount ≤ (grown.modifySiblings _ _).nextCount
    rw [modifySiblings_nextCount]
    exact Nat.le_add_right _ _
  · intro y entry hentry
    rcases exists_of_modifySiblings_find hentry with ⟨old, hfound, heq⟩
    rw [hperm.mem_iff, List.mem_append]
    by_cases hy : y ∈ copy.ids
    · refine ⟨Or.inl hy, Or.inr ?_⟩
      rw [heq]
      rw [← Snapshot.idsOfList_singleton] at hy
      have hcopied : Holds after node.parent
          (Snapshot.renumberList forest.nextCount [s]) := hgrown.copies
      rcases exists_count_of_renumbered hcopied hy hfound with
        ⟨count, hle, hlt, hgenerated⟩
      rw [Snapshot.idsOfList_singleton] at hlt
      refine ⟨count, hle, ?_, hgenerated⟩
      exact Nat.lt_of_lt_of_eq hlt (modifySiblings_nextCount grown _ _).symm
    · have hfound' : forest.arena[y]? = some old := by
        rw [← hgrown.frame y hy]
        exact hfound
      refine ⟨Or.inr (h.complete y (mem_of_entry hfound')),
        Or.inl ⟨old, hfound', ?_⟩⟩
      rw [heq]

end Forest

end MarkupForest
