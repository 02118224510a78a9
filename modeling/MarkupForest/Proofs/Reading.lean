import MarkupForest.Proofs.Editing

/-!
# What is read off a forest

Traversals, counts and snapshots of a forest that shows nested nodes are those
of the nested nodes.  Each is proved for the careful loop first, so the plain
loop is known to find every node on its way and to end by itself.
-/

namespace MarkupForest

namespace Forest

open Snapshot (idsOfList idsOfList_node_cons nodesOfListAt)

namespace Careful

/-- Every node with its depth, in document order. -/
def rows (forest : Forest) : Option (List Row) :=
  visit forest.arena forest.size (forest.roots.map (0, ·))

/-- How many nodes lie below a node. -/
def descendantCount? (forest : Forest) (id : NodeId) : Option Nat :=
  (forest.find? id).bind fun node =>
    tally forest.arena forest.size node.children.reverse 0

/-- The snapshot of a node and everything below it. -/
def snapshotOf? (forest : Forest) (id : NodeId) : Option Snapshot :=
  (forest.find? id).bind fun node =>
    unwind forest.arena (2 * forest.size) [.start node]

/-- The snapshots of the roots. -/
def snapshot (forest : Forest) : Option (List Snapshot) :=
  forest.roots.mapM (snapshotOf? forest)

/-- The nodes below a node, in order; none for a missing node. -/
def children (forest : Forest) (id : NodeId) : Option (List Node) :=
  match forest.find? id with
  | some node => node.children.mapM forest.find?
  | none => some []

end Careful

variable {forest : Forest} {arena : Arena} {ss : List Snapshot} {s : Snapshot}
  {slot parent : Option NodeId} {node : Node} {x : NodeId} {beta : Type}

/-!
# One subtree
-/

theorem Holds.exists_nested (h : Holds arena parent ss)
    (hx : x ∈ idsOfList ss) :
    exists slot s, s.id = x ∧ Holds arena slot [s] ∧
      s.ids.Sublist (idsOfList ss) := by
  induction h with
  | nil => simp at hx
  | @cons parent id type properties below rest hfind hbelow hrest ihbelow ihrest =>
      rw [idsOfList_node_cons, List.mem_cons, List.mem_append] at hx
      rw [idsOfList_node_cons]
      rcases hx with rfl | hx | hx
      · refine ⟨parent, .node x type properties below, rfl,
          Holds.cons hfind hbelow Holds.nil, ?_⟩
        exact (List.sublist_append_left _ _).cons_cons x
      · rcases ihbelow hx with ⟨slot, s, hid, hheld, hsub⟩
        refine ⟨slot, s, hid, hheld, ?_⟩
        exact (hsub.trans (List.sublist_append_left _ _)).cons id
      · rcases ihrest hx with ⟨slot, s, hid, hheld, hsub⟩
        refine ⟨slot, s, hid, hheld, ?_⟩
        exact (hsub.trans (List.sublist_append_right _ _)).cons id

/-- A node of the forest with everything below it. -/
structure Subtree (forest : Forest) (slot : Option NodeId) (s : Snapshot) :
    Prop where
  held : Holds forest.arena slot [s]
  length_le : s.ids.length ≤ forest.size

theorem Shows.exists_subtree (h : Shows forest ss) (hx : x ∈ forest.arena) :
    exists slot s, s.id = x ∧ Subtree forest slot s := by
  rcases h.held.exists_nested (h.complete x hx) with
    ⟨slot, s, hid, hheld, hsub⟩
  exact ⟨slot, s, hid, hheld, Nat.le_trans hsub.length_le h.length_le⟩

theorem Shows.subtree_of_root (h : Shows forest ss) (hs : s ∈ ss) :
    Subtree forest none s := by
  refine ⟨holds_iff_forall.mp h.held s hs, ?_⟩
  exact Nat.le_trans (Snapshot.ids_sublist_of_mem hs).length_le h.length_le

namespace Subtree

theorem find (h : Subtree forest slot s) :
    forest.find? s.id = some (s.toNode slot) :=
  h.held.find (List.mem_singleton.mpr rfl)

theorem careful_snapshotOf? (h : Subtree forest slot s) :
    Careful.snapshotOf? forest s.id = some s := by
  unfold Careful.snapshotOf?
  rw [h.find, Option.bind_some]
  rcases h with ⟨hheld, hlen⟩
  cases hheld with
  | @cons _ id type properties below _ hfind hbelow _ =>
      rw [Snapshot.ids_node, List.length_cons] at hlen
      have hsteps : 2 * forest.size = 2 * (idsOfList below).length +
          (2 * forest.size - 2 * (idsOfList below).length - 1 + 1) := by
        omega
      have hstart : Frame.start
          ((Snapshot.node id type properties below).toNode slot) =
            ⟨(Snapshot.node id type properties below).toNode slot,
              below.map Snapshot.id ++ [], []⟩ := by
        simp [Frame.start]
      rw [hsteps, hstart, Careful.unwind_held hbelow]
      simp [Careful.unwind, Frame.snapshot, Snapshot.toNode]

theorem snapshotOf? (h : Subtree forest slot s) :
    forest.snapshotOf? s.id = some s := by
  have hcareful := h.careful_snapshotOf?
  unfold Careful.snapshotOf? at hcareful
  unfold Forest.snapshotOf?
  rw [h.find, Option.bind_some] at hcareful ⊢
  exact Careful.unwind_sound hcareful

theorem careful_descendantCount? (h : Subtree forest slot s) :
    Careful.descendantCount? forest s.id =
      some (idsOfList s.children).length := by
  unfold Careful.descendantCount?
  rw [h.find, Option.bind_some]
  rcases h with ⟨hheld, hlen⟩
  cases hheld with
  | @cons _ id type properties below _ hfind hbelow _ =>
      rw [Snapshot.ids_node, List.length_cons] at hlen
      have hsteps : forest.size = (idsOfList below).length +
          (forest.size - (idsOfList below).length) := by
        omega
      have htally := Careful.tally_held hbelow
        (forest.size - (idsOfList below).length) 0 []
      rw [← hsteps, List.append_nil, Nat.zero_add] at htally
      rw [Snapshot.toNode_children, htally]
      cases forest.size - (idsOfList below).length with
      | zero => rfl
      | succ steps => rfl

theorem descendantCount? (h : Subtree forest slot s) :
    forest.descendantCount? s.id = some (idsOfList s.children).length := by
  have hcareful := h.careful_descendantCount?
  unfold Careful.descendantCount? at hcareful
  unfold Forest.descendantCount?
  rw [h.find, Option.bind_some] at hcareful
  rw [h.find, Option.map_some, Careful.tally_sound hcareful]

theorem mem_of_meetsAbove (h : Subtree forest slot s)
    (hshows : Shows forest ss) {steps : Nat}
    (hmeets : meetsAbove forest.arena s.id steps x = true) : x ∈ s.ids := by
  induction steps generalizing x with
  | zero =>
      have heq : x = s.id := by simpa [meetsAbove] using hmeets
      exact heq ▸ Snapshot.id_mem_ids s
  | succ steps ih =>
      unfold meetsAbove at hmeets
      rw [Bool.or_eq_true, beq_iff_eq] at hmeets
      rcases hmeets with rfl | hup
      · exact Snapshot.id_mem_ids s
      · cases hfind : forest.arena[x]? with
        | none => simp [hfind] at hup
        | some node =>
            cases hparent : node.parent with
            | none => simp [hfind, hparent] at hup
            | some p =>
                simp only [hfind, Option.bind_some, hparent] at hup
                have hp := ih hup
                rw [← Snapshot.idsOfList_singleton] at hp ⊢
                rcases h.held.children_held hp with
                  ⟨above, level, habove, hlist, _, hsub⟩
                have hlisted := (hshows.toLinks.mem_siblings
                  (hshows.complete x (mem_of_entry hfind)) hfind).right
                rw [hparent, siblings, find?, habove, Option.map_some,
                  Option.getD_some, hlist] at hlisted
                exact hsub x
                  ((Snapshot.map_id_sublist_idsOfList level).subset hlisted)

/-- The walk up from a node meets exactly the nodes that it is below. -/
theorem isSelfOrAncestor_iff (h : Subtree forest slot s)
    (hshows : Shows forest ss) :
    forest.isSelfOrAncestor s.id x = true ↔ x ∈ s.ids :=
  ⟨h.mem_of_meetsAbove hshows, isSelfOrAncestor_of_mem h.held h.length_le⟩

end Subtree

theorem Shows.subtree_of_snapshotOf? (h : Shows forest ss)
    (hs : forest.snapshotOf? x = some s) :
    s.id = x ∧ exists slot, Subtree forest slot s := by
  rcases Option.bind_eq_some_iff.mp hs with ⟨node, hfind, _⟩
  rcases h.exists_subtree (mem_of_entry hfind) with ⟨slot, t, rfl, ht⟩
  rw [ht.snapshotOf?] at hs
  cases hs
  exact ⟨rfl, slot, ht⟩

/-!
# The whole forest
-/

theorem filterMap_found {look : NodeId → Option beta} {found : Snapshot → beta}
    (h : forall s, s ∈ ss → look s.id = some (found s)) :
    (ss.map Snapshot.id).filterMap look = ss.map found := by
  rw [List.filterMap_map]
  calc
    ss.filterMap (look ∘ Snapshot.id) = ss.filterMap fun s => some (found s) :=
      List.filterMap_congr h
    _ = ss.map found := by rw [List.filterMap_eq_map']

namespace Shows

theorem careful_rows (h : Shows forest ss) :
    Careful.rows forest = some (nodesOfListAt 0 none ss) := by
  have hsteps : forest.size = (idsOfList ss).length +
      (forest.size - (idsOfList ss).length) := by
    have hlen := h.length_le
    omega
  have hvisit := Careful.visit_held h.held
    (forest.size - (idsOfList ss).length) 0 []
  have hroots : forest.roots.map (0, ·) =
      ss.map (fun s => (0, s.id)) ++ [] := by
    simp [h.roots]
  rw [← hsteps, ← hroots] at hvisit
  unfold Careful.rows
  rw [hvisit]
  cases forest.size - (idsOfList ss).length with
  | zero => simp [Careful.visit]
  | succ steps => simp [Careful.visit]

theorem rows (h : Shows forest ss) :
    forest.rows = nodesOfListAt 0 none ss :=
  Careful.visit_sound h.careful_rows

theorem careful_snapshot (h : Shows forest ss) :
    Careful.snapshot forest = some ss := by
  unfold Careful.snapshot
  rw [h.roots, mapM_found, List.map_id']
  intro s hs
  exact (h.subtree_of_root hs).careful_snapshotOf?

theorem snapshot (h : Shows forest ss) : forest.snapshot = ss := by
  unfold Forest.snapshot
  rw [h.roots, filterMap_found, List.map_id']
  intro s hs
  exact (h.subtree_of_root hs).snapshotOf?

end Shows

theorem Subtree.careful_children (h : Subtree forest slot s) :
    Careful.children forest s.id =
      some (s.children.map (Snapshot.toNode (some s.id))) := by
  unfold Careful.children
  rw [h.find]
  rcases h with ⟨hheld, _⟩
  cases hheld with
  | @cons _ id type properties below _ hfind hbelow _ =>
      show (below.map Snapshot.id).mapM forest.find? =
        some (below.map (Snapshot.toNode (some id)))
      exact mapM_found fun t ht => hbelow.find ht

theorem Subtree.children (h : Subtree forest slot s) :
    forest.children s.id = s.children.map (Snapshot.toNode (some s.id)) := by
  unfold Forest.children
  rw [h.find]
  rcases h with ⟨hheld, _⟩
  cases hheld with
  | @cons _ id type properties below _ hfind hbelow _ =>
      show (below.map Snapshot.id).filterMap forest.find? =
        below.map (Snapshot.toNode (some id))
      exact filterMap_found fun t ht => hbelow.find ht

/-!
# A duplicate
-/

theorem Holds.subtree (h : Holds forest.arena slot [s]) (hnodup : s.ids.Nodup) :
    Subtree forest slot s := by
  rw [← Snapshot.idsOfList_singleton] at hnodup
  have hlen := h.length_le_size hnodup
  rw [Snapshot.idsOfList_singleton] at hlen
  exact ⟨h, hlen⟩

theorem Shows.exists_duplicate (h : Shows forest ss)
    (hfind : forest.arena[x]? = some node) :
    exists s after, s.id = x ∧ Grown forest node s after ∧
      forest.duplicate x =
        .ok ((s.renumber forest.nextCount).id, forest.withCopy node s after) := by
  rcases h.exists_grown hfind with ⟨s, after, hid, hgrown⟩
  refine ⟨s, after, hid, hgrown, ?_⟩
  unfold Forest.duplicate Forest.find?
  simp only [hfind, hgrown.copySubtree ((h.keyed hfind).trans hid.symm)]

theorem Shows.duplicated (h : Shows forest ss) {copy : NodeId}
    {changed : Forest} (hduplicate : forest.duplicate x = .ok (copy, changed)) :
    exists slot s, s.id = x ∧ (s.renumber forest.nextCount).id = copy ∧
      Subtree forest slot s ∧ Subtree changed slot s ∧
      Subtree changed slot (s.renumber forest.nextCount) := by
  cases hfind : forest.find? x with
  | none =>
      unfold Forest.duplicate at hduplicate
      rw [hfind] at hduplicate
      cases hduplicate
  | some source =>
      rcases h.exists_duplicate hfind with ⟨s, after, hid, hgrown, hanswer⟩
      rcases h.toLinks.mem_siblings (h.complete x (mem_of_entry hfind)) hfind with
        ⟨hslot, _⟩
      rcases hgrown.held_withCopy h hslot with ⟨hsource, hcopy⟩
      rw [hanswer] at hduplicate
      cases hduplicate
      exact ⟨source.parent, s, hid, rfl, hgrown.held.subtree hgrown.nodup,
        hsource.subtree hgrown.nodup,
        hcopy.subtree (Snapshot.nodup_renumber s _)⟩

end Forest

end MarkupForest
