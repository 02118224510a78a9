import MarkupForest.Proofs.Ancestors
import MarkupForest.Registry.Standard

/-!
# Down the lists of children

What lies below a node is said by lists of children, but whether a node may be
moved is decided on the way up the parent links.  The links agree, so the way up
from a node comes to exactly those nodes from which lists of children lead down
to it, and these are the nodes that have it in their snapshots.
-/

namespace MarkupForest

theorem Snapshot.map_id_rows (s : Snapshot) : s.rows.map Row.id = s.ids := by
  have hlist := map_id_rowsOfListAt 0 [s]
  rw [idsOfList_singleton] at hlist
  rw [← hlist]
  exact congrArg (List.map Row.id) (List.append_nil _).symm

namespace Forest

/-- Lists of children lead from the node `above` down to a node, in any number of
steps. -/
inductive Descends (forest : Forest) (above : NodeId) : NodeId → Prop where
  | refl : Descends forest above above
  | child {p id : NodeId} {node : Node} :
      Descends forest above p →
      forest.find? p = some node →
      id ∈ node.children →
      Descends forest above id

variable {forest : Forest} {ss : List Snapshot} {a x : NodeId}

/-!
# The way down and the way up
-/

theorem Descends.encloses (h : Descends forest a x) (hshows : Shows forest ss) :
    forest.Encloses a x := by
  induction h with
  | refl => exact Encloses.refl forest a
  | @child p id node _ hfind hchild ih =>
      have hlisted : id ∈ forest.siblings (some p) := by
        rw [siblings_of_find hfind]
        exact hchild
      rcases hshows.parent_of_listed hlisted with ⟨entry, hentry, hparent⟩
      have hup : (forest.find? id).bind Node.parent = some p := by
        rw [hentry, Option.bind_some, hparent]
      exact ih.trans (hshows.encloses_of_parent hup)

theorem Encloses.descends (h : forest.Encloses a x) (hshows : Shows forest ss) :
    Descends forest a x := by
  rcases h with ⟨steps, hup⟩
  induction steps generalizing x with
  | zero =>
      cases hup
      exact Descends.refl
  | succ steps ih =>
      cases hparent : (forest.find? x).bind Node.parent with
      | none =>
          rw [ancestor?_of_no_parent hparent] at hup
          cases hup
      | some p =>
          rw [hshows.ancestor?_of_parent hparent] at hup
          rcases Option.bind_eq_some_iff.mp hparent with ⟨node, hfind, hnode⟩
          rcases (hshows.wellFormed.parent_iff x node hfind p).mp hnode with
            ⟨above, habove, hchild⟩
          exact Descends.child (ih hup) habove hchild

theorem Shows.encloses_iff_descends (h : Shows forest ss) :
    forest.Encloses a x ↔ Descends forest a x :=
  ⟨fun henc => henc.descends h, fun hdown => hdown.encloses h⟩

/-!
# The test for a move
-/

/-- The walk up meets a node exactly if the way up comes to it.  The bound on its
steps is no restriction: with more of them it answers the same. -/
theorem Shows.meetsAbove_iff_encloses (h : Shows forest ss) (ha : a ∈ forest.arena)
    {steps : Nat} (hsteps : forest.size ≤ steps) :
    meetsAbove forest.arena a steps x = true ↔ forest.Encloses a x := by
  constructor
  · intro hmeets
    rcases h.meetsAbove_iff.mp hmeets with ⟨count, _, hup⟩
    exact ⟨count, hup⟩
  · intro henc
    rcases h.exists_subtree ha with ⟨slot, s, rfl, hs⟩
    have habove := (hs.isSelfOrAncestor_iff h).mpr ((hs.encloses_iff h).mp henc)
    rcases h.meetsAbove_iff.mp habove with ⟨count, hle, hup⟩
    exact h.meetsAbove_iff.mpr ⟨count, Nat.le_trans hle hsteps, hup⟩

/-- After every run of edits, the walk up the parent links from a node meets a
given one exactly if the node is in the snapshot of the given one, that is, if it
is the given one or lists of children lead down to it. -/
theorem ofEdits_ancestors_decided (registry : Registry) (options : Options)
    (requests : List Edit) (a : NodeId)
    (ha : (ofEdits registry options requests).contains a = true) :
    let forest := ofEdits registry options requests
    exists s, forest.snapshotOf? a = some s ∧ s.id = a ∧ forall x,
      (forest.isSelfOrAncestor a x = true ↔ x ∈ s.rows.map Snapshot.Row.id) ∧
      (forest.isSelfOrAncestor a x = true ↔ Descends forest a x) ∧
      (forest.isSelfOrAncestor a x = true ↔ forest.Encloses a x) ∧
      forall steps, forest.size ≤ steps →
        meetsAbove forest.arena a steps x = forest.isSelfOrAncestor a x := by
  intro forest
  rcases exists_shows_ofEdits registry options requests with ⟨ss, h⟩
  rcases h.exists_subtree (contains_iff.mp ha) with ⟨slot, s, rfl, hs⟩
  refine ⟨s, hs.snapshotOf?, rfl, ?_⟩
  intro x
  have hmeets : forall steps, forest.size ≤ steps →
      (meetsAbove forest.arena s.id steps x = true ↔ forest.Encloses s.id x) :=
    fun steps hsteps => h.meetsAbove_iff_encloses (contains_iff.mp ha) hsteps
  have htest : forest.isSelfOrAncestor s.id x = true ↔ forest.Encloses s.id x :=
    hmeets forest.size (Nat.le_refl _)
  refine ⟨?_, htest.trans h.encloses_iff_descends, htest, ?_⟩
  · rw [Snapshot.map_id_rows]
    exact hs.isSelfOrAncestor_iff h
  · intro steps hsteps
    rw [Bool.eq_iff_iff, htest]
    exact hmeets steps hsteps

theorem ancestors_decided_of_card :
    let card := NodeId.generate .card 1
    let button := NodeId.generate .button 2
    let forest := ofEdits .standard ⟨false⟩
      [.insert .card none, .insert .button (some card)]
    forest.contains card = true ∧ forest.contains button = true ∧
      (exists s, forest.snapshotOf? card = some s ∧
        button ∈ s.rows.map Snapshot.Row.id) ∧
      forest.isSelfOrAncestor card button = true ∧
      Descends forest card button ∧
      forest.isSelfOrAncestor button card = false ∧
      ¬ Descends forest button card := by
  intro card button forest
  have h : Shows forest _ := shows_nested rfl rfl
  have hcard : forest.contains card = true :=
    contains_iff.mpr (h.mem_iff.mpr (by simp [card]))
  have hbutton : forest.contains button = true :=
    contains_iff.mpr (h.mem_iff.mpr (by simp [button]))
  have hdown : Descends forest card button :=
    Descends.child Descends.refl (h.held.find List.mem_cons_self)
      List.mem_cons_self
  rcases ofEdits_ancestors_decided .standard ⟨false⟩ _ card hcard with
    ⟨t, ht, _, habove⟩
  rcases ofEdits_ancestors_decided .standard ⟨false⟩ _ button hbutton with
    ⟨_, _, _, hbelow⟩
  have hup : ¬ forest.isSelfOrAncestor button card = true := by
    intro hmeets
    have henc := (hbelow card).right.right.left.mp hmeets
    have hback := h.encloses_iff_descends.mpr hdown
    have heq := h.encloses_antisymm henc hback
    simp [card, button, NodeId.generate_inj] at heq
  have hmeets := (habove button).right.left.mpr hdown
  refine ⟨hcard, hbutton, ⟨t, ht, (habove button).left.mp hmeets⟩, hmeets, hdown,
    ?_, ?_⟩
  · exact Bool.eq_false_iff.mpr hup
  · intro hback
    exact hup ((hbelow card).right.left.mpr hback)

end Forest

end MarkupForest
