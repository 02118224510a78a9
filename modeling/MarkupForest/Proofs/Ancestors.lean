import MarkupForest.Proofs.Traversals

/-!
# Nodes that enclose others

A node encloses itself and all nodes from which the way up the parent links
comes to it.  These are the nodes that its snapshot has.  Of two nodes that
enclose a third one, one encloses the other, so nodes that do not enclose each
other have nothing below them in common.
-/

namespace MarkupForest

namespace Forest

/-- The way up from the node `id` comes to `above`, or starts there. -/
def Encloses (forest : Forest) (above id : NodeId) : Prop :=
  exists steps, forest.ancestor? steps id = some above

variable {forest : Forest} {ss : List Snapshot} {s : Snapshot}
  {slot : Option NodeId} {a b c p x : NodeId}

/-!
# The order of enclosing nodes
-/

theorem ancestor?_add (forest : Forest) (m n : Nat) (id : NodeId) :
    forest.ancestor? (m + n) id =
      (forest.ancestor? m id).bind (forest.ancestor? n) := by
  induction m generalizing id with
  | zero => rw [Nat.zero_add]; rfl
  | succ m ih =>
      rw [Nat.succ_add]
      show (forest.parent? id).bind _ = ((forest.parent? id).bind _).bind _
      rw [Option.bind_assoc]
      congr 1
      funext above
      exact ih above.id

theorem Encloses.refl (forest : Forest) (id : NodeId) : forest.Encloses id id :=
  ⟨0, rfl⟩

theorem Encloses.trans (h : forest.Encloses a b) (h' : forest.Encloses b c) :
    forest.Encloses a c := by
  rcases h with ⟨far, hfar⟩
  rcases h' with ⟨near, hnear⟩
  refine ⟨near + far, ?_⟩
  rw [ancestor?_add, hnear]
  exact hfar

theorem Encloses.total (h : forest.Encloses a c) (h' : forest.Encloses b c) :
    forest.Encloses a b ∨ forest.Encloses b a := by
  rcases h with ⟨m, hm⟩
  rcases h' with ⟨n, hn⟩
  rcases Nat.le_total m n with hle | hle
  · right
    rcases Nat.exists_eq_add_of_le hle with ⟨more, rfl⟩
    rw [ancestor?_add, hm] at hn
    exact ⟨more, hn⟩
  · left
    rcases Nat.exists_eq_add_of_le hle with ⟨more, rfl⟩
    rw [ancestor?_add, hn] at hm
    exact ⟨more, hm⟩

/-!
# The first step of the way up
-/

theorem Shows.ancestor?_of_parent (h : Shows forest ss)
    (hparent : (forest.find? x).bind Node.parent = some p) (steps : Nat) :
    forest.ancestor? (steps + 1) x = forest.ancestor? steps p := by
  rcases Option.bind_eq_some_iff.mp hparent with ⟨node, hfind, hnode⟩
  rcases (h.wellFormed.parent_iff x node hfind p).mp hnode with ⟨above, habove, _⟩
  exact ancestor?_succ hfind hnode habove (h.keyed habove) steps

theorem ancestor?_of_no_parent (hnone : (forest.find? x).bind Node.parent = none)
    (steps : Nat) : forest.ancestor? (steps + 1) x = none := by
  show (((forest.find? x).bind Node.parent).bind forest.find?).bind _ = none
  rw [hnone]
  rfl

theorem Shows.encloses_parent (h : Shows forest ss) (hab : forest.Encloses a b)
    (hne : a ≠ b) :
    exists p, (forest.find? b).bind Node.parent = some p ∧ forest.Encloses a p := by
  rcases hab with ⟨steps, hup⟩
  cases steps with
  | zero => exact absurd (Option.some_inj.mp hup).symm hne
  | succ steps =>
      cases hparent : (forest.find? b).bind Node.parent with
      | none =>
          rw [ancestor?_of_no_parent hparent] at hup
          cases hup
      | some p =>
          rw [h.ancestor?_of_parent hparent] at hup
          exact ⟨p, rfl, steps, hup⟩

theorem Shows.encloses_of_parent (h : Shows forest ss)
    (hparent : (forest.find? b).bind Node.parent = some p) : forest.Encloses p b :=
  ⟨1, h.ancestor?_of_parent hparent 0⟩

/-!
# Enclosed nodes
-/

theorem Shows.meetsAbove_iff (h : Shows forest ss) {steps : Nat} :
    meetsAbove forest.arena a steps x = true ↔
      exists count, count ≤ steps ∧ forest.ancestor? count x = some a := by
  induction steps generalizing x with
  | zero =>
      constructor
      · intro hx
        have heq : x = a := by simpa [meetsAbove] using hx
        exact ⟨0, Nat.le_refl 0, congrArg some heq⟩
      · intro habove
        rcases habove with ⟨count, hle, hup⟩
        cases Nat.le_zero.mp hle
        cases hup
        simp [meetsAbove]
  | succ steps ih =>
      unfold meetsAbove
      rw [Bool.or_eq_true, beq_iff_eq]
      cases hparent : (forest.arena[x]?).bind Node.parent with
      | none =>
          constructor
          · intro habove
            rcases habove with rfl | hup
            · exact ⟨0, Nat.zero_le _, rfl⟩
            · cases hup
          · intro habove
            rcases habove with ⟨count, _, hup⟩
            cases count with
            | zero => exact Or.inl (Option.some_inj.mp hup)
            | succ count =>
                rw [ancestor?_of_no_parent hparent] at hup
                cases hup
      | some p =>
          have hstep := h.ancestor?_of_parent hparent
          constructor
          · intro habove
            rcases habove with rfl | hup
            · exact ⟨0, Nat.zero_le _, rfl⟩
            · rcases ih.mp hup with ⟨count, hle, hup⟩
              exact ⟨count + 1, Nat.succ_le_succ hle, (hstep count).trans hup⟩
          · intro habove
            rcases habove with ⟨count, hle, hup⟩
            cases count with
            | zero => exact Or.inl (Option.some_inj.mp hup)
            | succ count =>
                right
                apply ih.mpr
                exact ⟨count, Nat.le_of_succ_le_succ hle,
                  (hstep count).symm.trans hup⟩

/-- The nodes that a node encloses are those of its snapshot. -/
theorem Subtree.encloses_iff (h : Subtree forest slot s) (hshows : Shows forest ss) :
    forest.Encloses s.id x ↔ x ∈ s.ids := by
  constructor
  · intro henc
    rcases henc with ⟨steps, hup⟩
    exact h.mem_of_meetsAbove hshows
      (hshows.meetsAbove_iff.mpr ⟨steps, Nat.le_refl _, hup⟩)
  · intro hmem
    have habove := (h.isSelfOrAncestor_iff hshows).mpr hmem
    rcases hshows.meetsAbove_iff.mp habove with ⟨steps, _, hup⟩
    exact ⟨steps, hup⟩

theorem Shows.encloses_iff (h : Shows forest ss) (hs : forest.snapshotOf? a = some s) :
    forest.Encloses a x ↔ x ∈ s.ids := by
  rcases h.subtree_of_snapshotOf? hs with ⟨rfl, slot, hsub⟩
  exact hsub.encloses_iff h

theorem Shows.not_encloses_parent (h : Shows forest ss)
    (hparent : (forest.find? b).bind Node.parent = some p) :
    ¬ forest.Encloses b p := by
  rcases Option.bind_eq_some_iff.mp hparent with ⟨node, hfind, hnode⟩
  rcases h.toLinks.exists_struck (h.complete b (mem_of_entry hfind)) hfind with
    ⟨s, rfl, hstruck⟩
  have hsub : Subtree forest node.parent s :=
    ⟨hstruck.held, h.length_le_of_perm hstruck.perm⟩
  rw [hsub.encloses_iff h]
  exact hstruck.apart p hnode

theorem Shows.encloses_antisymm (h : Shows forest ss) (hab : forest.Encloses a b)
    (hba : forest.Encloses b a) : a = b := by
  by_contra hne
  rcases h.encloses_parent hab hne with ⟨p, hparent, hap⟩
  exact h.not_encloses_parent hparent (hba.trans hap)

end Forest

end MarkupForest
