import MarkupForest.Proofs.Ancestors
import MarkupForest.Proofs.Deletion
import MarkupForest.Proofs.SameNodes
import MarkupForest.Registry.Standard

/-!
# Deletions one after the other

Two nodes of which neither encloses the other have nothing below them in common,
so their deletions do not see each other and can be exchanged.  If one encloses
the other, deleting the outer one takes the inner one along: whether this one
was deleted before makes no difference in the end, only the counts are split.
-/

namespace MarkupForest

namespace Forest

open Snapshot (idsOfList changeSiblings strike)

/-- In either order, each deletion takes as many nodes, and the same forest is
left in the end. -/
def DeletesCommute (forest : Forest) (a b : NodeId) : Prop :=
  exists m n withoutA withoutB last,
    forest.delete a = .ok (m, withoutA) ∧ withoutA.delete b = .ok (n, last) ∧
    forest.delete b = .ok (n, withoutB) ∧ withoutB.delete a = .ok (m, last)

/-- The deletion of `a` includes that of `b`, which can go before it and cannot
come after it. -/
def DeletesCompose (forest : Forest) (a b : NodeId) : Prop :=
  exists m n withoutA withoutB,
    forest.delete a = .ok (m + n, withoutA) ∧
    withoutA.delete b = .error (.nodeNotFound b) ∧
    forest.delete b = .ok (n, withoutB) ∧ withoutB.delete a = .ok (m, withoutA)

variable {forest changed : Forest} {ss ts : List Snapshot} {s t : Snapshot}
  {slot : Option NodeId} {a b id y : NodeId}

/-!
# What a deletion leaves
-/

theorem Deleted.keeps_of_not_mem (hdeleted : Deleted forest id slot s changed)
    (hy : forest.contains y = true) (hout : y ∉ s.ids) :
    Keeps forest changed slot y :=
  hdeleted.keeps y ((hdeleted.contains_iff y).mpr ⟨hy, hout⟩)

theorem Deleted.find_eq (hdeleted : Deleted forest id slot s changed)
    (hy : forest.contains y = true) (hout : y ∉ s.ids) (hne : slot ≠ some y) :
    changed.find? y = forest.find? y := by
  rcases hdeleted.keeps_of_not_mem hy hout with
    ⟨node, kept, hfind, hkept, _, hsame⟩
  rw [hkept, hfind, hsame hne]

theorem Deleted.map_parent (hdeleted : Deleted forest id slot s changed)
    (hy : forest.contains y = true) (hout : y ∉ s.ids) :
    (changed.find? y).map Node.parent = (forest.find? y).map Node.parent := by
  rcases hdeleted.keeps_of_not_mem hy hout with ⟨node, kept, hfind, hkept, hlinks, _⟩
  rw [hkept, hfind, hlinks]
  rfl

theorem Deleted.size_add (hdeleted : Deleted forest id slot s changed)
    (h : Shows forest ss) (hchanged : Shows changed ts) :
    changed.size + s.ids.length = forest.size := by
  rcases hdeleted.contents with ⟨depth, before, after, hbefore, hafter⟩
  have hall := congrArg List.length hbefore
  have hleft := congrArg List.length hafter
  rw [h.length_contents, List.length_append, List.length_append,
    List.length_map, Snapshot.length_rows] at hall
  rw [hchanged.length_contents, List.length_append] at hleft
  omega

theorem Deleted.delete_of_mem (hdeleted : Deleted forest id slot s changed)
    (hy : y ∈ s.ids) : changed.delete y = .error (.nodeNotFound y) := by
  have hnone : changed.find? y = none := by
    apply Std.ExtHashMap.getElem?_eq_none
    intro hmem
    have hleft := (hdeleted.contains_iff y).mp (Forest.contains_iff.mpr hmem)
    exact hleft.right hy
  unfold delete
  rw [hnone]

theorem Deleted.sameSettings (hdeleted : Deleted forest id slot s changed) :
    SameSettings forest changed :=
  ⟨hdeleted.nextCount, hdeleted.configuration.left, hdeleted.configuration.right⟩

/-!
# Nodes that do not enclose each other
-/

/-- Nodes that are neither above nor below the deleted one are as they were, with
everything below them. -/
theorem Deleted.find_apart (hdeleted : Deleted forest a slot s changed)
    (h : Shows forest ss) (ht : forest.snapshotOf? b = some t)
    (hab : ¬ forest.Encloses a b) (hba : ¬ forest.Encloses b a) (hy : y ∈ t.ids) :
    changed.find? y = forest.find? y := by
  have hby : forest.Encloses b y := (h.encloses_iff ht).mpr hy
  apply hdeleted.find_eq
  · exact Forest.contains_iff.mpr (h.mem_of_snapshotOf? ht hy)
  · intro hs
    have hay : forest.Encloses a y := (h.encloses_iff hdeleted.snapshotOf).mpr hs
    exact (hay.total hby).elim hab hba
  · intro e
    have hparent : (forest.find? a).bind Node.parent = some y := by
      rcases Option.map_eq_some_iff.mp hdeleted.parent with ⟨node, hfind, hnode⟩
      rw [hfind, ← e, ← hnode]
      rfl
    exact hba (hby.trans (h.encloses_of_parent hparent))

theorem Shows.deletesCommute (h : Shows forest ss)
    (hs : forest.snapshotOf? a = some s) (ht : forest.snapshotOf? b = some t)
    (hab : ¬ forest.Encloses a b) (hba : ¬ forest.Encloses b a) :
    DeletesCommute forest a b := by
  rcases h.exists_rest hs with ⟨p, withoutA, hdeleteA, hshowsA, hdeletedA⟩
  rcases h.exists_rest ht with ⟨q, withoutB, hdeleteB, hshowsB, hdeletedB⟩
  have hkeptB : forall y, y ∈ t.ids → withoutA.find? y = forest.find? y :=
    fun y hy => hdeletedA.find_apart h ht hab hba hy
  have hkeptA : forall y, y ∈ s.ids → withoutB.find? y = forest.find? y :=
    fun y hy => hdeletedB.find_apart h hs hba hab hy
  rcases hshowsA.exists_rest (h.snapshotOf?_congr ht hkeptB) with
    ⟨q', last, hdeleteAB, hshowsAB, hdeletedAB⟩
  rcases hshowsB.exists_rest (h.snapshotOf?_congr hs hkeptA) with
    ⟨p', last', hdeleteBA, hshowsBA, hdeletedBA⟩
  have hq : q' = q := by
    apply hdeletedAB.parent_eq
    rw [hkeptB b ((h.encloses_iff ht).mp (.refl forest b))]
    exact hdeletedB.parent
  have hp : p' = p := by
    apply hdeletedBA.parent_eq
    rw [hkeptA a ((h.encloses_iff hs).mp (.refl forest a))]
    exact hdeletedA.parent
  have hsame : last' = last := by
    have hsettingsAB := hdeletedA.sameSettings.trans hdeletedAB.sameSettings
    have hsettingsBA := hdeletedB.sameSettings.trans hdeletedBA.sameSettings
    rw [hq, ← Snapshot.changeSiblings_strike_comm, ← hp] at hshowsAB
    exact hshowsAB.eq_of_sameSettings hshowsBA (hsettingsAB.symm.trans hsettingsBA)
  exact ⟨_, _, withoutA, withoutB, last, hdeleteA, hdeleteAB, hdeleteB,
    hsame ▸ hdeleteBA⟩

/-!
# A node in another one
-/

theorem Shows.deletesCompose (h : Shows forest ss)
    (hs : forest.snapshotOf? a = some s) (ht : forest.snapshotOf? b = some t)
    (hne : a ≠ b) (hab : forest.Encloses a b) : DeletesCompose forest a b := by
  rcases h.exists_rest hs with ⟨p, withoutA, hdeleteA, hshowsA, hdeletedA⟩
  rcases h.exists_rest ht with ⟨q, withoutB, hdeleteB, hshowsB, hdeletedB⟩
  have hba : ¬ forest.Encloses b a := fun hba => hne (h.encloses_antisymm hab hba)
  have hout : a ∉ t.ids := fun hmem => hba ((h.encloses_iff ht).mpr hmem)
  have ha : forest.contains a = true :=
    Forest.contains_iff.mpr
      (h.mem_of_snapshotOf? hs ((h.encloses_iff hs).mp (.refl forest a)))
  have haleft : a ∈ withoutB.arena :=
    Forest.contains_iff.mp ((hdeletedB.contains_iff a).mpr ⟨ha, hout⟩)
  rcases hshowsB.exists_subtree haleft with ⟨_, s', hid, hsub⟩
  rcases hshowsB.exists_rest (hid ▸ hsub.snapshotOf?) with
    ⟨p', last, hdeleteBA, hshowsBA, hdeletedBA⟩
  have hp : p' = p := by
    apply hdeletedBA.parent_eq
    rw [hdeletedB.map_parent ha hout]
    exact hdeletedA.parent
  have hlist : changeSiblings q (strike b) (changeSiblings p (strike a) ss) =
      changeSiblings p (strike a) ss := by
    rcases h.encloses_parent hab hne with ⟨above, hparent, habove⟩
    have hq : q = some above := by
      apply hdeletedB.parent_eq
      rcases Option.bind_eq_some_iff.mp hparent with ⟨node, hfind, hnode⟩
      rw [hfind, Option.map_some, hnode]
    rw [hq]
    apply Snapshot.changeBelowList_of_not_mem
    intro hmem
    have hleft := (hdeletedA.contains_iff above).mp
      (Forest.contains_iff.mpr (hshowsA.mem_iff.mpr hmem))
    exact hleft.right ((h.encloses_iff hs).mp habove)
  have hsame : last = withoutA := by
    have hsettingsBA := hdeletedB.sameSettings.trans hdeletedBA.sameSettings
    rw [hp, Snapshot.changeSiblings_strike_comm, hlist] at hshowsBA
    exact hshowsA.eq_of_sameSettings hshowsBA
      (hdeletedA.sameSettings.symm.trans hsettingsBA)
  have hcount : s.ids.length = s'.ids.length + t.ids.length := by
    have hsizeA := hdeletedA.size_add h hshowsA
    have hsizeB := hdeletedB.size_add h hshowsB
    have hsizeBA := hdeletedBA.size_add hshowsB hshowsBA
    rw [hsame] at hsizeBA
    omega
  exact ⟨_, _, withoutA, withoutB, hcount ▸ hdeleteA,
    hdeletedA.delete_of_mem ((h.encloses_iff hs).mp hab), hdeleteB,
    hsame ▸ hdeleteBA⟩

/-- After every run of edits, deletions of two nodes can be exchanged if neither
node encloses the other, and otherwise the outer one includes the inner one. -/
theorem ofEdits_deletes_commute (registry : Registry) (options : Options)
    (requests : List Edit) (a b : NodeId) (hne : a ≠ b)
    (ha : (ofEdits registry options requests).contains a = true)
    (hb : (ofEdits registry options requests).contains b = true) :
    let forest := ofEdits registry options requests
    (¬ forest.Encloses a b → ¬ forest.Encloses b a → DeletesCommute forest a b) ∧
    (forest.Encloses a b → DeletesCompose forest a b) := by
  intro forest
  rcases exists_shows_ofEdits registry options requests with ⟨ss, h⟩
  rcases h.exists_subtree (contains_iff.mp ha) with ⟨_, s, rfl, hs⟩
  rcases h.exists_subtree (contains_iff.mp hb) with ⟨_, t, rfl, ht⟩
  constructor
  · intro hab hba
    exact h.deletesCommute hs.snapshotOf? ht.snapshotOf? hab hba
  · intro hab
    exact h.deletesCompose hs.snapshotOf? ht.snapshotOf? hne hab

theorem deletes_commute_of_card :
    let card := NodeId.generate .card 1
    let beside := NodeId.generate .button 2
    let inner := NodeId.generate .button 3
    let forest := ofEdits .standard ⟨false⟩
      [.insert .card none, .insert .button none, .insert .button (some card)]
    (card ≠ inner ∧ card ≠ beside ∧ forest.contains card = true ∧
      forest.contains inner = true ∧ forest.contains beside = true) ∧
    (forest.Encloses card inner ∧ DeletesCompose forest card inner) ∧
    (¬ forest.Encloses card beside ∧ ¬ forest.Encloses beside card ∧
      DeletesCommute forest card beside) := by
  intro card beside inner forest
  let roots := ofEdits .standard ⟨false⟩ [.insert .card none, .insert .button none]
  have hroots : Shows roots _ := shows_pair rfl rfl
  have hfind : roots.find? card = _ := hroots.held.find List.mem_cons_self
  have hrun : forest = (roots.edit (.insert .button (some card))).forest := rfl
  rw [edit_of_insert (ofEdits_insert_below rfl hfind)] at hrun
  have hinner : card ≠ inner := by simp [card, inner, NodeId.generate_inj]
  have hbeside : card ≠ beside := by simp [card, beside, NodeId.generate_inj]
  have hcount : roots.nextCount = 3 := rfl
  have h : Shows forest
      [.node card .card ((Registry.standard.find? .card).get rfl).defaults
          [.node inner .button ((Registry.standard.find? .button).get rfl).defaults
            []],
        .node beside .button ((Registry.standard.find? .button).get rfl).defaults
          []] := by
    have hplaced := hroots.place (slotOf_some List.mem_cons_self) .button
      ((Registry.standard.find? .button).get rfl).defaults
    simp only [changeSiblings, hcount, Snapshot.changeBelowList_node_cons,
      Snapshot.changeBelowList_nil, if_pos] at hplaced
    rw [hrun]
    exact hplaced
  have hblock := h.subtree_of_root List.mem_cons_self
  have hleaf := h.subtree_of_root (List.mem_cons_of_mem _ List.mem_cons_self)
  have hin : forest.Encloses card inner := (hblock.encloses_iff h).mpr (by simp)
  have hout : ¬ forest.Encloses card beside := by
    intro henc
    have hmem := (hblock.encloses_iff h).mp henc
    simp [card, inner, beside, NodeId.generate_inj] at hmem
  have hback : ¬ forest.Encloses beside card := by
    intro henc
    have hmem := (hleaf.encloses_iff h).mp henc
    simp [card, beside, NodeId.generate_inj] at hmem
  have hall : forall x, x ∈ [card, inner, beside] → forest.contains x = true :=
    fun x hx => contains_iff.mpr (h.mem_iff.mpr hx)
  have hcard := hall card (by simp)
  have hinside := hall inner (by simp)
  have houtside := hall beside (by simp)
  exact ⟨⟨hinner, hbeside, hcard, hinside, houtside⟩,
    ⟨hin, (ofEdits_deletes_commute .standard ⟨false⟩ _ card inner hinner hcard
      hinside).right hin⟩,
    ⟨hout, hback, (ofEdits_deletes_commute .standard ⟨false⟩ _ card beside hbeside
      hcard houtside).left hout hback⟩⟩

end Forest

end MarkupForest
