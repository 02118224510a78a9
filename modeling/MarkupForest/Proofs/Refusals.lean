import MarkupForest.Proofs.InPlace
import MarkupForest.Proofs.KnownTypes
import MarkupForest.Proofs.Printing

/-!
# Edits that are refused

`Forest.Refused` lists the reasons for which an edit is refused.  Each reason
excludes those that are checked before it, so at most one applies.  An edit
fails for exactly these reasons, and a refused edit leaves the forest as it was,
even when it writes in place.
-/

namespace MarkupForest

/-- The node that has to be there for an edit. -/
def Edit.subject? : Edit → Option NodeId
  | insert _ _ => none
  | replaceProperties id _ => some id
  | setProperty id _ _ => some id
  | delete id => some id
  | move id _ _ => some id
  | duplicate id => some id

namespace Forest

/-- Whether the nodes of a type may own children. -/
def IsContainer (types : Registry) (type : NodeType) : Prop :=
  exists descriptor, types.find? type = some descriptor ∧
    descriptor.isContainer = true

/-- Whether nodes may be placed under a node. -/
def OpenParent (forest : Forest) (parent : NodeId) : Prop :=
  exists above, forest.find? parent = some above ∧
    (forest.options.strictStructure = true →
      IsContainer forest.registry above.type)

/-- Why a node of `type` may not go under `parent`: there is no such node, or
the structure rule forbids it. -/
inductive ParentRefused (forest : Forest) (parent : NodeId) (type : NodeType) :
    EditError → Prop where
  | missing : forest.contains parent = false →
      ParentRefused forest parent type (.parentNotFound parent)
  | leaf {above : Node} : forest.find? parent = some above →
      forest.options.strictStructure = true →
      ¬ IsContainer forest.registry above.type →
      ParentRefused forest parent type (.invalidStructure parent type)

/-- Why an edit is refused. -/
inductive Refused (forest : Forest) : Edit → EditError → Prop where
  | unknownType {type : NodeType} {parent : Option NodeId} :
      forest.registry.contains type = false →
      Refused forest (.insert type parent) (.unknownType type.name)
  | insertUnder {type : NodeType} {parent : NodeId} {e : EditError} :
      forest.registry.contains type = true →
      ParentRefused forest parent type e →
      Refused forest (.insert type (some parent)) e
  | missing {request : Edit} {id : NodeId} :
      request.subject? = some id →
      forest.contains id = false →
      Refused forest request (.nodeNotFound id)
  | moveUnder {id target : NodeId} {index : Option Nat} {node : Node}
      {e : EditError} :
      forest.find? id = some node →
      ParentRefused forest target node.type e →
      Refused forest (.move id (some target) index) e
  | moveInside {id target : NodeId} {index : Option Nat} {s : Snapshot} :
      OpenParent forest target →
      forest.snapshotOf? id = some s →
      target ∈ s.ids →
      Refused forest (.move id (some target) index) (.invalidMove id target)

variable {forest : Forest} {ss : List Snapshot} {node : Node}
  {id parent target : NodeId} {slot : Option NodeId} {index : Option Nat}
  {type : NodeType} {e : EditError} {request : Edit}

theorem answer_eq_error_iff :
    (forest.edit request).answer = .error e ↔
      forest.edit? request = .error e := by
  cases hedit : forest.edit? request with
  | error e' =>
      rw [edit_of_error hedit, Except.error.injEq, Except.error.injEq]
  | ok answer =>
      rcases answer with ⟨result, changed⟩
      rw [edit_of_ok hedit]
      exact iff_of_false (by simp) (by simp)

theorem contains_eq_false_iff :
    forest.contains id = false ↔ forest.find? id = none := by
  rw [← Bool.not_eq_true, contains_iff, Std.ExtHashMap.mem_iff_isSome_getElem?,
    Bool.not_eq_true, Option.isSome_eq_false_iff, Option.isNone_iff_eq_none]
  rfl

theorem contains_of_find (h : forest.find? id = some node) :
    forest.contains id = true :=
  contains_iff.mpr (mem_of_entry h)

theorem contains_cases (forest : Forest) (id : NodeId) :
    forest.contains id = false ∨ exists node, forest.find? id = some node := by
  rw [contains_eq_false_iff]
  cases forest.find? id with
  | none => exact Or.inl rfl
  | some node => exact Or.inr ⟨node, rfl⟩

/-!
# Places
-/

theorem OpenParent.checkParent (h : OpenParent forest parent)
    (hshows : Shows forest ss) (type : NodeType) :
    forest.checkParent parent type = .ok parent := by
  rcases h with ⟨above, hfind, hopen⟩
  have hid : above.id = parent := hshows.keyed hfind
  unfold Forest.checkParent
  rw [hfind]
  cases hstrict : forest.options.strictStructure with
  | false => simp [hid]
  | true =>
      rcases hopen hstrict with ⟨descriptor, hdescriptor, hcontainer⟩
      simp [hdescriptor, hcontainer, hid]

/-- The type that the check looks up is registered, so the check has no other
error. -/
theorem checkParent_cases (hknown : Known forest.registry forest.arena)
    (parent : NodeId) (type : NodeType) :
    OpenParent forest parent ∨
      exists e, ParentRefused forest parent type e ∧
        forest.checkParent parent type = .error e := by
  unfold Forest.checkParent
  cases hfind : forest.find? parent with
  | none =>
      exact Or.inr ⟨_, .missing (contains_eq_false_iff.mpr hfind), rfl⟩
  | some above =>
      by_cases hopen : forest.options.strictStructure = true →
          IsContainer forest.registry above.type
      · exact Or.inl ⟨above, hfind, hopen⟩
      · rw [Classical.not_imp] at hopen
        rcases hopen with ⟨hstrict, hleaf⟩
        rcases hknown parent above hfind with ⟨descriptor, hdescriptor⟩
        have hcontainer : descriptor.isContainer = false := by
          rw [← Bool.not_eq_true]
          exact fun hopen => hleaf ⟨descriptor, hdescriptor, hopen⟩
        refine Or.inr ⟨_, .leaf hfind hstrict hleaf, ?_⟩
        simp [hstrict, hdescriptor, hcontainer]

theorem ParentRefused.not_open (h : ParentRefused forest parent type e) :
    ¬ OpenParent forest parent := by
  rintro ⟨above, habove, hopen⟩
  cases h with
  | missing hmissing =>
      rw [contains_eq_false_iff, habove] at hmissing
      cases hmissing
  | leaf hfind hstrict hleaf =>
      rw [habove] at hfind
      cases hfind
      exact hleaf (hopen hstrict)

theorem ParentRefused.unique {e' : EditError}
    (h : ParentRefused forest parent type e)
    (h' : ParentRefused forest parent type e') : e = e' := by
  cases h with
  | missing hmissing =>
      rw [contains_eq_false_iff] at hmissing
      cases h' with
      | missing _ => rfl
      | leaf hfind _ _ =>
          rw [hmissing] at hfind
          cases hfind
  | leaf hfind _ _ =>
      cases h' with
      | leaf _ _ _ => rfl
      | missing hmissing =>
          rw [contains_eq_false_iff, hfind] at hmissing
          cases hmissing

theorem Shows.checkParent_eq_error_iff (h : Shows forest ss)
    (hknown : Known forest.registry forest.arena) :
    forest.checkParent parent type = .error e ↔
      ParentRefused forest parent type e := by
  rcases checkParent_cases hknown parent type with hopen | ⟨e', hrefused, hcheck⟩
  · rw [hopen.checkParent h type]
    refine iff_of_false (by simp) ?_
    exact fun hrefused => hrefused.not_open hopen
  · rw [hcheck, Except.error.injEq]
    constructor
    · rintro rfl
      exact hrefused
    · exact hrefused.unique

theorem Shows.checkMove_eq_error_iff (h : Shows forest ss)
    (hknown : Known forest.registry forest.arena)
    (hfind : forest.find? id = some node) :
    forest.checkMove node (some target) = .error e ↔
      ParentRefused forest target node.type e ∨
        (OpenParent forest target ∧
          forest.isSelfOrAncestor id target = true ∧
          e = .invalidMove id target) := by
  have hid : node.id = id := h.keyed hfind
  simp only [checkMove]
  rcases checkParent_cases hknown target node.type with
    hopen | ⟨e', hrefused, hcheck⟩
  · have hnot : ¬ ParentRefused forest target node.type e :=
      fun hrefused => hrefused.not_open hopen
    simp only [hopen.checkParent h node.type, hid]
    cases hbelow : forest.isSelfOrAncestor id target with
    | true =>
        rw [if_pos rfl, Except.error.injEq]
        constructor
        · rintro rfl
          exact Or.inr ⟨hopen, rfl, rfl⟩
        · rintro (hrefused | ⟨_, _, rfl⟩)
          · exact absurd hrefused hnot
          · rfl
    | false =>
        rw [if_neg Bool.false_ne_true]
        refine iff_of_false (by simp) ?_
        rintro (hrefused | ⟨_, habove, _⟩)
        · exact hnot hrefused
        · exact Bool.false_ne_true habove
  · simp only [hcheck, Except.error.injEq]
    constructor
    · rintro rfl
      exact Or.inl hrefused
    · rintro (hother | ⟨hopen, _⟩)
      · exact hrefused.unique hother
      · exact absurd hopen hrefused.not_open

/-!
# Edits
-/

theorem edit?_of_missing (hsubject : request.subject? = some id)
    (hid : forest.contains id = false) :
    forest.edit? request = .error (.nodeNotFound id) := by
  have hfind := contains_eq_false_iff.mp hid
  cases request with
  | insert type parent => cases hsubject
  | replaceProperties x properties =>
      cases hsubject
      simp [edit?, replaceProperties, hid, Except.map]
  | setProperty x key value =>
      cases hsubject
      simp [edit?, setProperty, hid, Except.map]
  | delete x =>
      cases hsubject
      simp [edit?, delete, hfind, Except.map]
  | move x target index =>
      cases hsubject
      simp [edit?, move, hfind, Except.map]
  | duplicate x =>
      cases hsubject
      simp [edit?, duplicate, hfind, Except.map]

theorem edit?_insert_eq_error_iff :
    forest.edit? (.insert type slot) = .error e ↔
      (forest.registry.contains type = false ∧ e = .unknownType type.name) ∨
        (forest.registry.contains type = true ∧
          forest.checkInsert type slot = .error e) := by
  simp only [edit?, insert, Registry.contains, OrderedMap.contains]
  cases htype : forest.registry.find? type with
  | none =>
      have hnone : forest.registry.descriptors.find? type = none := htype
      simp [hnone, Except.map, eq_comm]
  | some descriptor =>
      have hsome : forest.registry.descriptors.find? type = some descriptor := htype
      cases hcheck : forest.checkInsert type slot with
      | error e' => simp [hsome, Except.map]
      | ok place => simp [hsome, Except.map]

theorem checkInsert_eq_error_iff :
    forest.checkInsert type slot = .error e ↔
      exists parent, slot = some parent ∧
        forest.checkParent parent type = .error e := by
  cases slot with
  | none => simp [checkInsert]
  | some parent =>
      cases hcheck : forest.checkParent parent type with
      | error e' => simp [checkInsert, hcheck, Except.map]
      | ok p => simp [checkInsert, hcheck, Except.map]

theorem edit?_move_eq_error_iff (hfind : forest.find? id = some node) :
    forest.edit? (.move id slot index) = .error e ↔
      forest.checkMove node slot = .error e := by
  simp only [edit?, move, hfind]
  cases forest.checkMove node slot with
  | error e' => simp [Except.map]
  | ok place => simp [Except.map]

theorem Shows.edit?_of_refused (h : Shows forest ss)
    (hknown : Known forest.registry forest.arena)
    (hrefused : Refused forest request e) : forest.edit? request = .error e := by
  cases hrefused with
  | unknownType htype =>
      exact edit?_insert_eq_error_iff.mpr (Or.inl ⟨htype, rfl⟩)
  | insertUnder htype hparent =>
      refine edit?_insert_eq_error_iff.mpr (Or.inr ⟨htype, ?_⟩)
      exact checkInsert_eq_error_iff.mpr
        ⟨_, rfl, (h.checkParent_eq_error_iff hknown).mpr hparent⟩
  | missing hsubject hid => exact edit?_of_missing hsubject hid
  | moveUnder hfind hparent =>
      refine (edit?_move_eq_error_iff hfind).mpr ?_
      exact (h.checkMove_eq_error_iff hknown hfind).mpr (Or.inl hparent)
  | @moveInside id target index s hopen hs hmem =>
      rcases h.subtree_of_snapshotOf? hs with ⟨rfl, slot, hsub⟩
      refine (edit?_move_eq_error_iff hsub.find).mpr ?_
      exact (h.checkMove_eq_error_iff hknown hsub.find).mpr
        (Or.inr ⟨hopen, (hsub.isSelfOrAncestor_iff h).mpr hmem, rfl⟩)

theorem Shows.edit?_duplicate (h : Shows forest ss)
    (hfind : forest.find? id = some node) :
    exists answer, forest.edit? (.duplicate id) = .ok answer := by
  rcases h.exists_duplicate hfind with ⟨s, after, _, _, hduplicate⟩
  simp [edit?, hduplicate, Except.map]

theorem Shows.refused_of_edit? (h : Shows forest ss)
    (hknown : Known forest.registry forest.arena)
    (hedit : forest.edit? request = .error e) : Refused forest request e := by
  have hmissing : forall {id}, request.subject? = some id →
      forest.contains id = false → Refused forest request e := by
    intro id hsubject hid
    rw [edit?_of_missing hsubject hid] at hedit
    cases hedit
    exact .missing hsubject hid
  cases request with
  | insert type slot =>
      rcases edit?_insert_eq_error_iff.mp hedit with
        ⟨htype, rfl⟩ | ⟨htype, hcheck⟩
      · exact .unknownType htype
      · rcases checkInsert_eq_error_iff.mp hcheck with ⟨parent, rfl, hparent⟩
        exact .insertUnder htype ((h.checkParent_eq_error_iff hknown).mp hparent)
  | replaceProperties id properties =>
      rcases contains_cases forest id with hid | ⟨node, hfind⟩
      · exact hmissing rfl hid
      · simp [edit?, replaceProperties, contains_of_find hfind, Except.map] at hedit
  | setProperty id key value =>
      rcases contains_cases forest id with hid | ⟨node, hfind⟩
      · exact hmissing rfl hid
      · simp [edit?, setProperty, contains_of_find hfind, Except.map] at hedit
  | delete id =>
      rcases contains_cases forest id with hid | ⟨node, hfind⟩
      · exact hmissing rfl hid
      · simp [edit?, delete, hfind, Except.map] at hedit
  | move id slot index =>
      rcases contains_cases forest id with hid | ⟨node, hfind⟩
      · exact hmissing rfl hid
      · have hcheck := (edit?_move_eq_error_iff hfind).mp hedit
        cases slot with
        | none => simp [checkMove] at hcheck
        | some target =>
            rcases (h.checkMove_eq_error_iff hknown hfind).mp hcheck with
              hparent | ⟨hopen, habove, rfl⟩
            · exact .moveUnder hfind hparent
            · rcases h.exists_subtree (mem_of_entry hfind) with
                ⟨place, s, rfl, hsub⟩
              exact .moveInside hopen hsub.snapshotOf?
                ((hsub.isSelfOrAncestor_iff h).mp habove)
  | duplicate id =>
      rcases contains_cases forest id with hid | ⟨node, hfind⟩
      · exact hmissing rfl hid
      · rcases h.edit?_duplicate hfind with ⟨answer, hanswer⟩
        rw [hanswer] at hedit
        cases hedit

/-- In every forest that edits can make, an edit fails for exactly the reasons
listed, and a refused edit has changed nothing, even if it writes in place. -/
theorem ofEdits_refused_iff (registry : Registry) (options : Options)
    (requests : List Edit) (request : Edit) :
    let forest := ofEdits registry options requests
    (forall e, (forest.edit request).answer = .error e ↔
      Refused forest request e) ∧
    (forall e, (forest.edit request).answer = .error e →
      forest.editInPlace request = (.error e, forest)) ∧
    forest.editInPlace request =
      ((forest.edit request).answer, (forest.edit request).forest) := by
  intro forest
  rcases exists_shows_ofEdits registry options requests with ⟨ss, h⟩
  have hknown := known_ofEdits registry options requests
  have hinPlace := h.editInPlace request
  refine ⟨?_, ?_, hinPlace⟩
  · intro e
    rw [answer_eq_error_iff]
    exact ⟨h.refused_of_edit? hknown, h.edit?_of_refused hknown⟩
  · intro e he
    rw [hinPlace, he, edit_of_error (answer_eq_error_iff.mp he)]

theorem card_refused_inside_itself :
    let forest := ofEdits .standard ⟨true⟩ [.insert .card none]
    let card := NodeId.generate .card 1
    (forest.edit (.move card (some card) none)).answer =
      .error (.invalidMove card card) ∧
    forest.editInPlace (.move card (some card) none) =
      (.error (.invalidMove card card), forest) := by
  intro forest card
  have hcard := Render.shows_card.subtree_of_root List.mem_cons_self
  have hopen : OpenParent forest card :=
    ⟨_, hcard.find, fun _ => ⟨(Registry.standard.find? .card).get rfl, rfl, rfl⟩⟩
  rcases ofEdits_refused_iff .standard ⟨true⟩ [.insert .card none]
    (.move card (some card) none) with ⟨hreasons, hunchanged, _⟩
  have herror := (hreasons _).mpr
    (.moveInside hopen hcard.snapshotOf? (Snapshot.id_mem_ids _))
  exact ⟨herror, hunchanged _ herror⟩

end Forest

end MarkupForest
