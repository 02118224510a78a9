import MarkupForest.Proofs.Refusals

/-!
# Forests without properties

Edits carry properties along, but decide nothing by them.  `Forest.bare` clears
the properties of every node.  Every check answers the same on a forest and on
the bare one, and every change of the forest is a change of the bare one, so a
run of edits can be told on bare forests alone.  An edit of properties is no
step there.
-/

namespace MarkupForest

/-- A node without its properties. -/
def Node.bare (node : Node) : Node := { node with properties := ∅ }

namespace Forest

def bareArena (arena : Arena) : Arena := arena.map fun _ => Node.bare

/-- The same forest where no node has a property. -/
def bare (forest : Forest) : Forest :=
  { forest with arena := bareArena forest.arena }

/-- The second forest is the first one, with the properties of one node changed. -/
structure Rewritten (forest : Forest) (id : NodeId)
    (change : Properties → Properties) (after : Forest) : Prop where
  registry : after.registry = forest.registry
  options : after.options = forest.options
  roots : after.roots = forest.roots
  nextCount : after.nextCount = forest.nextCount
  others : forall x, x ≠ id → after.find? x = forest.find? x
  node : after.find? id = (forest.find? id).map fun node =>
    { node with properties := change node.properties }

/-- The answers of the edits of a run, each beside its request. -/
def answers (forest : Forest) :
    List Edit → List (Edit × Except EditError EditResult)
  | [] => []
  | request :: rest =>
      (request, (forest.edit request).answer) ::
        (forest.edit request).forest.answers rest

end Forest

/-- Whether a request is about more than properties. -/
def Edit.isStructural : Edit → Bool
  | .replaceProperties _ _ | .setProperty _ _ _ => false
  | _ => true

namespace Forest

variable {arena : Arena} {forest other : Forest} {node : Node} {x : NodeId}
  {slot : Option NodeId} {request : Edit}

/-!
# Arenas
-/

@[simp] theorem bare_bare_node (node : Node) : node.bare.bare = node.bare := rfl

theorem bareArena_find (arena : Arena) (x : NodeId) :
    (bareArena arena)[x]? = (arena[x]?).map Node.bare :=
  Std.ExtHashMap.getElem?_map

theorem bareArena_insert (arena : Arena) (x : NodeId) (node : Node) :
    bareArena (arena.insert x node) = (bareArena arena).insert x node.bare := by
  apply Std.ExtHashMap.ext_getElem?
  intro y
  rw [bareArena_find, Std.ExtHashMap.getElem?_insert,
    Std.ExtHashMap.getElem?_insert, bareArena_find, apply_ite (Option.map Node.bare)]
  rfl

theorem bareArena_erase (arena : Arena) (x : NodeId) :
    bareArena (arena.erase x) = (bareArena arena).erase x := by
  apply Std.ExtHashMap.ext_getElem?
  intro y
  rw [bareArena_find, Std.ExtHashMap.getElem?_erase, Std.ExtHashMap.getElem?_erase,
    bareArena_find, apply_ite (Option.map Node.bare)]
  rfl

theorem bareArena_modify (arena : Arena) (x : NodeId) (change : Node → Node)
    (h : forall node, (change node).bare = change node.bare) :
    bareArena (arena.modify x change) = (bareArena arena).modify x change := by
  apply Std.ExtHashMap.ext_getElem?
  intro y
  rw [bareArena_find, Std.ExtHashMap.getElem?_modify,
    Std.ExtHashMap.getElem?_modify, bareArena_find, bareArena_find,
    apply_ite (Option.map Node.bare), Option.map_map, Option.map_map]
  simp only [Function.comp_def, h]

theorem bareArena_bareArena (arena : Arena) :
    bareArena (bareArena arena) = bareArena arena := by
  apply Std.ExtHashMap.ext_getElem?
  intro y
  rw [bareArena_find, bareArena_find, Option.map_map]
  rfl

theorem size_bareArena (arena : Arena) : (bareArena arena).size = arena.size :=
  Std.ExtHashMap.size_map

/-!
# Forests
-/

@[simp] theorem registry_bare (forest : Forest) :
    forest.bare.registry = forest.registry := rfl

@[simp] theorem nextCount_bare (forest : Forest) :
    forest.bare.nextCount = forest.nextCount := rfl

@[simp] theorem bare_bare (forest : Forest) : forest.bare.bare = forest.bare := by
  unfold bare
  rw [bareArena_bareArena]

@[simp] theorem find?_bare (forest : Forest) (x : NodeId) :
    forest.bare.find? x = (forest.find? x).map Node.bare :=
  bareArena_find forest.arena x

@[simp] theorem contains_bare (forest : Forest) (x : NodeId) :
    forest.bare.contains x = forest.contains x :=
  Std.ExtHashMap.contains_map

@[simp] theorem size_bare (forest : Forest) : forest.bare.size = forest.size :=
  size_bareArena forest.arena

theorem bare_modifySiblings (forest : Forest) (slot : Option NodeId)
    (change : List NodeId → List NodeId) :
    (forest.modifySiblings slot change).bare =
      forest.bare.modifySiblings slot change := by
  cases slot with
  | none => rfl
  | some p =>
      exact congrArg (fun arena => { forest with arena })
        (bareArena_modify forest.arena p
          (fun node => { node with children := change node.children }) fun _ => rfl)

/-!
# Checks
-/

theorem checkParent_bare (forest : Forest) (parent : NodeId) (type : NodeType) :
    forest.bare.checkParent parent type = forest.checkParent parent type := by
  unfold checkParent
  rw [find?_bare]
  cases forest.find? parent <;> rfl

theorem checkInsert_bare (forest : Forest) (type : NodeType)
    (slot : Option NodeId) :
    forest.bare.checkInsert type slot = forest.checkInsert type slot := by
  cases slot with
  | none => rfl
  | some parent =>
      exact congrArg (Except.map some) (checkParent_bare forest parent type)

theorem meetsAbove_bareArena (arena : Arena) (ancestor : NodeId) (steps : Nat)
    (x : NodeId) :
    meetsAbove (bareArena arena) ancestor steps x =
      meetsAbove arena ancestor steps x := by
  induction steps generalizing x with
  | zero => rfl
  | succ steps ih =>
      have hparent : ((bareArena arena)[x]?).bind Node.parent =
          (arena[x]?).bind Node.parent := by
        rw [bareArena_find, Option.bind_map]
        rfl
      simp only [meetsAbove, hparent, ih]

theorem checkMove_bare (forest : Forest) (node : Node) (slot : Option NodeId) :
    forest.bare.checkMove node.bare slot = forest.checkMove node slot := by
  have hbelow : forall ancestor x, forest.bare.isSelfOrAncestor ancestor x =
      forest.isSelfOrAncestor ancestor x := by
    intro ancestor x
    unfold isSelfOrAncestor
    rw [size_bare]
    exact meetsAbove_bareArena forest.arena ancestor forest.size x
  cases slot with
  | none => rfl
  | some target =>
      unfold checkMove
      simp only [checkParent_bare, hbelow]
      rfl

/-!
# Properties of one node
-/

theorem rewritten_modifyProperties (forest : Forest) (x : NodeId)
    (change : Properties → Properties) :
    Rewritten forest x change (forest.modifyProperties x change) where
  registry := rfl
  options := rfl
  roots := rfl
  nextCount := rfl
  others := by
    intro y hy
    unfold find?
    rw [modifyProperties_find]
    simp only [if_neg hy]
    cases forest.arena[y]? <;> rfl
  node := by
    unfold find?
    rw [modifyProperties_find]
    simp only [if_pos]

theorem rewritten_of_missing (h : forest.find? x = none)
    (change : Properties → Properties) : Rewritten forest x change forest where
  registry := rfl
  options := rfl
  roots := rfl
  nextCount := rfl
  others := fun _ _ => rfl
  node := by
    rw [h]
    rfl

theorem Rewritten.bare {change : Properties → Properties}
    (h : Rewritten forest x change other) : other.bare = forest.bare := by
  have harena : bareArena other.arena = bareArena forest.arena := by
    apply Std.ExtHashMap.ext_getElem?
    intro y
    rw [bareArena_find, bareArena_find]
    by_cases hy : y = x
    · subst hy
      have hnode : other.arena[y]? = _ := h.node
      rw [hnode, Option.map_map]
      rfl
    · exact congrArg (Option.map Node.bare) (h.others y hy)
  unfold Forest.bare
  rw [h.registry, h.options, h.roots, h.nextCount, harena]

theorem bare_modifyProperties (forest : Forest) (x : NodeId)
    (change : Properties → Properties) :
    (forest.modifyProperties x change).bare = forest.bare :=
  (rewritten_modifyProperties forest x change).bare

/-!
# Changes
-/

theorem bare_place (forest : Forest) (type : NodeType) (properties : Properties)
    (slot : Option NodeId) :
    (forest.place type properties slot).bare = forest.bare.place type ∅ slot := by
  unfold place attach
  rw [bare_modifySiblings]
  unfold bare
  simp only
  rw [bareArena_insert]
  rfl

theorem erase_bareArena (steps : Nat) (stack : List NodeId) (count : Nat)
    (arena : Arena) :
    erase steps stack count (bareArena arena) =
      ((erase steps stack count arena).1,
        bareArena (erase steps stack count arena).2) := by
  induction steps generalizing stack count arena with
  | zero => rfl
  | succ steps ih =>
      cases stack with
      | nil => rfl
      | cons x rest =>
          unfold erase
          rw [bareArena_find]
          cases arena[x]? with
          | none => exact ih rest count arena
          | some node =>
              show erase steps (node.children.reverse ++ rest) (count + 1)
                ((bareArena arena).erase x) = _
              rw [← bareArena_erase]
              exact ih _ _ _

theorem cut_bare (forest : Forest) (node : Node) :
    forest.bare.cut node.bare =
      ((forest.cut node).1, (forest.cut node).2.bare) := by
  have hdetached : forest.bare.detach node.bare.id node.bare.parent =
      (forest.detach node.id node.parent).bare :=
    (bare_modifySiblings forest node.parent _).symm
  unfold cut
  rw [hdetached, size_bare]
  simp only [bare, erase_bareArena]
  rfl

theorem bare_relocate (forest : Forest) (node : Node) (slot : Option NodeId)
    (index : Option Nat) :
    (forest.relocate node slot index).bare =
      forest.bare.relocate node.bare slot index := by
  unfold relocate
  have hmoved : (forest.bare.detach node.bare.id node.bare.parent).attach
      node.bare.id slot index =
        ((forest.detach node.id node.parent).attach node.id slot index).bare := by
    unfold detach attach
    rw [bare_modifySiblings, bare_modifySiblings]
    rfl
  rw [hmoved]
  exact congrArg
    (fun arena => { (forest.detach node.id node.parent).attach node.id slot
      index with arena })
    (bareArena_modify _ node.id (fun node => { node with parent := slot })
      fun _ => rfl)

/-- What a copy has made so far, without properties. -/
def Copy.bare (copy : Copy) : Copy := { copy with arena := bareArena copy.arena }

@[simp] theorem Copy.bare_bare (copy : Copy) : copy.bare.bare = copy.bare := by
  unfold Copy.bare
  rw [bareArena_bareArena]

theorem Copy.bare_add (node : Node) (parent : Option NodeId) (copy : Copy) :
    (copy.add node parent).bare = copy.bare.add node.bare parent := by
  rcases copy with ⟨arena, nextCount, top⟩
  have hlink : bareArena (link top parent (NodeId.generate node.type nextCount)
      arena) =
        link top parent (NodeId.generate node.type nextCount)
          (bareArena arena) := by
    cases top with
    | none => rfl
    | some _ =>
        cases parent with
        | none => rfl
        | some p => exact bareArena_modify arena p _ fun _ => rfl
  unfold Copy.add Copy.bare
  simp only
  rw [bareArena_insert, hlink]
  rfl

theorem Copy.run_bare (steps : Nat) (stack : List (NodeId × Option NodeId))
    (copy : Copy) :
    Copy.run steps stack copy.bare = (Copy.run steps stack copy).bare := by
  induction steps generalizing stack copy with
  | zero => rfl
  | succ steps ih =>
      rcases stack with _ | ⟨⟨source, parent⟩, rest⟩
      · rfl
      · unfold Copy.run
        have hfind : copy.bare.arena[source]? =
            (copy.arena[source]?).map Node.bare := bareArena_find copy.arena source
        rw [hfind]
        cases copy.arena[source]? with
        | none => exact ih rest copy
        | some node =>
            show Copy.run steps _ (copy.bare.add node.bare parent) = _
            rw [← Copy.bare_add]
            exact ih _ _

theorem bare_graft (forest : Forest) (source : Node) (copy : Copy) (x : NodeId) :
    (forest.graft source copy x).bare =
      forest.bare.graft source.bare copy.bare x := by
  unfold graft
  rw [bare_modifySiblings]
  rfl

theorem copySubtree_bare (forest : Forest) (source : Node) :
    forest.bare.copySubtree source.bare = (forest.copySubtree source).bare := by
  unfold copySubtree
  rw [size_bare]
  exact Copy.run_bare _ _ ⟨forest.arena, forest.nextCount, none⟩

/-!
# Edits
-/

theorem edit?_bare (forest : Forest) (request : Edit) :
    (forest.bare.edit? request).map (Prod.map id bare) =
      (forest.edit? request).map (Prod.map id bare) := by
  cases request with
  | insert type parent =>
      simp only [edit?, insert, registry_bare, nextCount_bare, checkInsert_bare]
      cases forest.registry.find? type with
      | none => rfl
      | some descriptor =>
          cases forest.checkInsert type parent with
          | error e => rfl
          | ok slot => simp [Except.map, bare_place]
  | replaceProperties x properties =>
      simp only [edit?, replaceProperties, contains_bare]
      split
      · simp [Except.map, bare_modifyProperties]
      · rfl
  | setProperty x key value =>
      simp only [edit?, setProperty, contains_bare]
      split
      · simp [Except.map, bare_modifyProperties]
      · rfl
  | delete x =>
      simp only [edit?, delete, find?_bare]
      cases forest.find? x with
      | none => rfl
      | some node => simp [Except.map, cut_bare]
  | move x parent index =>
      simp only [edit?, move, find?_bare]
      cases forest.find? x with
      | none => rfl
      | some node =>
          simp only [Option.map_some, checkMove_bare]
          cases forest.checkMove node parent with
          | error e => rfl
          | ok slot => simp [Except.map, bare_relocate]
  | duplicate x =>
      simp only [edit?, duplicate, find?_bare]
      cases forest.find? x with
      | none => rfl
      | some source =>
          simp only [Option.map_some, copySubtree_bare]
          have htop : (forest.copySubtree source).bare.top =
              (forest.copySubtree source).top := rfl
          rw [htop]
          cases (forest.copySubtree source).top with
          | none => rfl
          | some top => simp [Except.map, bare_graft]

/-- What an edit answers and leaves depends on the bare forest alone. -/
theorem edit_of_bare_eq (h : forest.bare = other.bare) (request : Edit) :
    (forest.edit request).answer = (other.edit request).answer ∧
      (forest.edit request).forest.bare = (other.edit request).forest.bare := by
  have hsame : (forest.edit? request).map (Prod.map id bare) =
      (other.edit? request).map (Prod.map id bare) := by
    rw [← edit?_bare, h, edit?_bare]
  unfold edit
  cases hedit : forest.edit? request with
  | error e =>
      rw [hedit] at hsame
      cases hother : other.edit? request with
      | error e' =>
          rw [hother] at hsame
          cases hsame
          exact ⟨rfl, h⟩
      | ok answer =>
          rw [hother] at hsame
          cases hsame
  | ok answer =>
      rw [hedit] at hsame
      cases hother : other.edit? request with
      | error e =>
          rw [hother] at hsame
          cases hsame
      | ok answer' =>
          rw [hother] at hsame
          rcases answer with ⟨result, changed⟩
          rcases answer' with ⟨result', changed'⟩
          rcases Prod.mk.inj (Except.ok.inj hsame) with ⟨hresult, hchanged⟩
          exact ⟨congrArg Except.ok hresult, hchanged⟩

theorem rewritten_replaceProperties (forest : Forest) (x : NodeId)
    (properties : Properties) :
    Rewritten forest x (fun _ => properties)
      (forest.edit (.replaceProperties x properties)).forest := by
  by_cases hx : forest.contains x = true
  · simp only [edit, edit?, replaceProperties, if_pos hx, Except.map]
    exact rewritten_modifyProperties forest x _
  · simp only [edit, edit?, replaceProperties, if_neg hx, Except.map]
    exact rewritten_of_missing
      (contains_eq_false_iff.mp (eq_false_of_ne_true hx)) _

theorem rewritten_setProperty (forest : Forest) (x : NodeId) (key : String)
    (value : PropertyValue) :
    Rewritten forest x (·.insert key value)
      (forest.edit (.setProperty x key value)).forest := by
  by_cases hx : forest.contains x = true
  · simp only [edit, edit?, setProperty, if_pos hx, Except.map]
    exact rewritten_modifyProperties forest x _
  · simp only [edit, edit?, setProperty, if_neg hx, Except.map]
    exact rewritten_of_missing
      (contains_eq_false_iff.mp (eq_false_of_ne_true hx)) _

theorem bare_edit_of_not_isStructural (h : ¬ request.isStructural = true)
    (forest : Forest) : (forest.edit request).forest.bare = forest.bare := by
  cases request with
  | replaceProperties x properties =>
      exact (rewritten_replaceProperties forest x properties).bare
  | setProperty x key value =>
      exact (rewritten_setProperty forest x key value).bare
  | insert _ _ | delete _ | move _ _ _ | duplicate _ => exact absurd rfl h

/-!
# Runs
-/

theorem run_of_bare_eq (h : forest.bare = other.bare) (requests : List Edit) :
    (forest.answers requests).filter (fun answer => answer.1.isStructural) =
        other.answers (requests.filter Edit.isStructural) ∧
      (forest.run requests).bare =
        (other.run (requests.filter Edit.isStructural)).bare := by
  induction requests generalizing forest other with
  | nil => exact ⟨rfl, h⟩
  | cons request rest ih =>
      by_cases hkind : request.isStructural = true
      · rcases edit_of_bare_eq h request with ⟨hanswer, hafter⟩
        rcases ih hafter with ⟨hanswers, hend⟩
        rw [List.filter_cons_of_pos hkind]
        refine ⟨?_, hend⟩
        unfold answers
        rw [List.filter_cons_of_pos (by exact hkind), hanswers, hanswer]
      · have hafter : (forest.edit request).forest.bare = other.bare :=
          (bare_edit_of_not_isStructural hkind forest).trans h
        rcases ih hafter with ⟨hanswers, hend⟩
        rw [List.filter_cons_of_neg hkind]
        refine ⟨?_, hend⟩
        rw [← hanswers]
        exact List.filter_cons_of_neg hkind

/-- Properties never influence structure.  Leave out the edits of properties
from any run of edits: the remaining ones answer the same, and the forest at the
end has the same nodes, roots and next count, up to properties.  And an edit of
properties, granted or refused, changes nothing but the properties of the node
that it names. -/
theorem structure_independent_of_properties (forest : Forest)
    (requests : List Edit) :
    (forest.answers requests).filter (fun answer => answer.1.isStructural) =
        forest.answers (requests.filter Edit.isStructural) ∧
      (forest.run requests).bare =
        (forest.run (requests.filter Edit.isStructural)).bare ∧
      forall id,
        (forall properties, Rewritten forest id (fun _ => properties)
          (forest.edit (.replaceProperties id properties)).forest) ∧
        forall key value, Rewritten forest id (·.insert key value)
          (forest.edit (.setProperty id key value)).forest := by
  rcases run_of_bare_eq (Eq.refl forest.bare) requests with ⟨hanswers, hend⟩
  exact ⟨hanswers, hend, fun id => ⟨rewritten_replaceProperties forest id,
    rewritten_setProperty forest id⟩⟩

end Forest

end MarkupForest
