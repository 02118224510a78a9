import MarkupForest.Proofs.Runs

/-!
# Registered types

A node is inserted only when its type is registered, and no edit changes a type:
whatever else is written, the types in the arena are those that were inserted.
So the registry of a forest knows the type of every node.
-/

namespace MarkupForest

namespace Forest

/-- Every node of the arena has a registered type. -/
def Known (types : Registry) (arena : Arena) : Prop :=
  forall (x : NodeId) (node : Node), arena[x]? = some node →
    exists descriptor, types.find? node.type = some descriptor

variable {types : Registry} {arena changed : Arena} {forest after : Forest}
  {node : Node} {x : NodeId}

/-!
# Writes
-/

theorem Known.of_entries (h : Known types arena)
    (hentry : forall (x : NodeId) (node : Node), changed[x]? = some node →
      exists (y : NodeId) (old : Node), arena[y]? = some old ∧ node.type = old.type) :
    Known types changed := by
  intro x node hnode
  rcases hentry x node hnode with ⟨y, old, hold, htype⟩
  rw [htype]
  exact h y old hold

theorem Known.insert (h : Known types arena) {descriptor : Descriptor}
    (hknown : types.find? node.type = some descriptor) :
    Known types (arena.insert x node) := by
  intro y entry hentry
  rw [Std.ExtHashMap.getElem?_insert] at hentry
  split at hentry
  · cases hentry
    exact ⟨descriptor, hknown⟩
  · exact h y entry hentry

theorem Known.modify (h : Known types arena) {change : Node → Node}
    (hchange : forall entry, (change entry).type = entry.type) :
    Known types (arena.modify x change) := by
  apply h.of_entries
  intro y entry hentry
  rw [Std.ExtHashMap.getElem?_modify] at hentry
  split at hentry
  · rcases Option.map_eq_some_iff.mp hentry with ⟨old, hold, rfl⟩
    exact ⟨_, old, hold, hchange old⟩
  · exact ⟨y, entry, hentry, rfl⟩

theorem Known.modifySiblings (h : Known types forest.arena)
    (slot : Option NodeId) (change : List NodeId → List NodeId) :
    Known types (forest.modifySiblings slot change).arena := by
  cases slot with
  | none => exact h
  | some p => exact h.modify fun _ => rfl

theorem find_of_erase {steps : Nat} {stack : List NodeId} {count : Nat}
    (h : (Forest.erase steps stack count arena).2[x]? = some node) :
    arena[x]? = some node := by
  induction steps generalizing stack count arena with
  | zero => exact h
  | succ steps ih =>
      cases stack with
      | nil => exact h
      | cons y rest =>
          unfold Forest.erase at h
          split at h
          · have hleft := ih h
            rw [Std.ExtHashMap.getElem?_erase] at hleft
            split at hleft
            · cases hleft
            · exact hleft
          · exact ih h

theorem Known.erase (h : Known types arena) (steps : Nat)
    (stack : List NodeId) (count : Nat) :
    Known types (Forest.erase steps stack count arena).2 :=
  fun x node hnode => h x node (find_of_erase hnode)

theorem Known.add {copy : Copy} (h : Known types copy.arena)
    (hnode : copy.arena[x]? = some node) (parent : Option NodeId) :
    Known types (copy.add node parent).arena := by
  rcases h x node hnode with ⟨descriptor, hknown⟩
  have hlinked : forall id, Known types
      (Copy.link copy.top parent id copy.arena) := by
    intro id
    unfold Copy.link
    split
    · exact h.modify fun _ => rfl
    · exact h
  exact (hlinked (copy.nextId node)).insert hknown

theorem Known.copy {copy : Copy} (h : Known types copy.arena) (steps : Nat)
    (stack : List (NodeId × Option NodeId)) :
    Known types (Copy.run steps stack copy).arena := by
  induction steps generalizing stack copy with
  | zero => exact h
  | succ steps ih =>
      cases stack with
      | nil => exact h
      | cons entry rest =>
          rcases entry with ⟨source, parent⟩
          unfold Copy.run
          split
          · next node hnode => exact ih (h.add hnode parent) _
          · exact ih h rest

/-!
# Edits
-/

theorem Known.changes {request : Edit} {result : EditResult}
    (h : Known forest.registry forest.arena)
    (hchange : Changes forest request result after) :
    Known forest.registry after.arena := by
  cases hchange with
  | @insert type parent slot descriptor htype _ =>
      let id := NodeId.generate type forest.nextCount
      let grown : Forest :=
        { forest with
          arena := forest.arena.insert id
            { id, type, properties := descriptor.defaults, parent := slot
              children := [] }
          nextCount := forest.nextCount + 1 }
      have hgrown : Known forest.registry grown.arena := h.insert htype
      exact hgrown.modifySiblings slot _
  | replaceProperties _ => exact h.modify fun _ => rfl
  | setProperty _ => exact h.modify fun _ => rfl
  | delete _ => exact (h.modifySiblings _ _).erase _ _ _
  | move _ _ =>
      exact ((h.modifySiblings _ _).modifySiblings _ _).modify fun _ => rfl
  | @duplicate id top source _ _ =>
      let copy := forest.copySubtree source
      let grown : Forest :=
        { forest with arena := copy.arena, nextCount := copy.nextCount }
      have hstart : Known forest.registry
          (Copy.mk forest.arena forest.nextCount none).arena := h
      have hgrown : Known forest.registry grown.arena := hstart.copy _ _
      exact hgrown.modifySiblings source.parent _

theorem Known.edit (h : Known forest.registry forest.arena) (request : Edit) :
    Known (forest.edit request).forest.registry
      (forest.edit request).forest.arena := by
  cases hedit : forest.edit? request with
  | error e =>
      rw [edit_of_error hedit]
      exact h
  | ok answer =>
      rcases answer with ⟨result, changed⟩
      have hchange := changes_of_edit? hedit
      rw [edit_of_ok hedit]
      show Known changed.registry changed.arena
      rw [hchange.registry]
      exact h.changes hchange

theorem Known.run (h : Known forest.registry forest.arena)
    (requests : List Edit) :
    Known (forest.run requests).registry (forest.run requests).arena := by
  induction requests generalizing forest with
  | nil => exact h
  | cons request rest ih => exact ih (h.edit request)

/-- After every run of edits, the type of every node is registered. -/
theorem known_ofEdits (registry : Registry) (options : Options)
    (requests : List Edit) :
    Known (ofEdits registry options requests).registry
      (ofEdits registry options requests).arena := by
  apply Known.run
  intro x node hnode
  simp [Forest.empty] at hnode

end Forest

end MarkupForest
