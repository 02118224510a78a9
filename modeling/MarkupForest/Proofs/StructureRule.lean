import MarkupForest.Proofs.Refusals
import MarkupForest.Proofs.WellFormed

/-!
# The structure rule

In a strict forest only containers own children.  An insert and a move ask for
it.  A duplicate does not ask: it lists copies under copies, and what the copies
own, their sources owned already.  `Forest.Owned` says of an arena that every
node with children has a container type.  Every write to the arena keeps it, so
every run of edits does.
-/

namespace MarkupForest

namespace Forest

open Snapshot (idsOfList renumberList)

/-- Every node with children has a container type. -/
def Owned (types : Registry) (arena : Arena) : Prop :=
  forall (x : NodeId) (node : Node), arena[x]? = some node →
    node.children ≠ [] → IsContainer types node.type

/-- Every type is registered, and where the structure rule is on, every node that
owns others is a container. -/
structure Structured (forest : Forest) : Prop where
  registered : forall id node, forest.find? id = some node →
    forest.registry.contains node.type = true
  containers : forest.options.strictStructure = true →
    forall id node, forest.find? id = some node →
      (node.hasChildren = true ∨
        exists x child, forest.find? x = some child ∧ child.parent = some id) →
      IsContainer forest.registry node.type

variable {types : Registry} {arena changed : Arena} {forest after : Forest}
  {ss : List Snapshot} {s : Snapshot} {slot parent : Option NodeId}
  {node : Node} {x y : NodeId} {request : Edit} {result : EditResult}

/-!
# Writes
-/

theorem Owned.of_entries (h : Owned types arena)
    (hentry : forall (x : NodeId) (node : Node), changed[x]? = some node →
      exists (y : NodeId) (old : Node), arena[y]? = some old ∧
        node.type = old.type ∧ (old.children = [] → node.children = [])) :
    Owned types changed := by
  intro x node hnode hchildren
  rcases hentry x node hnode with ⟨y, old, hold, htype, hleaf⟩
  rw [htype]
  exact h y old hold fun hnone => hchildren (hleaf hnone)

theorem Owned.insert_leaf (h : Owned types arena) (hleaf : node.children = []) :
    Owned types (arena.insert x node) := by
  intro y entry hentry hchildren
  rw [Std.ExtHashMap.getElem?_insert] at hentry
  split at hentry
  · cases hentry
    exact absurd hleaf hchildren
  · exact h y entry hentry hchildren

theorem Owned.modify (h : Owned types arena) {change : Node → Node}
    (htype : forall entry, (change entry).type = entry.type)
    (hchildren : forall entry, (change entry).children = entry.children) :
    Owned types (arena.modify x change) := by
  apply h.of_entries
  intro y entry hentry
  rw [Std.ExtHashMap.getElem?_modify] at hentry
  split at hentry
  · rcases Option.map_eq_some_iff.mp hentry with ⟨old, hold, rfl⟩
    exact ⟨_, old, hold, htype old, fun hnone => (hchildren old).trans hnone⟩
  · exact ⟨y, entry, hentry, rfl, fun hnone => hnone⟩

theorem Owned.modifySiblings (h : Owned types forest.arena)
    {change : List NodeId → List NodeId}
    (howner : forall p above, slot = some p → forest.arena[p]? = some above →
      change above.children ≠ [] → IsContainer types above.type) :
    Owned types (forest.modifySiblings slot change).arena := by
  intro y entry hentry hchildren
  rw [modifySiblings_find] at hentry
  split at hentry
  · next hslot =>
      rcases Option.map_eq_some_iff.mp hentry with ⟨old, hold, rfl⟩
      exact howner y old hslot hold hchildren
  · exact h y entry hentry hchildren

theorem Owned.detach (h : Owned types forest.arena) (x : NodeId)
    (slot : Option NodeId) : Owned types (forest.detach x slot).arena := by
  apply h.modifySiblings
  intro p above _ habove hleft
  refine h p above habove ?_
  intro hnone
  rw [hnone] at hleft
  exact hleft rfl

theorem Owned.erase (h : Owned types arena) (steps : Nat)
    (stack : List NodeId) (count : Nat) :
    Owned types (Forest.erase steps stack count arena).2 :=
  fun x node hnode => h x node (find_of_erase hnode)

/-!
# Places
-/

theorem open_of_checkParent (hknown : Known forest.registry forest.arena)
    {p q : NodeId} {type : NodeType}
    (hcheck : forest.checkParent p type = .ok q) : OpenParent forest p := by
  rcases checkParent_cases hknown p type with hopen | ⟨e, _, herror⟩
  · exact hopen
  · rw [hcheck] at herror
    cases herror

theorem Shows.open_of_checkInsert (h : Shows forest ss)
    (hknown : Known forest.registry forest.arena) {type : NodeType}
    (hcheck : forest.checkInsert type parent = .ok slot) :
    forall p, slot = some p → OpenParent forest p := by
  intro p hp
  have hslot := (h.slot_of_checkInsert hcheck).left
  rw [hp] at hslot
  cases hslot
  simp only [checkInsert] at hcheck
  cases hparent : forest.checkParent p type with
  | error e => simp [hparent, Except.map] at hcheck
  | ok q => exact open_of_checkParent hknown hparent

theorem Shows.open_of_checkMove (h : Shows forest ss)
    (hknown : Known forest.registry forest.arena)
    (hcheck : forest.checkMove node parent = .ok slot) :
    forall p, slot = some p → OpenParent forest p := by
  intro p hp
  have hslot := (h.slot_of_checkMove hcheck).left
  rw [hp] at hslot
  cases hslot
  simp only [checkMove] at hcheck
  cases hparent : forest.checkParent p node.type with
  | error e => simp [hparent] at hcheck
  | ok q => exact open_of_checkParent hknown hparent

theorem OpenParent.isContainer (h : OpenParent forest x)
    (hstrict : forest.options.strictStructure = true)
    (hfind : forest.arena[x]? = some node) :
    IsContainer forest.registry node.type := by
  rcases h with ⟨above, habove, hopen⟩
  rw [find?, hfind] at habove
  cases habove
  exact hopen hstrict

/-!
# Copies
-/

theorem Holds.exists_source (h : Holds arena parent ss) {count : Nat}
    (hcopies : Holds changed slot (renumberList count ss))
    (hy : y ∈ idsOfList (renumberList count ss))
    (hfind : changed[y]? = some node) :
    exists (x : NodeId) (old : Node), arena[x]? = some old ∧
      node.type = old.type ∧ (old.children = [] → node.children = []) := by
  induction h generalizing count slot with
  | nil => simp at hy
  | @cons parent id type properties below rest hentry hbelow hrest ihbelow ihrest =>
      rw [Snapshot.renumberList_node_cons] at hcopies hy
      rw [Snapshot.idsOfList_node_cons, List.mem_cons, List.mem_append] at hy
      cases hcopies with
      | cons hself hcopiesBelow hcopiesRest =>
          rcases hy with rfl | hy | hy
          · rw [hself, Option.some_inj] at hfind
            refine ⟨id, _, hentry, hfind ▸ rfl, ?_⟩
            intro hnone
            rw [Snapshot.toNode_children, List.map_eq_nil_iff] at hnone
            rw [← hfind, hnone]
            rfl
          · exact ihbelow hcopiesBelow hy
          · exact ihrest hcopiesRest hy

theorem Shows.owned_graft {copied : Arena} (h : Shows forest ss)
    (howned : Owned types forest.arena)
    (hfind : forest.arena[x]? = some node)
    (hgrown : Grown forest node s copied) :
    Owned types (forest.withCopy node s copied).arena := by
  have hids := Snapshot.idsOfList_singleton (s.renumber forest.nextCount)
  have hcopied : Owned types copied := by
    apply howned.of_entries
    intro y entry hentry
    by_cases hy : y ∈ (s.renumber forest.nextCount).ids
    · rw [← hids] at hy
      exact hgrown.held.exists_source
        (hgrown.copies : Holds _ _ (renumberList forest.nextCount [s])) hy hentry
    · rw [hgrown.frame y hy] at hentry
      exact ⟨y, entry, hentry, rfl, fun hnone => hnone⟩
  rcases h.toLinks.mem_siblings (h.complete x (mem_of_entry hfind)) hfind with
    ⟨hslot, hlisted⟩
  let grown : Forest :=
    { forest with
      arena := copied, nextCount := forest.nextCount + s.ids.length }
  have hgrownOwned : Owned types grown.arena := hcopied
  apply hgrownOwned.modifySiblings
  intro p above hp habove _
  have hold : forest.arena[p]? = some above := by
    rw [← hgrown.frame p fun hcopy => h.not_mem_of_mem_renumber hcopy (hslot p hp)]
    exact habove
  refine howned p above hold ?_
  rw [hp, siblings_of_find hold] at hlisted
  exact List.ne_nil_of_mem hlisted

/-!
# Edits
-/

theorem Shows.owned_place (h : Shows forest ss) (hslot : SlotOf ss slot)
    (howned : Owned types forest.arena)
    (howner : forall p above, slot = some p → forest.arena[p]? = some above →
      IsContainer types above.type) (type : NodeType) (properties : Properties) :
    Owned types (forest.place type properties slot).arena := by
  let new := NodeId.generate type forest.nextCount
  let grown : Forest :=
    { forest with
      arena := forest.arena.insert new
        { id := new, type, properties, parent := slot, children := [] }
      nextCount := forest.nextCount + 1 }
  have hgrown : Owned types grown.arena := howned.insert_leaf rfl
  apply hgrown.modifySiblings
  intro p above hp habove _
  have hne : new ≠ p := by
    rintro rfl
    exact h.generate_not_mem type (hslot new hp)
  rw [Std.ExtHashMap.getElem?_insert, if_neg (by simpa using hne)] at habove
  exact howner p above hp habove

theorem Owned.relocate (h : Owned types forest.arena)
    (howner : forall p above, slot = some p → forest.arena[p]? = some above →
      IsContainer types above.type) (node : Node) (index : Option Nat) :
    Owned types (forest.relocate node slot index).arena := by
  have hattached : Owned types
      ((forest.detach node.id node.parent).attach node.id slot index).arena := by
    apply (h.detach node.id node.parent).modifySiblings
    intro p above hp habove _
    rcases exists_of_modifySiblings_find habove with ⟨old, hold, heq⟩
    rw [heq]
    exact howner p old hp hold
  exact hattached.modify (fun _ => rfl) fun _ => rfl

/-- An edit of a strict forest leaves children to containers. -/
theorem Shows.owned_changes (h : Shows forest ss)
    (hknown : Known forest.registry forest.arena)
    (hstrict : forest.options.strictStructure = true)
    (howned : Owned forest.registry forest.arena)
    (hchange : Changes forest request result after) :
    Owned forest.registry after.arena := by
  cases hchange with
  | @insert type parent slot descriptor _ hcheck =>
      refine h.owned_place (h.slot_of_checkInsert hcheck).right howned ?_ _ _
      intro p above hp habove
      exact (h.open_of_checkInsert hknown hcheck p hp).isContainer hstrict habove
  | replaceProperties _ => exact howned.modify (fun _ => rfl) fun _ => rfl
  | setProperty _ => exact howned.modify (fun _ => rfl) fun _ => rfl
  | delete _ => exact (howned.detach _ _).erase _ _ _
  | move _ hcheck =>
      refine howned.relocate ?_ _ _
      intro p above hp habove
      exact (h.open_of_checkMove hknown hcheck p hp).isContainer hstrict habove
  | @duplicate id top source hfind htop =>
      rcases h.exists_grown hfind with ⟨s, copied, hid, hgrown⟩
      rw [hgrown.copySubtree ((h.keyed hfind).trans hid.symm)] at htop ⊢
      cases htop
      exact h.owned_graft howned hfind hgrown

/-!
# Runs
-/

theorem Shows.owned_edit (h : Shows forest ss)
    (hknown : Known forest.registry forest.arena)
    (hstrict : forest.options.strictStructure = true)
    (howned : Owned forest.registry forest.arena) (request : Edit) :
    Owned (forest.edit request).forest.registry
      (forest.edit request).forest.arena := by
  cases hedit : forest.edit? request with
  | error e =>
      rw [edit_of_error hedit]
      exact howned
  | ok answer =>
      rcases answer with ⟨result, changed⟩
      have hchange := changes_of_edit? hedit
      rw [edit_of_ok hedit]
      show Owned changed.registry changed.arena
      rw [hchange.registry]
      exact h.owned_changes hknown hstrict howned hchange

theorem Shows.owned_run (h : Shows forest ss)
    (hknown : Known forest.registry forest.arena)
    (hstrict : forest.options.strictStructure = true)
    (howned : Owned forest.registry forest.arena) (requests : List Edit) :
    Owned (forest.run requests).registry (forest.run requests).arena := by
  induction requests generalizing forest ss with
  | nil => exact howned
  | cons request rest ih =>
      rcases h.edit request with ⟨ts, hts⟩
      exact ih hts (hknown.edit request)
        ((congrArg Options.strictStructure (edit_options forest request)).trans
          hstrict)
        (h.owned_edit hknown hstrict howned request)

theorem Shows.structured (h : Shows forest ss)
    (hknown : Known forest.registry forest.arena)
    (howned : forest.options.strictStructure = true →
      Owned forest.registry forest.arena) : Structured forest := by
  constructor
  · intro id node hfind
    rcases hknown id node hfind with ⟨descriptor, hdescriptor⟩
    exact Option.isSome_of_eq_some hdescriptor
  · intro hstrict id node hfind howner
    refine howned hstrict id node hfind ?_
    rcases howner with hchildren | ⟨x, child, hchild, hparent⟩
    · simpa [Node.hasChildren] using hchildren
    · have hlisted := (h.toLinks.mem_siblings
        (h.complete x (mem_of_entry hchild)) hchild).right
      rw [hparent, siblings_of_find hfind] at hlisted
      exact List.ne_nil_of_mem hlisted

theorem owned_ofEdits (registry : Registry) {options : Options}
    (hstrict : options.strictStructure = true) (requests : List Edit) :
    Owned (ofEdits registry options requests).registry
      (ofEdits registry options requests).arena := by
  apply (Shows.empty registry options).owned_run _ hstrict _ requests
  · exact known_ofEdits registry options []
  · intro x node hnode
    simp [Forest.empty] at hnode

theorem Owned.openParent (h : forest.options.strictStructure = true →
      Owned forest.registry forest.arena)
    (hlisted : y ∈ forest.siblings (some x)) : OpenParent forest x := by
  cases hfind : forest.find? x with
  | none => simp [siblings, hfind] at hlisted
  | some node =>
      rw [siblings_of_find hfind] at hlisted
      refine ⟨node, hfind, ?_⟩
      intro hstrict
      exact h hstrict x node hfind (List.ne_nil_of_mem hlisted)

/-- After every run of edits, all types are registered, and if the run started
with the structure rule on, only containers own children. -/
theorem ofEdits_structured (registry : Registry) (options : Options)
    (requests : List Edit) :
    (ofEdits registry options requests).registry = registry ∧
      (ofEdits registry options requests).options = options ∧
      Structured (ofEdits registry options requests) := by
  have hoptions : (ofEdits registry options requests).options = options :=
    run_options (Forest.empty registry options) requests
  refine ⟨ofEdits_registry registry options requests, hoptions, ?_⟩
  rcases exists_shows_ofEdits registry options requests with ⟨ss, h⟩
  refine h.structured (known_ofEdits registry options requests) ?_
  intro hstrict
  rw [hoptions] at hstrict
  exact owned_ofEdits registry hstrict requests

end Forest

end MarkupForest
