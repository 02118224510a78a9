import MarkupForest.Proofs.Runs

/-!
# Edits in place

An edit can also be carried out step by step on a forest that is there once: it
looks up, checks, writes and looks up again.  Stopping with an error does not take
back what is written before.  The programs of this module do so, with each look-up,
check and write in its place.  On a forest that shows nested nodes they have the
answers of the edits and leave the same forests.
-/

namespace MarkupForest

namespace Forest

/-- A program that reads and writes a forest and may stop with an error. -/
abbrev Program (α : Type) := ExceptT EditError (StateM Forest) α

namespace Program

variable {α β : Type} {forest : Forest}

/-- How a program ends, and the forest that it leaves. -/
def run (program : Program α) (forest : Forest) : Except EditError α × Forest :=
  (ExceptT.run program).run forest

@[simp] theorem run_pure (a : α) (forest : Forest) :
    run (pure a) forest = (.ok a, forest) := rfl

@[simp] theorem run_bind (program : Program α) (next : α → Program β)
    (forest : Forest) :
    run (program >>= next) forest =
      match run program forest with
      | (.ok a, changed) => run (next a) changed
      | (.error e, changed) => (.error e, changed) := by
  show (ExceptT.run program >>= ExceptT.bindCont next).run forest = _
  rw [StateT.run_bind]
  show (ExceptT.bindCont next (run program forest).1).run (run program forest).2 = _
  rcases run program forest with ⟨answer, changed⟩
  cases answer with
  | ok a => rfl
  | error e => rfl

@[simp] theorem run_map (f : α → β) (program : Program α) (forest : Forest) :
    run (f <$> program) forest =
      ((run program forest).1.map f, (run program forest).2) := by
  rw [map_eq_pure_bind, run_bind]
  rcases run program forest with ⟨answer, changed⟩
  cases answer with
  | ok a => rfl
  | error e => rfl

@[simp] theorem run_get (forest : Forest) :
    run get forest = (.ok forest, forest) := rfl

@[simp] theorem run_modify (change : Forest → Forest) (forest : Forest) :
    run (modify change) forest = (.ok ⟨⟩, change forest) := rfl

@[simp] theorem run_throw (e : EditError) (forest : Forest) :
    run (throw e : Program α) forest = (.error e, forest) := rfl

/-!
# Parts of edits
-/

/-- A value that has to be there. -/
def require (value? : Option α) (e : EditError) : Program α :=
  match value? with
  | some value => pure value
  | none => throw e

@[simp] theorem require_some (a : α) (e : EditError) :
    require (some a) e = pure a := rfl

@[simp] theorem require_none (e : EditError) :
    require (none : Option α) e = throw e := rfl

def generateId (type : NodeType) : Program NodeId := do
  let forest ← get
  modify fun forest => { forest with nextCount := forest.nextCount + 1 }
  return NodeId.generate type forest.nextCount

def putNode (node : Node) : Program Unit :=
  modify fun forest => { forest with arena := forest.arena.insert node.id node }

def changeNode (id : NodeId) (change : Node → Node) : Program Unit :=
  modify fun forest => { forest with arena := forest.arena.modify id change }

/-- The node under which a node of `type` may be placed. -/
def openParent (parent : NodeId) (type : NodeType) : Program NodeId := do
  let forest ← get
  let node ← require (forest.find? parent) (.parentNotFound parent)
  if forest.options.strictStructure then
    let descriptor ← require (forest.registry.find? node.type)
      (.unknownType node.type.name)
    if descriptor.isContainer then
      return node.id
    else
      throw (.invalidStructure parent type)
  else
    return node.id

def openSlot (type : NodeType) : Option NodeId → Program (Option NodeId)
  | none => return none
  | some parent => do
      let parent ← openParent parent type
      return some parent

/-- A place for the node at `id`, which may not go below itself. -/
def openTarget (id : NodeId) (node : Node) :
    Option NodeId → Program (Option NodeId)
  | none => return none
  | some target => do
      let parent ← openParent target node.type
      let forest ← get
      if forest.isSelfOrAncestor node.id parent then
        throw (.invalidMove id target)
      else
        return some parent

/-- Take the nodes on the stack and everything below them out, one at a time. -/
def erase : Nat → List NodeId → Nat → Program Nat
  | 0, _, count => return count
  | _ + 1, [], count => return count
  | steps + 1, id :: rest, count => do
      let forest ← get
      match forest.find? id with
      | some node =>
          modify fun forest => { forest with arena := forest.arena.erase id }
          erase steps (node.children.reverse ++ rest) (count + 1)
      | none => erase steps rest count

/-- List a copy under its parent, except for the first one. -/
def link (top parent : Option NodeId) (id : NodeId) : Program Unit :=
  match top, parent with
  | some _, some parent =>
      changeNode parent fun node => { node with children := node.children ++ [id] }
  | _, _ => return ⟨⟩

/-- Copy the nodes on the stack and everything below them, one at a time. -/
def copy : Nat → List (NodeId × Option NodeId) → Option NodeId →
    Program (Option NodeId)
  | 0, _, top => return top
  | _ + 1, [], top => return top
  | steps + 1, (source, parent) :: rest, top => do
      let forest ← get
      match forest.find? source with
      | some node =>
          let id ← generateId node.type
          link top parent id
          putNode { node with id, parent, children := [] }
          copy steps (node.children.map (·, some id) ++ rest) (top.or (some id))
      | none => copy steps rest top

/-!
# Edits
-/

def insert (parent : Option NodeId) (type : NodeType) : Program EditResult := do
  let forest ← get
  let descriptor ← require (forest.registry.find? type) (.unknownType type.name)
  let parent ← openSlot type parent
  let id ← generateId type
  putNode { id, type, properties := descriptor.defaults, parent, children := [] }
  modify (·.attach id parent none)
  return .created id

def changeProperties (id : NodeId) (change : Properties → Properties) :
    Program EditResult := do
  let forest ← get
  let _ ← require (forest.find? id) (.nodeNotFound id)
  changeNode id fun node => { node with properties := change node.properties }
  return .done

def delete (id : NodeId) : Program EditResult := do
  let forest ← get
  let node ← require (forest.find? id) (.nodeNotFound id)
  modify (·.detach node.id node.parent)
  let count ← erase forest.size [node.id] 0
  return .removed count

def move (id : NodeId) (parent : Option NodeId) (index : Option Nat) :
    Program EditResult := do
  let forest ← get
  let node ← require (forest.find? id) (.nodeNotFound id)
  let parent ← openTarget id node parent
  modify (·.detach node.id node.parent)
  modify (·.attach node.id parent index)
  changeNode node.id fun node => { node with parent }
  return .done

/-- The copies are written before the last look-up. -/
def duplicate (id : NodeId) : Program EditResult := do
  let forest ← get
  let node ← require (forest.find? id) (.nodeNotFound id)
  let top? ← copy forest.size [(node.id, node.parent)] none
  let top ← require top? (.nodeNotFound id)
  modify (·.modifySiblings node.parent (insertAfter id top))
  return .created top

def edit : Edit → Program EditResult
  | .insert type parent => insert parent type
  | .replaceProperties id properties => changeProperties id fun _ => properties
  | .setProperty id key value => changeProperties id (·.insert key value)
  | .delete id => delete id
  | .move id parent index => move id parent index
  | .duplicate id => duplicate id

/-!
# Checks and loops
-/

theorem run_openParent (forest : Forest) (parent : NodeId) (type : NodeType) :
    run (openParent parent type) forest = (forest.checkParent parent type, forest) := by
  unfold openParent checkParent
  cases hfind : forest.find? parent with
  | none => simp [hfind]
  | some node =>
      cases hstrict : forest.options.strictStructure with
      | false => simp [hfind, hstrict]
      | true =>
          cases htype : forest.registry.find? node.type with
          | none => simp [hfind, hstrict, htype]
          | some descriptor =>
              cases hopen : descriptor.isContainer with
              | false => simp [hfind, hstrict, htype, hopen]
              | true => simp [hfind, hstrict, htype, hopen]

theorem run_openSlot (forest : Forest) (type : NodeType) (parent : Option NodeId) :
    run (openSlot type parent) forest = (forest.checkInsert type parent, forest) := by
  cases parent with
  | none => rfl
  | some parent =>
      unfold openSlot checkInsert
      cases hparent : forest.checkParent parent type with
      | error e => simp [run_openParent, hparent, Except.map]
      | ok found => simp [run_openParent, hparent, Except.map]

theorem run_openTarget (forest : Forest) (node : Node) (parent : Option NodeId) :
    run (openTarget node.id node parent) forest =
      (forest.checkMove node parent, forest) := by
  cases parent with
  | none => rfl
  | some target =>
      unfold openTarget checkMove
      cases hparent : forest.checkParent target node.type with
      | error e => simp [run_openParent, hparent]
      | ok found =>
          cases hbelow : forest.isSelfOrAncestor node.id found with
          | false => simp [run_openParent, hparent, hbelow]
          | true => simp [run_openParent, hparent, hbelow]

theorem run_erase (steps : Nat) (stack : List NodeId) (count : Nat)
    (forest : Forest) :
    run (erase steps stack count) forest =
      (.ok (Forest.erase steps stack count forest.arena).1,
        { forest with arena := (Forest.erase steps stack count forest.arena).2 }) := by
  induction steps generalizing stack count forest with
  | zero => rfl
  | succ steps ih =>
      cases stack with
      | nil => rfl
      | cons id rest =>
          unfold erase Forest.erase
          rw [run_bind, run_get]
          cases hfind : forest.arena[id]? with
          | none => simp [find?, hfind, ih]
          | some node => simp [find?, hfind, ih]

theorem run_link (top parent : Option NodeId) (id : NodeId) (forest : Forest) :
    run (link top parent id) forest =
      (.ok ⟨⟩, { forest with arena := Copy.link top parent id forest.arena }) := by
  cases top with
  | none => rfl
  | some first => cases parent <;> rfl

theorem run_copy (steps : Nat) (stack : List (NodeId × Option NodeId))
    (top : Option NodeId) (forest : Forest) :
    let copied := Copy.run steps stack ⟨forest.arena, forest.nextCount, top⟩
    run (copy steps stack top) forest =
      (.ok copied.top,
        { forest with arena := copied.arena, nextCount := copied.nextCount }) := by
  induction steps generalizing stack top forest with
  | zero => rfl
  | succ steps ih =>
      cases stack with
      | nil => rfl
      | cons entry rest =>
          rcases entry with ⟨source, parent⟩
          unfold copy Copy.run
          rw [run_bind, run_get]
          cases hfind : forest.arena[source]? with
          | none => simp [find?, hfind, ih]
          | some node =>
              simp [find?, hfind, generateId, putNode, run_link, ih, Copy.nextId,
                Copy.add]

end Program

/-- Carry out an edit in place. -/
def editInPlace (forest : Forest) (request : Edit) :
    Except EditError EditResult × Forest :=
  (Program.edit request).run forest

/-!
# The same answers and forests
-/

variable {forest : Forest} {ss : List Snapshot}

theorem insert_inPlace (forest : Forest) (type : NodeType)
    (parent : Option NodeId) :
    forest.editInPlace (.insert type parent) =
      ((forest.edit (.insert type parent)).answer,
        (forest.edit (.insert type parent)).forest) := by
  unfold editInPlace Program.edit Program.insert Forest.edit edit? insert
  cases htype : forest.registry.find? type with
  | none => simp [htype, Except.map]
  | some descriptor =>
      cases hcheck : forest.checkInsert type parent with
      | error e => simp [htype, hcheck, Program.run_openSlot, Except.map]
      | ok slot =>
          simp [htype, hcheck, Program.run_openSlot, Program.generateId,
            Program.putNode, place, Except.map]

theorem run_changeProperties (forest : Forest) (id : NodeId)
    (change : Properties → Properties) :
    (Program.changeProperties id change).run forest =
      if forest.contains id then (.ok .done, forest.modifyProperties id change)
      else (.error (.nodeNotFound id), forest) := by
  have hmem : forest.contains id = (forest.find? id).isSome :=
    Std.ExtHashMap.contains_eq_isSome_getElem?
  unfold Program.changeProperties
  rw [hmem]
  cases hfind : forest.find? id with
  | none => simp [hfind]
  | some node => simp [hfind, Program.changeNode, modifyProperties, Except.map]

theorem replaceProperties_inPlace (forest : Forest) (id : NodeId)
    (properties : Properties) :
    forest.editInPlace (.replaceProperties id properties) =
      ((forest.edit (.replaceProperties id properties)).answer,
        (forest.edit (.replaceProperties id properties)).forest) := by
  unfold editInPlace Program.edit Forest.edit edit? replaceProperties
  rw [run_changeProperties]
  cases hmem : forest.contains id with
  | false => simp [hmem, Except.map]
  | true => simp [hmem, Except.map]

theorem setProperty_inPlace (forest : Forest) (id : NodeId) (key : String)
    (value : PropertyValue) :
    forest.editInPlace (.setProperty id key value) =
      ((forest.edit (.setProperty id key value)).answer,
        (forest.edit (.setProperty id key value)).forest) := by
  unfold editInPlace Program.edit Forest.edit edit? setProperty
  rw [run_changeProperties]
  cases hmem : forest.contains id with
  | false => simp [hmem, Except.map]
  | true => simp [hmem, Except.map]

theorem delete_inPlace (forest : Forest) (id : NodeId) :
    forest.editInPlace (.delete id) =
      ((forest.edit (.delete id)).answer, (forest.edit (.delete id)).forest) := by
  unfold editInPlace Program.edit Program.delete Forest.edit edit? delete
  cases hfind : forest.find? id with
  | none => simp [hfind, Except.map]
  | some node => simp [hfind, Program.run_erase, cut, Except.map]

theorem Shows.move_inPlace (h : Shows forest ss) (id : NodeId)
    (parent : Option NodeId) (index : Option Nat) :
    forest.editInPlace (.move id parent index) =
      ((forest.edit (.move id parent index)).answer,
        (forest.edit (.move id parent index)).forest) := by
  unfold editInPlace Program.edit Program.move Forest.edit edit? move
  cases hfind : forest.find? id with
  | none => simp [hfind, Except.map]
  | some node =>
      have hid : node.id = id := h.keyed hfind
      subst hid
      cases hcheck : forest.checkMove node parent with
      | error e => simp [hfind, hcheck, Program.run_openTarget, Except.map]
      | ok slot =>
          simp [hfind, hcheck, Program.run_openTarget, Program.changeNode, relocate,
            Except.map]

theorem Shows.duplicate_inPlace (h : Shows forest ss) (id : NodeId) :
    forest.editInPlace (.duplicate id) =
      ((forest.edit (.duplicate id)).answer,
        (forest.edit (.duplicate id)).forest) := by
  unfold editInPlace Program.edit Program.duplicate Forest.edit edit? duplicate
  cases hfind : forest.find? id with
  | none => simp [hfind, Except.map]
  | some source =>
      -- there is a copy, so the last look-up does not fail
      rcases h.exists_grown hfind with ⟨s, after, hid, hgrown⟩
      have hcopy := hgrown.copySubtree ((h.keyed hfind).trans hid.symm)
      have hrun := Program.run_copy forest.size [(source.id, source.parent)] none forest
      have hkey : source.id = id := h.keyed hfind
      subst hkey
      unfold copySubtree at hcopy
      simp only [hcopy] at hrun
      simp [hfind, hrun, copySubtree, hcopy, Except.map]
      rfl

/-- In place or not, an edit has the same answer and makes the same forest. -/
theorem Shows.editInPlace (h : Shows forest ss) (request : Edit) :
    forest.editInPlace request =
      ((forest.edit request).answer, (forest.edit request).forest) := by
  cases request with
  | insert type parent => exact insert_inPlace forest type parent
  | replaceProperties id properties =>
      exact replaceProperties_inPlace forest id properties
  | setProperty id key value => exact setProperty_inPlace forest id key value
  | delete id => exact delete_inPlace forest id
  | move id parent index => exact h.move_inPlace id parent index
  | duplicate id => exact h.duplicate_inPlace id

end Forest

end MarkupForest
