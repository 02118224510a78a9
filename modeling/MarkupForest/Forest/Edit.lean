import MarkupForest.Error
import MarkupForest.Notice
import MarkupForest.Forest.Copy

/-!
# Edits

The operations that change a forest.  Each one first checks everything that
could refuse it and then builds the changed forest, so an error never comes
with a change.
-/

namespace MarkupForest

namespace Forest

/-! ## Checks -/

/--
The node under which a node of `type` may be placed.  The structure rule asks
that the type of that node is a container.
-/
def checkParent (forest : Forest) (parent : NodeId) (type : NodeType) :
    Except EditError NodeId :=
  match forest.find? parent with
  | none => .error (.parentNotFound parent)
  | some node =>
      if forest.options.strictStructure then
        match forest.registry.find? node.type with
        | none => .error (.unknownType node.type.name)
        | some descriptor =>
            if descriptor.isContainer then
              .ok node.id
            else
              .error (.invalidStructure parent type)
      else
        .ok node.id

/-- A place for a new node of `type`; the roots are always open. -/
def checkInsert (forest : Forest) (type : NodeType) :
    Option NodeId → Except EditError (Option NodeId)
  | none => .ok none
  | some parent => (forest.checkParent parent type).map some

/--
A place for a node that is moved.  It may not go below itself.
-/
def checkMove (forest : Forest) (node : Node) :
    Option NodeId → Except EditError (Option NodeId)
  | none => .ok none
  | some target =>
      match forest.checkParent target node.type with
      | .error e => .error e
      | .ok parent =>
          if forest.isSelfOrAncestor node.id parent then
            .error (.invalidMove node.id target)
          else
            .ok (some parent)

/-! ## Changes -/

/-- Add a node, last under its parent, under the next new identifier. -/
def place (forest : Forest) (type : NodeType) (properties : Properties)
    (parent : Option NodeId) : Forest :=
  let id := NodeId.generate type forest.nextCount
  let node : Node := { id, type, properties, parent, children := [] }
  let grown : Forest :=
    { forest with
      arena := forest.arena.insert id node
      nextCount := forest.nextCount + 1 }
  grown.attach id parent none

def modifyProperties (forest : Forest) (id : NodeId)
    (change : Properties → Properties) : Forest :=
  { forest with
    arena := forest.arena.modify id fun node =>
      { node with properties := change node.properties } }

/-- Erase the nodes on the stack and everything below them from the arena, in
at most `steps` steps, and count them on top of `count`. -/
def erase : Nat → List NodeId → Nat → Arena → Nat × Arena
  | 0, _, count, arena => (count, arena)
  | _ + 1, [], count, arena => (count, arena)
  | steps + 1, id :: rest, count, arena =>
      match arena[id]? with
      | some node =>
          erase steps (node.children.reverse ++ rest) (count + 1)
            (arena.erase id)
      | none => erase steps rest count arena

def cut (forest : Forest) (node : Node) : Nat × Forest :=
  let rest := forest.detach node.id node.parent
  let erased := erase forest.size [node.id] 0 rest.arena
  (erased.1, { rest with arena := erased.2 })

def relocate (forest : Forest) (node : Node) (parent : Option NodeId)
    (index : Option Nat) : Forest :=
  let moved := (forest.detach node.id node.parent).attach node.id parent index
  { moved with
    arena := moved.arena.modify node.id fun node => { node with parent } }

def graft (forest : Forest) (source : Node) (copy : Copy) (id : NodeId) :
    Forest :=
  let grown : Forest :=
    { forest with arena := copy.arena, nextCount := copy.nextCount }
  grown.modifySiblings source.parent (insertAfter source.id id)

/-! ## Operations -/

def insert (forest : Forest) (parent : Option NodeId) (type : NodeType) :
    Except EditError (NodeId × Forest) :=
  match forest.registry.find? type with
  | none => .error (.unknownType type.name)
  | some descriptor =>
      match forest.checkInsert type parent with
      | .error e => .error e
      | .ok place =>
          .ok (NodeId.generate type forest.nextCount,
            forest.place type descriptor.defaults place)

def replaceProperties (forest : Forest) (id : NodeId) (properties : Properties) :
    Except EditError Forest :=
  if forest.contains id then
    .ok (forest.modifyProperties id fun _ => properties)
  else
    .error (.nodeNotFound id)

def setProperty (forest : Forest) (id : NodeId) (key : String)
    (value : PropertyValue) : Except EditError Forest :=
  if forest.contains id then
    .ok (forest.modifyProperties id (·.insert key value))
  else
    .error (.nodeNotFound id)

/-- Remove a node and everything below it; the answer counts the nodes. -/
def delete (forest : Forest) (id : NodeId) : Except EditError (Nat × Forest) :=
  match forest.find? id with
  | none => .error (.nodeNotFound id)
  | some node => .ok (forest.cut node)

/--
Move a node with everything below it under another parent.  The index counts
the siblings at the destination without the node.
-/
def move (forest : Forest) (id : NodeId) (parent : Option NodeId)
    (index : Option Nat) : Except EditError Forest :=
  match forest.find? id with
  | none => .error (.nodeNotFound id)
  | some node =>
      match forest.checkMove node parent with
      | .error e => .error e
      | .ok place => .ok (forest.relocate node place index)

def duplicate (forest : Forest) (id : NodeId) :
    Except EditError (NodeId × Forest) :=
  match forest.find? id with
  | none => .error (.nodeNotFound id)
  | some source =>
      let copy := forest.copySubtree source
      match copy.top with
      | none => .error (.nodeNotFound id)
      | some top => .ok (top, forest.graft source copy top)

end Forest

/-! ## Edits as data -/

inductive Edit where
  | insert (type : NodeType) (parent : Option NodeId)
  | replaceProperties (id : NodeId) (properties : Properties)
  | setProperty (id : NodeId) (key : String) (value : PropertyValue)
  | delete (id : NodeId)
  | move (id : NodeId) (parent : Option NodeId) (index : Option Nat)
  | duplicate (id : NodeId)

inductive EditResult where
  | created (id : NodeId)
  | removed (count : Nat)
  | done
  deriving DecidableEq

namespace Edit

def notices : Edit → EditResult → List Notice
  | insert _ parent, .created id => [.inserted id parent]
  | replaceProperties id _, .done => [.propertiesReplaced id]
  | delete id, .removed count => [.deleted id count]
  | move id parent _, .done => [.moved id parent]
  | duplicate id, .created copy => [.duplicated id copy]
  | _, _ => []

end Edit

namespace Forest

def edit? (forest : Forest) : Edit → Except EditError (EditResult × Forest)
  | .insert type parent =>
      (forest.insert parent type).map fun answer =>
        (.created answer.1, answer.2)
  | .replaceProperties id properties =>
      (forest.replaceProperties id properties).map fun changed =>
        (.done, changed)
  | .setProperty id key value =>
      (forest.setProperty id key value).map fun changed => (.done, changed)
  | .delete id =>
      (forest.delete id).map fun answer => (.removed answer.1, answer.2)
  | .move id parent index =>
      (forest.move id parent index).map fun changed => (.done, changed)
  | .duplicate id =>
      (forest.duplicate id).map fun answer => (.created answer.1, answer.2)

/-- What came of an edit: the forest is as before when it was refused. -/
structure Outcome where
  answer : Except EditError EditResult
  forest : Forest
  notices : List Notice

def edit (forest : Forest) (request : Edit) : Outcome :=
  match forest.edit? request with
  | .ok (result, changed) => ⟨.ok result, changed, request.notices result⟩
  | .error e => ⟨.error e, forest, []⟩

/-- Carry out edits one after the other; refused ones are passed over. -/
def run (forest : Forest) (requests : List Edit) : Forest :=
  requests.foldl (fun forest request => (forest.edit request).forest) forest

end Forest

end MarkupForest
