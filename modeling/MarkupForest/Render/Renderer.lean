import MarkupForest.Forest.Basic
import MarkupForest.Notice
import MarkupForest.Profile.Standard
import MarkupForest.Render.Layout

/-!
# Rendering forests

A rendering walks a forest with a stack of pending work: a node to visit, or a
line to write once everything before it is done.  Visiting a node writes the
lines in front of its children and puts the children and the closing line on
the stack.  Every node is put there once and adds at most one line, so twice as
many steps as there are nodes finish the walk.

The walk produces lines, imports and notices as data; the text is put together
at the end.
-/

namespace MarkupForest

namespace Render

/-- What a walk has produced, up to its end or the first error. -/
structure Draft where
  lines : List Line
  imports : List Import
  notices : List Notice
  error? : Option RenderError
  deriving DecidableEq

namespace Draft

protected def empty : Draft := ⟨[], [], [], none⟩

instance : Inhabited Draft := ⟨Draft.empty⟩

def ofError (e : RenderError) : Draft := ⟨[], [], [], some e⟩

def prepend (lines : List Line) (imports : List Import) (notices : List Notice)
    (draft : Draft) : Draft :=
  { draft with
    lines := lines ++ draft.lines
    imports := imports ++ draft.imports
    notices := notices ++ draft.notices }

end Draft

inductive Pending where
  | node (id : NodeId) (depth : Nat)
  | line (line : Line)
  deriving DecidableEq

structure Visit where
  layout : Layout
  imported : Option Import
  notices : List Notice
  children : List NodeId
  deriving DecidableEq

def droppedNotices (shape : ContentShape) (node : Node) : List Notice :=
  match shape with
  | .selfClosing =>
      if node.hasChildren then
        [.childrenDropped node.id node.type node.children.length]
      else
        []
  | _ => []

def visitNode (profile : Profile) (descriptor : Descriptor) (node : Node)
    (depth : Nat) : Visit :=
  let answer := profile.element descriptor node
  let element := answer.1
  let isGeneric := answer.2
  let layout :=
    Layout.ofElement element descriptor.shape isGeneric node depth
  { layout
    imported := element.imported
    notices :=
      (if isGeneric then [.renderedGenerically profile.id node.type] else []) ++
        droppedNotices descriptor.shape node
    children := if layout.closing.isSome then node.children else [] }

def visit (types : Registry) (profile : Profile) (arena : Arena) (id : NodeId)
    (depth : Nat) : Except RenderError Visit :=
  match arena[id]? with
  | none => .error (.nodeNotFound id)
  | some node =>
      match types.find? node.type with
      | none => .error (.unknownType node.type.name)
      | some descriptor => .ok (visitNode profile descriptor node depth)

def Visit.pending (v : Visit) (depth : Nat) : List Pending :=
  v.children.map (Pending.node · (depth + 1)) ++
    (v.layout.closing.map Pending.line).toList

/-- Work off a stack, in at most `steps` steps. -/
def walk (types : Registry) (profile : Profile) (arena : Arena) :
    Nat → List Pending → Draft
  | 0, _ => .empty
  | _ + 1, [] => .empty
  | steps + 1, .line line :: rest =>
      (walk types profile arena steps rest).prepend [line] [] []
  | steps + 1, .node id depth :: rest =>
      match visit types profile arena id depth with
      | .error e => .ofError e
      | .ok v =>
          (walk types profile arena steps (v.pending depth ++ rest)).prepend
            v.layout.opening v.imported.toList v.notices

def bodyText (dialect : Dialect) (lines : List Line) : String :=
  String.intercalate "\n" (lines.map (·.write dialect))

/-- The preamble and the body; a blank line separates them. -/
def assemble (preamble : List String) (body : String) : String :=
  let front := String.intercalate "\n" preamble
  if preamble.isEmpty then body
  else if body.isEmpty then front
  else front ++ "\n\n" ++ body

def Draft.text (profile : Profile) (draft : Draft) : String :=
  assemble (profile.preamble (Imports.collect draft.imports))
    (bodyText profile.dialect draft.lines)

structure Report where
  answer : Except RenderError String
  notices : List Notice

def Draft.report (profile : Profile) (draft : Draft) : Report where
  answer :=
    match draft.error? with
    | some e => .error e
    | none => .ok (draft.text profile)
  notices := draft.notices

end Render

structure Renderer where
  types : Registry
  profiles : ProfileRegistry

namespace Renderer

open Render

/-- Walk a forest from nodes at depth zero. -/
def draft (r : Renderer) (profile : Profile) (forest : Forest)
    (start : List NodeId) : Draft :=
  walk r.types profile forest.arena (2 * forest.size)
    (start.map (Pending.node · 0))

def render (r : Renderer) (forest : Forest) (profileId : String) : Report :=
  match r.profiles.get profileId with
  | .error e => ⟨.error e, []⟩
  | .ok profile => (r.draft profile forest forest.roots).report profile

/-- Render a node and everything below it as if it were a root. -/
def renderSubtree (r : Renderer) (forest : Forest) (id : NodeId)
    (profileId : String) : Report :=
  match r.profiles.get profileId with
  | .error e => ⟨.error e, []⟩
  | .ok profile =>
      if forest.contains id then
        (r.draft profile forest [id]).report profile
      else
        ⟨.error (.nodeNotFound id), []⟩

end Renderer

namespace Forest

/-- Render a forest with its own node types and the standard profiles. -/
def render (forest : Forest) (profileId : String) : Render.Report :=
  Renderer.render ⟨forest.registry, .standard⟩ forest profileId

end Forest

end MarkupForest
