import MarkupForest.Proofs.Reading
import MarkupForest.Render.Renderer

/-!
# The draft of nested nodes

The walk that renders a forest keeps pending nodes and closing lines on one
stack.  On nested nodes the same draft is given by recursion: what a node writes
before its children, the drafts of the children, the closing line.  The walk
agrees with the recursion whatever else is on its stack.
-/

namespace MarkupForest

namespace Render

open Snapshot (idsOfList idsOfList_node_cons)

namespace Draft

/-- One draft after another; nothing follows an error. -/
def append (first second : Draft) : Draft :=
  match first.error? with
  | some _ => first
  | none => second.prepend first.lines first.imports first.notices

/-- The draft of a single line. -/
def ofLine (line : Line) : Draft := ⟨[line], [], [], none⟩

theorem prepend_append (lines : List Line) (imports : List Import)
    (notices : List Notice) (first second : Draft) :
    (first.prepend lines imports notices).append second =
      (first.append second).prepend lines imports notices := by
  rcases first with ⟨_, _, _, error?⟩
  cases error? with
  | none => simp [append, prepend]
  | some e => rfl

@[simp] theorem empty_append (draft : Draft) :
    Draft.empty.append draft = draft := rfl

theorem append_assoc (first second third : Draft) :
    (first.append second).append third =
      first.append (second.append third) := by
  rcases first with ⟨lines, imports, notices, error?⟩
  cases error? with
  | none => exact prepend_append lines imports notices second third
  | some e => rfl

theorem ofLine_append (line : Line) (draft : Draft) :
    (ofLine line).append draft = draft.prepend [line] [] [] := rfl

theorem ofError_append (e : RenderError) (draft : Draft) :
    (ofError e).append draft = ofError e := rfl

@[simp] theorem append_empty (draft : Draft) :
    draft.append Draft.empty = draft := by
  rcases draft with ⟨lines, imports, notices, error?⟩
  cases error? with
  | none => simp [append, prepend, Draft.empty]
  | some e => rfl

theorem error?_append (first second : Draft) :
    (first.append second).error? = first.error?.or second.error? := by
  rcases first with ⟨lines, imports, notices, error?⟩
  cases error? with
  | none => rfl
  | some e => rfl

theorem append_ok_iff {first second : Draft} :
    (first.append second).error? = none ↔
      first.error? = none ∧ second.error? = none := by
  rw [error?_append, Option.or_eq_none_iff]

theorem append_lines {first second : Draft} (h : first.error? = none) :
    (first.append second).lines = first.lines ++ second.lines := by
  rcases first with ⟨lines, imports, notices, error?⟩
  cases h
  rfl

theorem append_imports {first second : Draft} (h : first.error? = none) :
    (first.append second).imports = first.imports ++ second.imports := by
  rcases first with ⟨lines, imports, notices, error?⟩
  cases h
  rfl

end Draft

/-!
# Whole texts
-/

/-- A text made of the lines of a preamble, a blank line and a body.  There is no
blank line where either of the two is missing. -/
structure Assembled (preamble : List String) (body text : String) : Prop where
  bare : preamble = [] → text = body
  front : preamble ≠ [] → body = "" → text = String.intercalate "\n" preamble
  whole : preamble ≠ [] → body ≠ "" →
    text = String.join (preamble.map (· ++ "\n")) ++ ("\n" ++ body)

theorem join_lines {lines : List String} (h : lines ≠ []) :
    String.join (lines.map (· ++ "\n")) = String.intercalate "\n" lines ++ "\n" := by
  induction lines with
  | nil => exact absurd rfl h
  | cons line rest ih =>
      cases rest with
      | nil => simp
      | cons next others =>
          rw [List.map_cons, String.join_cons, ih (List.cons_ne_nil next others),
            String.intercalate_cons_cons]
          simp only [String.append_assoc]

theorem assembled (preamble : List String) (body : String) :
    Assembled preamble body (assemble preamble body) := by
  constructor
  · rintro rfl
    rfl
  · intro hfront hbody
    unfold assemble
    simp [hfront, hbody]
  · intro hfront hbody
    have htext : assemble preamble body =
        String.intercalate "\n" preamble ++ "\n\n" ++ body := by
      unfold assemble
      simp [hfront, hbody]
    have hblank : "\n\n" = "\n" ++ "\n" := rfl
    rw [htext, join_lines hfront, hblank]
    simp only [String.append_assoc]

theorem Assembled.eq_behind_line {line body text : String}
    (h : Assembled [line] body text) :
    text = line ++ if body = "" then "" else "\n\n" ++ body := by
  by_cases hbody : body = ""
  · rw [if_pos hbody, String.append_empty]
    exact h.front (List.cons_ne_nil _ _) hbody
  · have hblank : "\n\n" = "\n" ++ "\n" := rfl
    rw [if_neg hbody, h.whole (List.cons_ne_nil _ _) hbody, hblank]
    simp only [List.map_cons, List.map_nil, String.join_cons, String.join_nil,
      String.append_empty, String.append_assoc]

namespace Draft

variable {profile : Profile} {draft : Draft} {text : String}

theorem answer_of_ok (hok : draft.error? = none) :
    (draft.report profile).answer = .ok (draft.text profile) := by
  unfold report
  rw [hok]

theorem ok_of_answer (h : (draft.report profile).answer = .ok text) :
    draft.error? = none := by
  cases herror : draft.error? with
  | none => rfl
  | some e => simp [report, herror] at h

theorem text_of_answer (h : (draft.report profile).answer = .ok text) :
    text = draft.text profile := by
  rw [answer_of_ok (ok_of_answer h)] at h
  exact (Except.ok.inj h).symm

theorem assembled_of_answer (h : (draft.report profile).answer = .ok text) :
    Assembled (profile.preamble (Imports.collect draft.imports))
      (String.intercalate "\n" (draft.lines.map (·.write profile.dialect))) text := by
  rw [text_of_answer h]
  exact assembled _ _

theorem exists_answer (profile : Profile) (hok : draft.error? = none) :
    exists text, (draft.report profile).answer = .ok text ∧
      Assembled (profile.preamble (Imports.collect draft.imports))
        (String.intercalate "\n" (draft.lines.map (·.write profile.dialect))) text :=
  ⟨draft.text profile, answer_of_ok hok, assembled_of_answer (answer_of_ok hok)⟩

end Draft

/-!
# Drafts by recursion
-/

/-- What is left to write once a node is visited: the drafts of its children
and its closing line, or nothing when it is closed already. -/
def Visit.finish (v : Visit) (children : Draft) : Draft :=
  match v.layout.closing with
  | some closing => children.append (Draft.ofLine closing)
  | none => Draft.empty

/-- The draft of a visited node. -/
def Visit.draft (v : Visit) (children : Draft) : Draft :=
  (v.finish children).prepend v.layout.opening v.imported.toList v.notices

section Closing

variable {v : Visit} {children : Draft}

theorem Visit.draft_open {closing : Line} (h : v.layout.closing = some closing)
    (hok : (v.draft children).error? = none) :
    children.error? = none ∧
      (v.draft children).lines =
        v.layout.opening ++ (children.lines ++ [closing]) ∧
      (v.draft children).imports = v.imported.toList ++ children.imports := by
  unfold Visit.draft Visit.finish at hok ⊢
  simp only [h] at hok ⊢
  have hchildren : children.error? = none :=
    (Draft.append_ok_iff.mp hok).left
  refine ⟨hchildren, ?_, ?_⟩
  · show v.layout.opening ++ (children.append (Draft.ofLine closing)).lines = _
    rw [Draft.append_lines hchildren]
    rfl
  · show v.imported.toList ++ (children.append (Draft.ofLine closing)).imports = _
    rw [Draft.append_imports hchildren]
    show _ ++ (children.imports ++ []) = _
    rw [List.append_nil]

theorem Visit.draft_closed (h : v.layout.closing = none) (children : Draft) :
    (v.draft children).lines = v.layout.opening ∧
      (v.draft children).imports = v.imported.toList := by
  unfold Visit.draft Visit.finish
  simp only [h]
  constructor
  · exact List.append_nil _
  · exact List.append_nil _

end Closing

section

variable (types : Registry) (profile : Profile)

mutual

/-- The draft of a snapshot at a depth and under a parent. -/
def draftOf (depth : Nat) (parent : Option NodeId) : Snapshot → Draft
  | .node id type properties below =>
      match types.find? type with
      | none => Draft.ofError (.unknownType type.name)
      | some descriptor =>
          (visitNode profile descriptor
            ((Snapshot.node id type properties below).toNode parent)
            depth).draft (draftOfList (depth + 1) (some id) below)

def draftOfList (depth : Nat) (parent : Option NodeId) : List Snapshot → Draft
  | [] => Draft.empty
  | s :: rest =>
      (draftOf depth parent s).append (draftOfList depth parent rest)

end

end

variable {types : Registry} {profile : Profile} {arena : Arena}
  {parent : Option NodeId} {ss : List Snapshot} {descriptor : Descriptor}

theorem draftOfList_cons (depth : Nat) (parent : Option NodeId) (s : Snapshot)
    (rest : List Snapshot) :
    draftOfList types profile depth parent (s :: rest) =
      (draftOf types profile depth parent s).append
        (draftOfList types profile depth parent rest) := rfl

theorem draftOfList_singleton (depth : Nat) (parent : Option NodeId)
    (s : Snapshot) :
    draftOfList types profile depth parent [s] =
      draftOf types profile depth parent s :=
  Draft.append_empty _

theorem draftOf_of_unknown {type : NodeType} (h : types.find? type = none)
    (depth : Nat) (parent : Option NodeId) (id : NodeId)
    (properties : Properties) (below : List Snapshot) :
    draftOf types profile depth parent (.node id type properties below) =
      Draft.ofError (.unknownType type.name) := by
  unfold draftOf
  rw [h]

theorem draftOf_of_known {type : NodeType}
    (h : types.find? type = some descriptor) (depth : Nat)
    (parent : Option NodeId) (id : NodeId) (properties : Properties)
    (below : List Snapshot) :
    draftOf types profile depth parent (.node id type properties below) =
      (visitNode profile descriptor
        ((Snapshot.node id type properties below).toNode parent)
        depth).draft (draftOfList types profile (depth + 1) (some id) below) := by
  unfold draftOf
  rw [h]

/-- The lines and imports of a draft without an error, node by node.  A node
either is closed at once, or encloses what is drafted for its children. -/
inductive Drafted (types : Registry) (profile : Profile) :
    Nat → Option NodeId → List Snapshot → List Line → List Import → Prop where
  | nil {depth : Nat} {parent : Option NodeId} :
      Drafted types profile depth parent [] [] []
  | closed {depth : Nat} {parent : Option NodeId} {id : NodeId}
      {type : NodeType} {properties : Properties} {below rest : List Snapshot}
      {descriptor : Descriptor} {lines : List Line} {imports : List Import} :
      types.find? type = some descriptor →
      (visitNode profile descriptor
        ((Snapshot.node id type properties below).toNode parent)
        depth).layout.closing = none →
      Drafted types profile depth parent rest lines imports →
      Drafted types profile depth parent (.node id type properties below :: rest)
        ((visitNode profile descriptor
          ((Snapshot.node id type properties below).toNode parent)
          depth).layout.opening ++ lines)
        ((visitNode profile descriptor
          ((Snapshot.node id type properties below).toNode parent)
          depth).imported.toList ++ imports)
  | opened {depth : Nat} {parent : Option NodeId} {id : NodeId}
      {type : NodeType} {properties : Properties} {below rest : List Snapshot}
      {descriptor : Descriptor} {closing : Line} {inner lines : List Line}
      {innerImports imports : List Import} :
      types.find? type = some descriptor →
      (visitNode profile descriptor
        ((Snapshot.node id type properties below).toNode parent)
        depth).layout.closing = some closing →
      Drafted types profile (depth + 1) (some id) below inner innerImports →
      Drafted types profile depth parent rest lines imports →
      Drafted types profile depth parent (.node id type properties below :: rest)
        ((visitNode profile descriptor
          ((Snapshot.node id type properties below).toNode parent)
          depth).layout.opening ++ (inner ++ [closing]) ++ lines)
        ((visitNode profile descriptor
          ((Snapshot.node id type properties below).toNode parent)
          depth).imported.toList ++ innerImports ++ imports)

theorem drafted_draftOfList (ss : List Snapshot) :
    forall depth parent,
      (draftOfList types profile depth parent ss).error? = none →
        Drafted types profile depth parent ss
          (draftOfList types profile depth parent ss).lines
          (draftOfList types profile depth parent ss).imports := by
  induction ss using Snapshot.nested_induction with
  | nil =>
      intro depth parent _
      exact Drafted.nil
  | cons id type properties below rest ihbelow ihrest =>
      intro depth parent hok
      rw [draftOfList_cons] at hok ⊢
      rcases Draft.append_ok_iff.mp hok with ⟨hfirst, hothers⟩
      have hrest := ihrest depth parent hothers
      rw [Draft.append_lines hfirst, Draft.append_imports hfirst]
      cases htype : types.find? type with
      | none =>
          rw [draftOf_of_unknown htype] at hfirst
          cases hfirst
      | some descriptor =>
          rw [draftOf_of_known htype] at hfirst ⊢
          cases hclosing : (visitNode profile descriptor
              ((Snapshot.node id type properties below).toNode parent)
              depth).layout.closing with
          | none =>
              rcases Visit.draft_closed hclosing
                (draftOfList types profile (depth + 1) (some id) below) with
                ⟨hlines, himports⟩
              rw [hlines, himports]
              exact Drafted.closed htype hclosing hrest
          | some closing =>
              rcases Visit.draft_open hclosing hfirst with
                ⟨hbelow, hlines, himports⟩
              rw [hlines, himports]
              exact Drafted.opened htype hclosing
                (ihbelow (depth + 1) (some id) hbelow) hrest

/-!
# The walk
-/

theorem visit_of_unknown {node : Node} {id : NodeId}
    (hfind : arena[id]? = some node) (h : types.find? node.type = none)
    (depth : Nat) :
    visit types profile arena id depth =
      .error (.unknownType node.type.name) := by
  unfold visit
  rw [hfind]
  simp only [h]

theorem visit_of_known {node : Node} {id : NodeId}
    (hfind : arena[id]? = some node)
    (h : types.find? node.type = some descriptor) (depth : Nat) :
    visit types profile arena id depth =
      .ok (visitNode profile descriptor node depth) := by
  unfold visit
  rw [hfind]
  simp only [h]

theorem pending_of_closing {node : Node} {depth : Nat} {closing : Line}
    (h : (visitNode profile descriptor node depth).layout.closing =
      some closing) :
    (visitNode profile descriptor node depth).pending depth =
      node.children.map (Pending.node · (depth + 1)) ++ [.line closing] := by
  have hchildren : (visitNode profile descriptor node depth).children =
      if (visitNode profile descriptor node depth).layout.closing.isSome then
        node.children
      else [] := rfl
  unfold Visit.pending
  rw [hchildren, h]
  rfl

theorem pending_of_closed {node : Node} {depth : Nat}
    (h : (visitNode profile descriptor node depth).layout.closing = none) :
    (visitNode profile descriptor node depth).pending depth = [] := by
  have hchildren : (visitNode profile descriptor node depth).children =
      if (visitNode profile descriptor node depth).layout.closing.isSome then
        node.children
      else [] := rfl
  unfold Visit.pending
  rw [hchildren, h]
  rfl

theorem stack_of_closing {id : NodeId} {type : NodeType}
    {properties : Properties} {below : List Snapshot} {depth : Nat}
    {closing : Line}
    (h : (visitNode profile descriptor
      ((Snapshot.node id type properties below).toNode parent)
      depth).layout.closing = some closing) (stack : List Pending) :
    (visitNode profile descriptor
        ((Snapshot.node id type properties below).toNode parent)
        depth).pending depth ++ stack =
      below.map (fun s => Pending.node s.id (depth + 1)) ++
        (.line closing :: stack) := by
  rw [pending_of_closing h]
  simp

/-- The walk writes the drafts of the held nodes on top of its stack, and goes
on with the rest. -/
theorem walk_held (h : Forest.Holds arena parent ss) (depth : Nat) :
    exists used, used ≤ 2 * (idsOfList ss).length ∧
      forall steps stack,
        walk types profile arena (used + steps)
            (ss.map (fun s => Pending.node s.id depth) ++ stack) =
          (draftOfList types profile depth parent ss).append
            (walk types profile arena steps stack) := by
  induction h generalizing depth with
  | nil =>
      refine ⟨0, Nat.le_refl _, ?_⟩
      intro steps stack
      rw [Nat.zero_add]
      rfl
  | @cons parent id type properties below rest hfind hbelow hrest ihbelow ihrest =>
      let node := (Snapshot.node id type properties below).toNode parent
      rw [idsOfList_node_cons, List.length_cons, List.length_append]
      cases htype : types.find? type with
      | none =>
          refine ⟨1, by omega, ?_⟩
          intro steps stack
          rw [draftOfList_cons, draftOf_of_unknown htype, Draft.ofError_append,
            Draft.ofError_append, Nat.add_comm 1 steps]
          simp only [List.map_cons, List.cons_append, Snapshot.id_node, walk]
          rw [visit_of_unknown hfind htype]
          rfl
      | some descriptor =>
          have hvisit : visit types profile arena id depth =
              .ok (visitNode profile descriptor node depth) :=
            visit_of_known hfind htype depth
          rcases ihrest depth with ⟨used, hused, hwalk⟩
          cases hclosing :
              (visitNode profile descriptor node depth).layout.closing with
          | none =>
              refine ⟨used + 1, by omega, ?_⟩
              intro steps stack
              rw [draftOfList_cons, draftOf_of_known htype, Draft.append_assoc,
                ← hwalk, Nat.add_right_comm]
              unfold Visit.draft Visit.finish
              rw [Draft.prepend_append]
              simp only [List.map_cons, List.cons_append, Snapshot.id_node, walk]
              rw [hvisit]
              simp only [pending_of_closed hclosing, hclosing, List.nil_append,
                Draft.empty_append, node]
          | some closing =>
              rcases ihbelow (depth + 1) with ⟨usedBelow, husedBelow, hwalkBelow⟩
              refine ⟨usedBelow + used + 2, by omega, ?_⟩
              intro steps stack
              have hsteps : usedBelow + used + 2 + steps =
                  usedBelow + (used + steps + 1) + 1 := by
                omega
              have hpending := stack_of_closing hclosing
                (rest.map (fun s => Pending.node s.id depth) ++ stack)
              rw [draftOfList_cons, draftOf_of_known htype, Draft.append_assoc,
                ← hwalk, hsteps]
              unfold Visit.draft Visit.finish
              rw [Draft.prepend_append]
              simp only [List.map_cons, List.cons_append, Snapshot.id_node, walk]
              rw [hvisit]
              simp only [hpending, hwalkBelow, walk, hclosing, node,
                Draft.append_assoc, Draft.ofLine_append]

theorem walk_nil (types : Registry) (profile : Profile) (arena : Arena)
    (steps : Nat) : walk types profile arena steps [] = Draft.empty := by
  cases steps <;> rfl

theorem walk_eq_draftOfList (h : Forest.Holds arena parent ss) {steps : Nat}
    (hsteps : 2 * (idsOfList ss).length ≤ steps) (depth : Nat) :
    walk types profile arena steps
        (ss.map fun s => Pending.node s.id depth) =
      draftOfList types profile depth parent ss := by
  rcases walk_held h depth with ⟨used, hused, hwalk⟩
  have hrun := hwalk (steps - used) []
  have htotal : used + (steps - used) = steps := by omega
  rw [htotal, walk_nil, List.append_nil, Draft.append_empty] at hrun
  exact hrun

theorem draft_of_held {forest : Forest}
    (h : Forest.Holds forest.arena parent ss)
    (hlen : (idsOfList ss).length ≤ forest.size) (r : Renderer)
    (profile : Profile) :
    r.draft profile forest (ss.map Snapshot.id) =
      draftOfList r.types profile 0 parent ss := by
  unfold Renderer.draft
  rw [List.map_map]
  exact walk_eq_draftOfList h (Nat.mul_le_mul_left 2 hlen) 0

theorem draft_of_subtree {forest : Forest} {slot : Option NodeId} {s : Snapshot}
    (h : Forest.Subtree forest slot s) (r : Renderer) (profile : Profile) :
    r.draft profile forest [s.id] = draftOf r.types profile 0 slot s := by
  have hlen : (idsOfList [s]).length ≤ forest.size := by
    rw [Snapshot.idsOfList_singleton]
    exact h.length_le
  rw [← draftOfList_singleton]
  exact draft_of_held h.held hlen r profile

theorem draft_of_roots {forest : Forest} (h : Forest.Shows forest ss)
    (r : Renderer) (profile : Profile) :
    r.draft profile forest forest.roots =
      draftOfList r.types profile 0 none ss := by
  rw [h.roots]
  exact draft_of_held h.held h.length_le r profile

end Render

end MarkupForest
