import MarkupForest.Proofs.Printing

/-!
# The nodes that a rendering opens

`Render.tracedWalk` is the walk that also writes down which nodes it opens, and
`Render.markWalk` adds the lines that it has written when it comes to them.  On
nested nodes they are those that the recursive printer visits, unless the walk
meets a node of an unknown type.
-/

namespace MarkupForest

namespace Render

/-- The walk, and the nodes that it opens in the order in which it opens
them. -/
def tracedWalk (types : Registry) (profile : Profile) (arena : Arena) :
    Nat → List Pending → Draft × List NodeId
  | 0, _ => (.empty, [])
  | _ + 1, [] => (.empty, [])
  | steps + 1, .line line :: rest =>
      let traced := tracedWalk types profile arena steps rest
      (traced.1.prepend [line] [] [], traced.2)
  | steps + 1, .node id depth :: rest =>
      match visit types profile arena id depth with
      | .error e => (.ofError e, [])
      | .ok v =>
          let traced :=
            tracedWalk types profile arena steps (v.pending depth ++ rest)
          (traced.1.prepend v.layout.opening v.imported.toList v.notices,
            id :: traced.2)

/-- The nodes that the walk opens, each with all the lines before it, where the
lines `written` are there at the start. -/
def markWalk (types : Registry) (profile : Profile) (arena : Arena) :
    Nat → List Pending → List Line → List (NodeId × List Line)
  | 0, _, _ => []
  | _ + 1, [], _ => []
  | steps + 1, .line line :: rest, written =>
      markWalk types profile arena steps rest (written ++ [line])
  | steps + 1, .node id depth :: rest, written =>
      match visit types profile arena id depth with
      | .error _ => []
      | .ok v =>
          (id, written) ::
            markWalk types profile arena steps (v.pending depth ++ rest)
              (written ++ v.layout.opening)

/-- What is logged for an opened node. -/
def noticesOf (types : Registry) (profile : Profile) (node : Node) :
    List Notice :=
  match types.find? node.type with
  | none => []
  | some descriptor => (visitNode profile descriptor node 0).notices

end Render

namespace Renderer

open Render

/-- The nodes that are opened by the rendering of a forest. -/
def opened (r : Renderer) (profile : Profile) (forest : Forest) : List NodeId :=
  (tracedWalk r.types profile forest.arena (2 * forest.size)
    (forest.roots.map (Pending.node · 0))).2

/-- The nodes that are opened by a rendering that starts at these nodes, each with
the lines that are written before it. -/
def marksFrom (r : Renderer) (profile : Profile) (forest : Forest)
    (start : List NodeId) : List (NodeId × List Line) :=
  markWalk r.types profile forest.arena (2 * forest.size)
    (start.map (Pending.node · 0)) []

/-- The nodes that are opened by the rendering of a forest, each with the lines
that are written before it. -/
def marks (r : Renderer) (profile : Profile) (forest : Forest) :
    List (NodeId × List Line) :=
  markWalk r.types profile forest.arena (2 * forest.size)
    (forest.roots.map (Pending.node · 0)) []

end Renderer

namespace Render

open Snapshot (idsOfList idsOfList_node_cons)

variable {types : Registry} {profile : Profile} {arena : Arena}
  {parent : Option NodeId} {ss below rest : List Snapshot}
  {descriptor : Descriptor} {depth : Nat} {id : NodeId} {type : NodeType}
  {properties : Properties}

/-!
# The trace of the walk
-/

theorem tracedWalk_fst (steps : Nat) (stack : List Pending) :
    (tracedWalk types profile arena steps stack).1 =
      walk types profile arena steps stack := by
  induction steps generalizing stack with
  | zero => rfl
  | succ steps ih =>
      cases stack with
      | nil => rfl
      | cons first rest =>
          cases first with
          | line line =>
              show Draft.prepend _ _ _ _ = Draft.prepend _ _ _ _
              rw [ih]
          | node id depth =>
              unfold tracedWalk walk
              cases visit types profile arena id depth with
              | error e => rfl
              | ok v =>
                  show Draft.prepend _ _ _ _ = Draft.prepend _ _ _ _
                  rw [ih]

theorem map_fst_markWalk (steps : Nat) (stack : List Pending)
    (written : List Line) :
    (markWalk types profile arena steps stack written).map Prod.fst =
      (tracedWalk types profile arena steps stack).2 := by
  induction steps generalizing stack written with
  | zero => rfl
  | succ steps ih =>
      cases stack with
      | nil => rfl
      | cons first rest =>
          cases first with
          | line line => exact ih rest (written ++ [line])
          | node id depth =>
              unfold markWalk tracedWalk
              cases visit types profile arena id depth with
              | error e => rfl
              | ok v => exact congrArg (id :: ·) (ih _ _)

theorem visit_ok {v : Visit} (h : visit types profile arena id depth = .ok v) :
    exists node descriptor, arena[id]? = some node ∧
      types.find? node.type = some descriptor ∧
      v = visitNode profile descriptor node depth := by
  unfold visit at h
  cases hfind : arena[id]? with
  | none =>
      rw [hfind] at h
      cases h
  | some node =>
      rw [hfind] at h
      cases htype : types.find? node.type with
      | none =>
          simp only [htype] at h
          cases h
      | some descriptor =>
          simp only [htype, Except.ok.injEq] at h
          exact ⟨node, descriptor, rfl, htype, h.symm⟩

theorem closing_of_mem_pending {v : Visit} {line : Line}
    (h : .line line ∈ v.pending depth) : v.layout.closing = some line := by
  rcases List.mem_append.mp h with h | h
  · rcases List.mem_map.mp h with ⟨child, _, heq⟩
    cases heq
  · rcases Option.map_eq_some_iff.mp (Option.mem_toList.mp h) with
      ⟨closing, hclosing, heq⟩
    cases heq
    exact hclosing

/-- What all lines of the nodes have, and all lines on the stack, all lines of a
walk have, also up to an error. -/
theorem forall_lines_of_walk {P : Line → Prop}
    (hlayout : forall (id : NodeId) node descriptor depth, arena[id]? = some node →
      types.find? node.type = some descriptor →
        (forall line,
          line ∈ (visitNode profile descriptor node depth).layout.opening →
            P line) ∧
        forall line,
          (visitNode profile descriptor node depth).layout.closing = some line →
            P line)
    (steps : Nat) {stack : List Pending}
    (hstack : forall line, Pending.line line ∈ stack → P line) :
    forall line, line ∈ (walk types profile arena steps stack).lines → P line := by
  induction steps generalizing stack with
  | zero =>
      intro line hline
      cases hline
  | succ steps ih =>
      intro line hline
      cases stack with
      | nil => cases hline
      | cons first rest =>
          have hrest : forall line, Pending.line line ∈ rest → P line :=
            fun line hmem => hstack line (List.mem_cons_of_mem first hmem)
          cases first with
          | line written =>
              rcases List.mem_cons.mp hline with rfl | hline
              · exact hstack line List.mem_cons_self
              · exact ih hrest line hline
          | node id depth =>
              unfold walk at hline
              cases hvisit : visit types profile arena id depth with
              | error e =>
                  rw [hvisit] at hline
                  cases hline
              | ok v =>
                  rw [hvisit] at hline
                  rcases visit_ok hvisit with
                    ⟨node, descriptor, hfind, htype, rfl⟩
                  rcases hlayout id node descriptor depth hfind htype with
                    ⟨hopening, hclosing⟩
                  rcases List.mem_append.mp hline with hline | hline
                  · exact hopening line hline
                  · refine ih ?_ line hline
                    intro closing hmem
                    rcases List.mem_append.mp hmem with hmem | hmem
                    · exact hclosing closing (closing_of_mem_pending hmem)
                    · exact hrest closing hmem

theorem notices_of_trace (steps : Nat) (stack : List Pending) :
    (tracedWalk types profile arena steps stack).1.notices =
      ((tracedWalk types profile arena steps stack).2.filterMap
        (arena[·]?)).flatMap (noticesOf types profile) := by
  induction steps generalizing stack with
  | zero => rfl
  | succ steps ih =>
      cases stack with
      | nil => rfl
      | cons first rest =>
          cases first with
          | line line => exact ih rest
          | node id depth =>
              unfold tracedWalk
              cases hvisit : visit types profile arena id depth with
              | error e => rfl
              | ok v =>
                  rcases visit_ok hvisit with ⟨node, descriptor, hfind, htype, rfl⟩
                  have hself : noticesOf types profile node =
                      (visitNode profile descriptor node depth).notices := by
                    unfold noticesOf
                    rw [htype]
                    rfl
                  show _ ++ (tracedWalk types profile arena steps _).1.notices = _
                  rw [ih, List.filterMap_cons, hfind, List.flatMap_cons, hself]

/-!
# Nested nodes that can be rendered
-/

/-- Every node that is opened is of a known type.  Nothing is asked of the nodes
below one that closes itself. -/
inductive Renderable (types : Registry) : List Snapshot → Prop where
  | nil : Renderable types []
  | void {id : NodeId} {type : NodeType} {properties : Properties}
      {below rest : List Snapshot} {descriptor : Descriptor} :
      types.find? type = some descriptor →
      descriptor.shape = .selfClosing →
      Renderable types rest →
      Renderable types (.node id type properties below :: rest)
  | enclosing {id : NodeId} {type : NodeType} {properties : Properties}
      {below rest : List Snapshot} {descriptor : Descriptor} :
      types.find? type = some descriptor →
      descriptor.shape ≠ .selfClosing →
      Renderable types below →
      Renderable types rest →
      Renderable types (.node id type properties below :: rest)

theorem visited_of_void (htype : types.find? type = some descriptor)
    (hshape : descriptor.shape = .selfClosing) :
    Pretty.visited types parent (.node id type properties below) =
      [(Snapshot.node id type properties below).toNode parent] := by
  unfold Pretty.visited
  simp only [htype, hshape]

theorem visited_of_enclosing (htype : types.find? type = some descriptor)
    (hshape : descriptor.shape ≠ .selfClosing) :
    Pretty.visited types parent (.node id type properties below) =
      (Snapshot.node id type properties below).toNode parent ::
        Pretty.visitedOfList types (some id) below := by
  unfold Pretty.visited
  simp only [htype]

theorem error?_draftOf (htype : types.find? type = some descriptor) :
    (draftOf types profile depth parent
        (.node id type properties below)).error? =
      if descriptor.shape = .selfClosing then none
      else (draftOfList types profile (depth + 1) (some id) below).error? := by
  have hwritten := written_visitNode profile descriptor
    ((Snapshot.node id type properties below).toNode parent) depth
  rw [draftOf_of_known htype]
  unfold Visit.draft Visit.finish
  cases hwritten with
  | closed hshape hclosing hopening =>
      rw [hclosing, if_pos hshape]
      rfl
  | collapsed hshape hcollapsed hclosing hopening =>
      have hbelow : below = [] :=
        List.map_eq_nil_iff.mp (children_of_collapsed hcollapsed)
      rw [hclosing, hbelow, if_neg hshape]
      rfl
  | opened hshape hcollapsed hclosing hfinish hopening =>
      rw [hclosing, if_neg hshape]
      show (Draft.append _ _).error? = _
      rw [Draft.error?_append]
      exact Option.or_none

theorem draftOf_ok_iff (htype : types.find? type = some descriptor) :
    (draftOf types profile depth parent
        (.node id type properties below)).error? = none ↔
      descriptor.shape = .selfClosing ∨
        (draftOfList types profile (depth + 1) (some id) below).error? =
          none := by
  rw [error?_draftOf htype]
  by_cases hshape : descriptor.shape = .selfClosing
  · rw [if_pos hshape]
    exact iff_of_true rfl (Or.inl hshape)
  · rw [if_neg hshape]
    exact (or_iff_right hshape).symm

theorem draftOfList_ok_iff :
    (draftOfList types profile depth parent ss).error? = none ↔
      Renderable types ss := by
  induction ss using Snapshot.nested_induction generalizing depth parent with
  | nil => exact iff_of_true rfl Renderable.nil
  | cons id type properties below rest ihbelow ihrest =>
      rw [draftOfList_cons, Draft.append_ok_iff, ihrest]
      cases htype : types.find? type with
      | none =>
          rw [draftOf_of_unknown htype]
          refine iff_of_false (fun h => Option.some_ne_none _ h.left) ?_
          intro h
          cases h with
          | void hknown _ _ => exact Option.some_ne_none _ (hknown.symm.trans htype)
          | enclosing hknown _ _ _ =>
              exact Option.some_ne_none _ (hknown.symm.trans htype)
      | some descriptor =>
          rw [draftOf_ok_iff htype, ihbelow]
          constructor
          · rintro ⟨hself, hrest⟩
            by_cases hshape : descriptor.shape = .selfClosing
            · exact .void htype hshape hrest
            · exact .enclosing htype hshape (hself.resolve_left hshape) hrest
          · intro h
            cases h with
            | void hknown hshape hrest =>
                rw [htype] at hknown
                cases hknown
                exact ⟨Or.inl hshape, hrest⟩
            | enclosing hknown _ hbelow hrest => exact ⟨Or.inr hbelow, hrest⟩

/-!
# The marks of nested nodes
-/

section

variable (types : Registry) (profile : Profile)

mutual

/-- The nodes of a snapshot that are opened, each with the lines before it. -/
def marksOf (depth : Nat) (parent : Option NodeId) (written : List Line) :
    Snapshot → List (NodeId × List Line)
  | .node id type properties below =>
      match types.find? type with
      | none => []
      | some descriptor =>
          let layout := (visitNode profile descriptor
            ((Snapshot.node id type properties below).toNode parent) depth).layout
          (id, written) ::
            match layout.closing with
            | some _ =>
                marksOfList (depth + 1) (some id) (written ++ layout.opening) below
            | none => []

def marksOfList (depth : Nat) (parent : Option NodeId) (written : List Line) :
    List Snapshot → List (NodeId × List Line)
  | [] => []
  | s :: rest =>
      marksOf depth parent written s ++
        marksOfList depth parent
          (written ++ (draftOf types profile depth parent s).lines) rest

end

end

variable {written : List Line}

theorem marksOfList_cons (s : Snapshot) :
    marksOfList types profile depth parent written (s :: rest) =
      marksOf types profile depth parent written s ++
        marksOfList types profile depth parent
          (written ++ (draftOf types profile depth parent s).lines) rest := rfl

theorem marksOf_of_closed (htype : types.find? type = some descriptor)
    (hclosing : (visitNode profile descriptor
      ((Snapshot.node id type properties below).toNode parent)
      depth).layout.closing = none) :
    marksOf types profile depth parent written (.node id type properties below) =
      [(id, written)] := by
  unfold marksOf
  simp only [htype, hclosing]

theorem marksOf_of_open {closing : Line}
    (htype : types.find? type = some descriptor)
    (hclosing : (visitNode profile descriptor
      ((Snapshot.node id type properties below).toNode parent)
      depth).layout.closing = some closing) :
    marksOf types profile depth parent written (.node id type properties below) =
      (id, written) ::
        marksOfList types profile (depth + 1) (some id)
          (written ++ (visitNode profile descriptor
            ((Snapshot.node id type properties below).toNode parent)
            depth).layout.opening) below := by
  unfold marksOf
  simp only [htype, hclosing]

theorem map_fst_marksOfList
    (hok : (draftOfList types profile depth parent ss).error? = none) :
    (marksOfList types profile depth parent written ss).map Prod.fst =
      (Pretty.visitedOfList types parent ss).map Node.id := by
  induction ss using Snapshot.nested_induction generalizing depth parent written with
  | nil => rfl
  | cons id type properties below rest ihbelow ihrest =>
      rw [draftOfList_cons, Draft.append_ok_iff] at hok
      rcases hok with ⟨hfirst, hothers⟩
      rw [marksOfList_cons, visitedOfList_cons, List.map_append, List.map_append,
        ihrest hothers]
      congr 1
      cases htype : types.find? type with
      | none =>
          rw [draftOf_of_unknown htype] at hfirst
          cases hfirst
      | some descriptor =>
          rw [draftOf_of_known htype] at hfirst
          rw [visited_of_written htype (written_visitNode profile descriptor
            ((Snapshot.node id type properties below).toNode parent) depth)]
          cases hclosing : (visitNode profile descriptor
              ((Snapshot.node id type properties below).toNode parent)
              depth).layout.closing with
          | none =>
              rw [marksOf_of_closed htype hclosing]
              rfl
          | some closing =>
              rw [marksOf_of_open htype hclosing, List.map_cons, List.map_cons,
                ihbelow (Visit.draft_open hclosing hfirst).left]
              rfl

/-- The walk marks the held nodes on top of its stack, writes their drafts, and
goes on with the rest. -/
theorem markWalk_held (h : Forest.Holds arena parent ss)
    (hok : (draftOfList types profile depth parent ss).error? = none) :
    exists used, used ≤ 2 * (idsOfList ss).length ∧
      forall steps stack written,
        markWalk types profile arena (used + steps)
            (ss.map (fun s => Pending.node s.id depth) ++ stack) written =
          marksOfList types profile depth parent written ss ++
            markWalk types profile arena steps stack
              (written ++ (draftOfList types profile depth parent ss).lines) := by
  induction h generalizing depth with
  | nil =>
      refine ⟨0, Nat.le_refl _, ?_⟩
      intro steps stack written
      rw [Nat.zero_add]
      show _ = [] ++ markWalk _ _ _ _ _ (written ++ [])
      rw [List.append_nil]
      rfl
  | @cons parent id type properties below rest hfind hbelow hrest ihbelow ihrest =>
      let node := (Snapshot.node id type properties below).toNode parent
      rw [idsOfList_node_cons, List.length_cons, List.length_append]
      rw [draftOfList_cons, Draft.append_ok_iff] at hok
      rcases hok with ⟨hfirst, hothers⟩
      rcases ihrest hothers with ⟨used, hused, hmarks⟩
      rw [draftOfList_cons, Draft.append_lines hfirst]
      cases htype : types.find? type with
      | none =>
          rw [draftOf_of_unknown htype] at hfirst
          cases hfirst
      | some descriptor =>
          have hvisit : visit types profile arena id depth =
              .ok (visitNode profile descriptor node depth) :=
            visit_of_known hfind htype depth
          rw [draftOf_of_known htype] at hfirst
          cases hclosing :
              (visitNode profile descriptor node depth).layout.closing with
          | none =>
              have hlines := (Visit.draft_closed hclosing
                (draftOfList types profile (depth + 1) (some id) below)).left
              refine ⟨used + 1, by omega, ?_⟩
              intro steps stack written
              rw [marksOfList_cons, marksOf_of_closed htype hclosing,
                draftOf_of_known htype, hlines, Nat.add_right_comm]
              simp only [List.map_cons, List.cons_append, Snapshot.id_node,
                markWalk, hvisit, pending_of_closed hclosing, List.nil_append,
                hmarks, node, List.append_assoc]
          | some closing =>
              rcases Visit.draft_open hclosing hfirst with ⟨hinner, hlines, _⟩
              rcases ihbelow hinner with ⟨usedBelow, husedBelow, hmarksBelow⟩
              refine ⟨usedBelow + used + 2, by omega, ?_⟩
              intro steps stack written
              have hsteps : usedBelow + used + 2 + steps =
                  usedBelow + (used + steps + 1) + 1 := by
                omega
              have hpending := stack_of_closing hclosing
                (rest.map (fun s => Pending.node s.id depth) ++ stack)
              rw [marksOfList_cons, marksOf_of_open htype hclosing,
                draftOf_of_known htype, hlines, hsteps]
              simp only [List.map_cons, List.cons_append, Snapshot.id_node,
                markWalk, hvisit, node, hpending, hmarksBelow, hmarks,
                List.append_assoc]

theorem marks_of_held {forest : Forest}
    (h : Forest.Holds forest.arena parent ss)
    (hlen : (idsOfList ss).length ≤ forest.size) (r : Renderer)
    (profile : Profile) (hok : Renderable r.types ss) :
    r.marksFrom profile forest (ss.map Snapshot.id) =
      marksOfList r.types profile 0 parent [] ss := by
  have hdraft : (draftOfList r.types profile 0 parent ss).error? = none :=
    draftOfList_ok_iff.mpr hok
  rcases markWalk_held h hdraft with ⟨used, hused, hmarks⟩
  have hsteps : 2 * forest.size = used + (2 * forest.size - used) := by omega
  have hend : forall written, markWalk r.types profile forest.arena
      (2 * forest.size - used) [] written = [] := by
    intro written
    cases 2 * forest.size - used with
    | zero => rfl
    | succ left => rfl
  have hrun := hmarks (2 * forest.size - used) [] []
  rw [hend, List.append_nil, List.append_nil, ← hsteps] at hrun
  unfold Renderer.marksFrom
  rw [List.map_map]
  exact hrun

theorem marks_of_roots {forest : Forest} (h : Forest.Shows forest ss)
    (r : Renderer) (profile : Profile) (hok : Renderable r.types ss) :
    r.marks profile forest = marksOfList r.types profile 0 none [] ss := by
  rw [← marks_of_held h.held h.length_le r profile hok, ← h.roots]
  rfl

theorem opened_of_roots {forest : Forest} (h : Forest.Shows forest ss)
    (r : Renderer) (profile : Profile) (hok : Renderable r.types ss) :
    r.opened profile forest =
      (Pretty.visitedOfList r.types none ss).map Node.id := by
  have hmarked : (r.marks profile forest).map Prod.fst =
      r.opened profile forest := map_fst_markWalk _ _ _
  rw [← hmarked, marks_of_roots h r profile hok,
    map_fst_marksOfList (draftOfList_ok_iff.mpr hok)]

end Render

end MarkupForest
