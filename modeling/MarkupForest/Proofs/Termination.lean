import MarkupForest.Proofs.Contents
import MarkupForest.Proofs.Turns

/-!
# All loops come to their end

No loop over an arena remembers which nodes it has seen.  That it ends is due to
what its stack holds: nodes that the arena has with everything below them, and
none of them inside another one.  A turn takes one node off and puts the nodes
right below it on, so what the stack stands for gets less by this node.

The loops that change the arena which they read go on under the same condition.
An erased node is not looked for again, and what is new or changed after a copy
was not waiting on the stack.
-/

namespace MarkupForest

namespace Forest

open Snapshot (idsOfList)
open Loop

/-- The arena has the nodes of a stack with everything below them; all these are
`nodes`. -/
inductive Pends (arena : Arena) : List NodeId → List NodeId → Prop where
  | nil : Pends arena [] []
  | cons {slot : Option NodeId} {s : Snapshot} {stack nodes : List NodeId} :
      Holds arena slot [s] → Pends arena stack nodes →
      Pends arena (s.id :: stack) (s.ids ++ nodes)

variable {forest : Forest} {arena other : Arena} {parent : Option NodeId}
  {ss : List Snapshot} {s : Snapshot} {node : Node} {id x : NodeId}
  {stack rest nodes beside path : List NodeId}

/-!
# What a stack stands for
-/

theorem Holds.pends (h : Holds arena parent ss) :
    Pends arena (ss.map Snapshot.id) (idsOfList ss) := by
  rw [holds_iff_forall] at h
  induction ss with
  | nil => exact Pends.nil
  | cons s rest ih =>
      exact Pends.cons (h s List.mem_cons_self)
        (ih fun t ht => h t (List.mem_cons_of_mem s ht))

theorem Holds.pends_one (h : Holds arena parent [s]) : Pends arena [s.id] s.ids := by
  rw [← Snapshot.idsOfList_singleton]
  exact h.pends

namespace Pends

theorem append (h : Pends arena stack nodes) (hrest : Pends arena rest beside) :
    Pends arena (stack ++ rest) (nodes ++ beside) := by
  induction h with
  | nil => exact hrest
  | cons hheld _ ih =>
      rw [List.append_assoc]
      exact Pends.cons hheld ih

theorem reverse (h : Pends arena stack nodes) :
    exists others, Pends arena stack.reverse others ∧ others.Perm nodes := by
  induction h with
  | nil => exact ⟨[], Pends.nil, List.Perm.refl []⟩
  | @cons slot s stack nodes hheld _ ih =>
      rcases ih with ⟨others, hothers, hperm⟩
      refine ⟨others ++ s.ids, ?_, ?_⟩
      · rw [List.reverse_cons]
        exact hothers.append hheld.pends_one
      · exact (hperm.append_right _).trans List.perm_append_comm

theorem mem (h : Pends arena stack nodes) (hx : x ∈ nodes) : x ∈ arena := by
  induction h with
  | nil => cases hx
  | cons hheld _ ih =>
      rcases List.mem_append.mp hx with hx | hx
      · rw [← Snapshot.idsOfList_singleton] at hx
        exact hheld.mem hx
      · exact ih hx

theorem frame (h : Pends arena stack nodes)
    (hsame : forall y, y ∈ nodes → other[y]? = arena[y]?) :
    Pends other stack nodes := by
  induction h with
  | nil => exact Pends.nil
  | cons hheld _ ih =>
      refine Pends.cons (hheld.frame ?_) (ih ?_)
      · intro y hy
        rw [Snapshot.idsOfList_singleton] at hy
        exact hsame y (List.mem_append_left _ hy)
      · intro y hy
        exact hsame y (List.mem_append_right _ hy)

theorem pop (h : Pends arena (id :: rest) nodes) :
    exists node below beside, arena[id]? = some node ∧ node.id = id ∧
      nodes = id :: (below ++ beside) ∧ Pends arena node.children below ∧
      Pends arena rest beside := by
  cases h with
  | @cons slot s _ beside hheld hrest =>
      cases hheld with
      | @cons _ id type properties below _ hfind hbelow _ =>
          refine ⟨_, idsOfList below, beside, hfind, rfl, rfl, ?_, hrest⟩
          rw [Snapshot.toNode_children]
          exact hbelow.pends

end Pends

/-- A loop that takes a node off its stack in every turn. -/
theorem advances_of_pops {State : Type} {turn : Turn State}
    {left : State → List NodeId → Prop}
    (h : forall {state next item nodes}, left state nodes →
      turn state = some (item, next) →
      exists id rest, item = some id ∧ left next rest ∧
        (id :: rest).Subperm nodes) :
    Advances turn fun state nodes work =>
      left state nodes ∧ nodes.length = work := by
  rintro state next item nodes _ ⟨hleft, rfl⟩ hturn
  rcases h hleft hturn with ⟨id, rest, rfl, hnext, hnodes⟩
  exact ⟨rest, rest.length, ⟨hnext, rfl⟩, hnodes.length_le, hnodes⟩

/-!
# The way up
-/

/-- The nodes from one node up to a root. -/
inductive Lineage (arena : Arena) : Option NodeId → List NodeId → Prop where
  | top : Lineage arena none []
  | up {id : NodeId} {node : Node} {path : List NodeId} :
      arena[id]? = some node → Lineage arena node.parent path →
      Lineage arena (some id) (id :: path)

theorem Holds.exists_lineage (h : Holds arena parent ss)
    (hpath : Lineage arena parent path) (hx : x ∈ idsOfList ss) :
    exists longer, Lineage arena (some x) longer ∧
      longer.Subperm (path ++ idsOfList ss) := by
  induction h generalizing path with
  | nil => simp at hx
  | @cons parent id type properties below rest hfind hbelow hrest ihbelow ihrest =>
      have hself : Lineage arena (some id) (id :: path) := Lineage.up hfind hpath
      have hmiddle : forall others : List NodeId,
          (id :: path ++ others).Perm (path ++ id :: others) :=
        fun _ => List.perm_middle.symm
      rw [Snapshot.idsOfList_node_cons, List.mem_cons, List.mem_append] at hx
      rw [Snapshot.idsOfList_node_cons]
      rcases hx with rfl | hx | hx
      · exact ⟨x :: path, hself,
          (List.sublist_append_left _ _).subperm.trans (hmiddle _).subperm⟩
      · rcases ihbelow hself hx with ⟨longer, hlonger, hsub⟩
        refine ⟨longer, hlonger, (hsub.trans (hmiddle _).subperm).trans ?_⟩
        exact (((List.sublist_append_left _ _).cons_cons id).append_left
          path).subperm
      · rcases ihrest hpath hx with ⟨longer, hlonger, hsub⟩
        refine ⟨longer, hlonger, hsub.trans ?_⟩
        exact (((List.sublist_append_right _ _).cons id).append_left
          path).subperm

theorem climb_advances (arena : Arena) (ancestor : NodeId) :
    Advances (climbTurn arena ancestor) fun state nodes work =>
      Lineage arena state.1 nodes ∧ nodes.length = work := by
  apply advances_of_pops
  rintro ⟨current, met⟩ next item nodes hleft hturn
  cases hleft with
  | top => cases hturn
  | @up id node path hfind hpath =>
      cases hturn
      by_cases hid : id = ancestor
      · refine ⟨id, [], rfl, ?_, ?_⟩
        · simpa [hid] using Lineage.top
        · exact List.Sublist.subperm (by simp)
      · refine ⟨id, path, rfl, ?_, List.Subperm.refl _⟩
        simpa [hid, hfind] using hpath

/-!
# Traversals
-/

theorem visit_advances (arena : Arena) :
    Advances (visitTurn arena) fun state nodes work =>
      Pends arena (state.1.map Prod.snd) nodes ∧ nodes.length = work := by
  apply advances_of_pops
  rintro ⟨stack, rows⟩ next item nodes hleft hturn
  cases stack with
  | nil => cases hturn
  | cons entry rest =>
      rcases entry with ⟨depth, id⟩
      cases hturn
      rcases hleft.pop with ⟨node, below, beside, hfind, _, rfl, hbelow, hrest⟩
      refine ⟨id, below ++ beside, rfl, ?_, List.Subperm.refl _⟩
      simpa [hfind, Function.comp_def] using hbelow.append hrest

theorem tally_advances (arena : Arena) :
    Advances (tallyTurn arena) fun state nodes work =>
      Pends arena state.1 nodes ∧ nodes.length = work := by
  apply advances_of_pops
  rintro ⟨stack, count⟩ next item nodes hleft hturn
  cases stack with
  | nil => cases hturn
  | cons id rest =>
      cases hturn
      rcases hleft.pop with ⟨node, below, beside, hfind, _, rfl, hbelow, hrest⟩
      rcases hbelow.reverse with ⟨others, hothers, hperm⟩
      refine ⟨id, others ++ beside, rfl, ?_, ?_⟩
      · simpa [hfind] using hothers.append hrest
      · exact ((hperm.append_right beside).cons id).subperm

/-- The nodes with frames and those ahead of them are left.  A node ahead takes
two more turns, one with a frame takes one. -/
def Unwinding.Left (arena : Arena) : Unwinding → List NodeId → Nat → Prop
  | made _, _, _ => True
  | frames stack, nodes, work =>
      exists ahead, Pends arena (stack.flatMap Frame.ahead) ahead ∧
        (stack.map (·.node.id) ++ ahead).Perm nodes ∧
        2 * ahead.length + stack.length = work

theorem unwind_advances (arena : Arena) :
    Advances (unwindTurn arena) (Unwinding.Left arena) := by
  intro state next item nodes work hleft hturn
  match state with
  | .made _ => cases hturn
  | .frames [] => cases hturn
  | .frames (⟨node, id :: ahead, finished⟩ :: rest) =>
      cases hturn
      rcases hleft with ⟨waiting, hpends, hnodes, rfl⟩
      have hstack : Pends arena (id :: (ahead ++ rest.flatMap Frame.ahead))
          waiting := hpends
      rcases hstack.pop with
        ⟨child, below, beside, hfind, rfl, rfl, hbelow, hrest⟩
      refine ⟨nodes, _, ⟨below ++ beside, ?_, ?_, rfl⟩, ?_, List.Subperm.refl _⟩
      · simpa [hfind, Frame.start] using hbelow.append hrest
      · rw [hfind]
        exact List.perm_middle.symm.trans hnodes
      · simp only [hfind, List.length_cons]
        omega
  | .frames [⟨node, [], finished⟩] =>
      cases hturn
      rcases hleft with ⟨waiting, _, hnodes, rfl⟩
      refine ⟨[], 0, trivial, by simp, ?_⟩
      exact (List.sublist_append_left [node.id] waiting).subperm.trans
        hnodes.subperm
  | .frames (⟨node, [], finished⟩ :: ⟨above, ahead, before⟩ :: rest) =>
      cases hturn
      rcases hleft with ⟨waiting, hpends, hnodes, rfl⟩
      refine ⟨_, _, ⟨waiting, hpends, List.Perm.refl _, rfl⟩, ?_, hnodes.subperm⟩
      simp only [List.length_cons]
      omega

/-!
# Changes of the arena that is read
-/

theorem erase_advances :
    Advances eraseTurn fun state nodes work =>
      (Pends state.2.2 state.1 nodes ∧ nodes.Nodup) ∧ nodes.length = work := by
  apply advances_of_pops
  rintro ⟨stack, count, arena⟩ next item nodes ⟨hleft, hnodup⟩ hturn
  cases stack with
  | nil => cases hturn
  | cons id rest =>
      cases hturn
      rcases hleft.pop with ⟨node, below, beside, hfind, _, rfl, hbelow, hrest⟩
      rcases hbelow.reverse with ⟨others, hothers, hperm⟩
      have hnodes : (id :: (others ++ beside)).Perm (id :: (below ++ beside)) :=
        (hperm.append_right beside).cons id
      rw [← hnodes.nodup_iff, List.nodup_cons] at hnodup
      refine ⟨id, others ++ beside, rfl, ⟨?_, hnodup.right⟩, hnodes.subperm⟩
      have hpends : Pends (arena.erase id) (node.children.reverse ++ rest)
          (others ++ beside) := by
        apply (hothers.append hrest).frame
        intro y hy
        have hne : id ≠ y := fun e => hnodup.left (e ▸ hy)
        rw [Std.ExtHashMap.getElem?_erase, if_neg (by simpa using hne)]
      simpa [hfind] using hpends

/-- What is left to copy is in the arena, new identifiers are not, and no copy
is listed under a node that is left to copy. -/
structure Copies (stack : List (NodeId × Option NodeId)) (copy : Copy)
    (nodes : List NodeId) : Prop where
  pends : Pends copy.arena (stack.map Prod.fst) nodes
  nodup : nodes.Nodup
  fresh : Fresh copy.arena copy.nextCount
  apart : forall source p, (source, some p) ∈ stack → p ∉ nodes

section Add

variable {copy : Copy} {y : NodeId}

theorem Copy.link_find (top : Option NodeId) (hparent : parent ≠ some y) :
    (Copy.link top parent id arena)[y]? = arena[y]? := by
  unfold Copy.link
  split
  · rename_i p
    have hne : p ≠ y := fun e => hparent (congrArg some e)
    rw [Std.ExtHashMap.getElem?_modify, if_neg (by simpa using hne)]
  · rfl

theorem Copy.mem_link (top : Option NodeId) :
    y ∈ Copy.link top parent id arena ↔ y ∈ arena := by
  unfold Copy.link
  split
  · exact Std.ExtHashMap.mem_modify
  · exact Iff.rfl

theorem Copy.add_find (hnew : y ≠ copy.nextId node) (hparent : parent ≠ some y) :
    (copy.add node parent).arena[y]? = copy.arena[y]? := by
  have hne : NodeId.generate node.type copy.nextCount ≠ y := hnew.symm
  unfold Copy.add
  rw [Std.ExtHashMap.getElem?_insert, if_neg (by simpa using hne),
    Copy.link_find _ hparent]

theorem Copy.mem_add (hy : y ∈ (copy.add node parent).arena) :
    y ∈ copy.arena ∨ y = copy.nextId node := by
  unfold Copy.add at hy
  rw [Std.ExtHashMap.mem_insert, Copy.mem_link, beq_iff_eq] at hy
  exact hy.symm.imp_right Eq.symm

theorem Copy.fresh_add (h : Fresh copy.arena copy.nextCount) :
    Fresh (copy.add node parent).arena (copy.add node parent).nextCount := by
  apply h.grow (Nat.le_succ _)
  intro y hy
  exact (Copy.mem_add hy).imp_right fun e =>
    ⟨node.type, copy.nextCount, Nat.lt_succ_self _, e⟩

end Add

theorem copy_advances :
    Advances copyTurn fun state nodes work =>
      Copies state.1 state.2 nodes ∧ nodes.length = work := by
  apply advances_of_pops
  rintro ⟨stack, copy⟩ next item nodes hleft hturn
  cases stack with
  | nil => cases hturn
  | cons entry rest =>
      rcases entry with ⟨source, parent⟩
      cases hturn
      rcases hleft with ⟨hpends, hnodup, hfresh, hapart⟩
      rcases hpends.pop with ⟨node, below, beside, hfind, _, rfl, hbelow, hrest⟩
      have hwaiting := hbelow.append hrest
      have hnew : copy.nextId node ∉ below ++ beside := fun hmem =>
        hfresh node.type copy.nextCount (Nat.le_refl _) (hwaiting.mem hmem)
      have hparent : forall p, parent = some p → p ∉ below ++ beside := by
        rintro p rfl hmem
        exact hapart source p List.mem_cons_self (List.mem_cons_of_mem _ hmem)
      refine ⟨source, below ++ beside, rfl, ?_, List.Subperm.refl _⟩
      simp only [hfind]
      constructor
      · have hkept : Pends (copy.add node parent).arena
            (node.children ++ rest.map Prod.fst) (below ++ beside) := by
          apply hwaiting.frame
          intro y hy
          exact Copy.add_find (fun e => hnew (e ▸ hy))
            fun e => hparent y e hy
        simpa [Function.comp_def] using hkept
      · exact (List.nodup_cons.mp hnodup).right
      · exact Copy.fresh_add hfresh
      · intro other p hmem
        rcases List.mem_append.mp hmem with hmem | hmem
        · rcases List.mem_map.mp hmem with ⟨_, _, heq⟩
          cases heq
          exact hnew
        · intro hp
          exact hapart other p (List.mem_cons_of_mem _ hmem)
            (List.mem_cons_of_mem _ hp)

end Forest

/-!
# Rendering
-/

namespace Render

open Loop

/-- The nodes of a stack that are still to be visited. -/
def opens : List Pending → List NodeId
  | [] => []
  | .node id _ :: rest => id :: opens rest
  | .line _ :: rest => opens rest

/-- The closing lines of a stack. -/
def closes : List Pending → List Line
  | [] => []
  | .node _ _ :: rest => closes rest
  | .line line :: rest => line :: closes rest

@[simp] theorem opens_nodes_append (ids : List NodeId) (depth : Nat)
    (rest : List Pending) :
    opens (ids.map (Pending.node · depth) ++ rest) = ids ++ opens rest := by
  induction ids with
  | nil => rfl
  | cons id others ih => exact congrArg (id :: ·) ih

@[simp] theorem closes_nodes_append (ids : List NodeId) (depth : Nat)
    (rest : List Pending) :
    closes (ids.map (Pending.node · depth) ++ rest) = closes rest := by
  induction ids with
  | nil => rfl
  | cons id others ih => exact ih

theorem walk_advances (types : Registry) (profile : Profile) (arena : Arena) :
    Advances (walkTurn types profile arena) fun state nodes work =>
      Forest.Pends arena (opens state.1) nodes ∧
        2 * nodes.length + (closes state.1).length = work := by
  rintro ⟨stack, draft⟩ next item nodes _ ⟨hleft, rfl⟩ hturn
  cases stack with
  | nil => cases hturn
  | cons pending rest =>
      cases pending with
      | line line =>
          cases hturn
          exact ⟨nodes, _, ⟨hleft, rfl⟩, Nat.lt_succ_self _, List.Subperm.refl _⟩
      | node id depth =>
          cases hturn
          rcases hleft.pop with ⟨node, below, beside, hfind, _, rfl, hbelow, hrest⟩
          simp only [closes, List.length_cons, List.length_append]
          cases htype : types.find? node.type with
          | none =>
              rw [visit_of_unknown hfind htype]
              refine ⟨[], 0, ⟨Forest.Pends.nil, rfl⟩, by omega, ?_⟩
              exact ((List.nil_sublist _).cons_cons id).subperm
          | some descriptor =>
              rw [visit_of_known hfind htype]
              cases hclosing :
                  (visitNode profile descriptor node depth).layout.closing with
              | none =>
                  simp only [pending_of_closed hclosing, List.nil_append]
                  refine ⟨beside, _, ⟨hrest, rfl⟩, by omega, ?_⟩
                  exact ((List.sublist_append_right _ _).cons_cons id).subperm
              | some closing =>
                  simp only [pending_of_closing hclosing, List.append_assoc,
                    opens_nodes_append, closes_nodes_append]
                  refine ⟨below ++ beside, _, ⟨hbelow.append hrest, rfl⟩, ?_,
                    List.Subperm.refl _⟩
                  simp only [closes, List.cons_append, List.nil_append,
                    List.length_append, List.length_cons]
                  omega

end Render

namespace Forest

open Snapshot (idsOfList)
open Loop Render

/-!
# The loops of a forest
-/

/-- The loops that start at an entry come to their end.  They take no node off
the stack but those nested in this one, and none of them twice. -/
structure LoopsEndAt (forest : Forest) (node : Node) (s : Snapshot) : Prop where
  nested : forest.snapshotOf? node.id = some s
  present : forall id, id ∈ s.ids → forest.contains id = true
  tally : exists last,
    (tallyLoop forest.arena).Ends (node.children.reverse, 0) last s.ids
      s.ids.length ∧
    forest.descendantCount? node.id = some last.2
  unwind : exists last,
    (unwindLoop forest.arena).Ends (.frames [.start node]) last s.ids
      (2 * s.ids.length) ∧
    forest.snapshotOf? node.id = last.answer
  erase : exists last,
    eraseLoop.Ends
      ([node.id], 0, (forest.detach node.id node.parent).arena) last s.ids
      s.ids.length ∧
    forest.delete node.id =
      .ok (last.2.1,
        { forest.detach node.id node.parent with arena := last.2.2 })
  copy : exists last,
    copyLoop.Ends
      ([(node.id, node.parent)], ⟨forest.arena, forest.nextCount, none⟩) last
      s.ids s.ids.length ∧
    forest.copySubtree node = last.2
  walk : forall (r : Renderer) (profile : Profile), exists last,
    (walkLoop r.types profile forest.arena).Ends
      ([.node node.id 0], Draft.empty) last s.ids (2 * s.ids.length) ∧
    r.draft profile forest [node.id] = last.2

/-- All loops over a forest come to their end. -/
structure LoopsEnd (forest : Forest) : Prop where
  climb : forall ancestor id, forest.contains id = true → exists last,
    (climbLoop forest.arena ancestor).Ends (some id, false) last
      (forest.rows.map fun row => row.2.id) forest.size ∧
    forest.isSelfOrAncestor ancestor id = last.2
  visit : exists last,
    (visitLoop forest.arena).Ends (forest.roots.map (0, ·), []) last
      (forest.rows.map fun row => row.2.id) forest.size ∧
    forest.rows = last.2
  walk : forall (r : Renderer) (profile : Profile), exists last,
    (walkLoop r.types profile forest.arena).Ends
      (forest.roots.map (.node · 0), Draft.empty) last
      (forest.rows.map fun row => row.2.id) (2 * forest.size) ∧
    r.draft profile forest forest.roots = last.2
  nodes : forall id node, forest.find? id = some node →
    node.id = id ∧ exists s, LoopsEndAt forest node s

variable {forest : Forest} {arena : Arena} {parent : Option NodeId}
  {ss : List Snapshot} {s : Snapshot} {node : Node} {id x : NodeId}

theorem Subtree.tally_ends (h : Subtree forest parent s) (hnodup : s.ids.Nodup) :
    exists last,
      (tallyLoop forest.arena).Ends ((s.toNode parent).children.reverse, 0) last
        s.ids s.ids.length ∧
      forest.descendantCount? s.id = some last.2 := by
  rcases h with ⟨hheld, hlen⟩
  cases hheld with
  | @cons _ id type properties below _ hfind hbelow _ =>
      rcases hbelow.pends.reverse with ⟨nodes, hnodes, hperm⟩
      rw [Snapshot.ids_node, List.length_cons] at hlen ⊢
      rw [Snapshot.ids_node, List.nodup_cons, ← hperm.nodup_iff] at hnodup
      rw [← hperm.length_eq] at hlen ⊢
      rcases (tallyLoop forest.arena).exists_ends (tally_advances _)
        ((below.map Snapshot.id).reverse, 0) ⟨hnodes, rfl⟩ hnodup.right
        (Nat.le_of_succ_le hlen) with ⟨last, hends, hanswer⟩
      refine ⟨last, ?_, ?_⟩
      · rw [Snapshot.toNode_children]
        exact hends.mono (fun y hy => List.mem_cons_of_mem _ (hperm.subset hy))
          (Nat.le_succ _)
      · have hcount : tally forest.arena forest.size
            (below.map Snapshot.id).reverse 0 = last.2 := hanswer
        unfold Forest.descendantCount? Forest.find?
        rw [Snapshot.id_node, hfind, Option.map_some, ← hcount,
          Snapshot.toNode_children]

theorem Subtree.unwind_ends (h : Subtree forest parent s) (hnodup : s.ids.Nodup) :
    exists last,
      (unwindLoop forest.arena).Ends (.frames [.start (s.toNode parent)]) last
        s.ids (2 * s.ids.length) ∧
      forest.snapshotOf? s.id = last.answer := by
  have hfind := h.find
  rcases h with ⟨hheld, hlen⟩
  cases hheld with
  | @cons _ id type properties below _ _ hbelow _ =>
      let top := (Snapshot.node id type properties below).toNode parent
      rw [Snapshot.ids_node, List.length_cons] at hlen
      have hahead : Pends forest.arena ([Frame.start top].flatMap Frame.ahead)
          (idsOfList below) := by
        simpa [top, Frame.start] using hbelow.pends
      have hleft : Unwinding.Left forest.arena (.frames [.start top])
          (id :: idsOfList below) (2 * (idsOfList below).length + 1) :=
        ⟨_, hahead, List.Perm.refl _, rfl⟩
      have hsteps : 2 * (idsOfList below).length + 1 ≤ 2 * forest.size := by
        omega
      rcases (unwindLoop forest.arena).exists_ends (unwind_advances _) _ hleft
        hnodup hsteps with ⟨last, hends, hanswer⟩
      refine ⟨last, hends.mono (List.Subset.refl _) ?_, ?_⟩
      · rw [Snapshot.ids_node, List.length_cons]
        omega
      · unfold Forest.snapshotOf?
        rw [hfind]
        exact hanswer

theorem Pends.walk_ends {start nodes : List NodeId}
    (h : Pends forest.arena start nodes) (hnodup : nodes.Nodup)
    (hlen : nodes.length ≤ forest.size) (r : Renderer) (profile : Profile) :
    exists last,
      (walkLoop r.types profile forest.arena).Ends
        (start.map (.node · 0), Draft.empty) last nodes (2 * nodes.length) ∧
      r.draft profile forest start = last.2 := by
  have hopens := opens_nodes_append start 0 []
  have hcloses := closes_nodes_append start 0 []
  simp only [List.append_nil, opens, closes] at hopens hcloses
  have hstack : Pends forest.arena (opens (start.map (.node · 0))) nodes := by
    rw [hopens]
    exact h
  have hwork : 2 * nodes.length + (closes (start.map (.node · 0))).length =
      2 * nodes.length := by
    rw [hcloses]
    rfl
  exact (walkLoop r.types profile forest.arena).exists_ends
    (walk_advances _ _ _) (start.map (.node · 0), Draft.empty) ⟨hstack, hwork⟩
    hnodup (Nat.mul_le_mul_left 2 hlen)

theorem Struck.loopsEndAt (h : Struck forest ss (s.toNode parent) s)
    (hshows : Shows forest ss) (hnodup : s.ids.Nodup) :
    LoopsEndAt forest (s.toNode parent) s := by
  rcases h with ⟨hheld, hapart, _, _, hkept⟩
  rw [Snapshot.toNode_parent] at hheld hapart hkept
  have hpends := hheld.pends_one
  have hsub : Subtree forest parent s := hheld.subtree hnodup
  have hlen := hsub.length_le
  constructor
  · rw [Snapshot.toNode_id]
    exact hsub.snapshotOf?
  · intro id hid
    exact contains_iff.mpr (hpends.mem hid)
  · rw [Snapshot.toNode_id]
    exact hsub.tally_ends hnodup
  · rw [Snapshot.toNode_id]
    exact hsub.unwind_ends hnodup
  · rcases eraseLoop.exists_ends erase_advances
      ([s.id], 0, (forest.detach s.id parent).arena)
      ⟨⟨hkept.pends_one, hnodup⟩, rfl⟩ hnodup hlen with ⟨last, hends, hanswer⟩
    rw [Snapshot.toNode_id, Snapshot.toNode_parent]
    have herase : Forest.erase forest.size [s.id] 0
        (forest.detach s.id parent).arena = last.2 := hanswer
    refine ⟨last, hends, ?_⟩
    unfold Forest.delete
    rw [hsub.find]
    simp only [cut, Snapshot.toNode_id, Snapshot.toNode_parent, herase]
  · have hcopies : Copies [(s.id, parent)]
        ⟨forest.arena, forest.nextCount, none⟩ s.ids := by
      refine ⟨hpends, hnodup, hshows.fresh, ?_⟩
      intro source p hmem
      cases List.mem_singleton.mp hmem
      exact hapart p rfl
    rcases copyLoop.exists_ends copy_advances
      ([(s.id, parent)], ⟨forest.arena, forest.nextCount, none⟩)
      ⟨hcopies, rfl⟩ hnodup hlen with ⟨last, hends, hanswer⟩
    rw [Snapshot.toNode_id, Snapshot.toNode_parent]
    refine ⟨last, hends, ?_⟩
    unfold Forest.copySubtree
    rw [Snapshot.toNode_id, Snapshot.toNode_parent]
    exact hanswer
  · intro r profile
    rw [Snapshot.toNode_id]
    exact hpends.walk_ends hnodup hlen r profile

theorem Shows.loopsEnd (h : Shows forest ss) : LoopsEnd forest := by
  have hids : (forest.rows.map fun row => row.2.id) = idsOfList ss := by
    rw [h.rows, Snapshot.map_id_nodesOfListAt]
  have hroots : Pends forest.arena forest.roots (idsOfList ss) := by
    rw [h.roots]
    exact h.held.pends
  have hsize := h.size
  constructor
  · intro ancestor id hid
    rcases h.held.exists_lineage Lineage.top
      (h.complete id (contains_iff.mp hid)) with ⟨path, hpath, hsub⟩
    rw [List.nil_append] at hsub
    have hlen := hsub.length_le
    rcases (climbLoop forest.arena ancestor).exists_ends
      (climb_advances _ _) (some id, false) ⟨hpath, rfl⟩
      (nodup_of_subperm hsub h.nodup) (Nat.le_succ_of_le (hsize ▸ hlen)) with
      ⟨last, hends, hanswer⟩
    rw [hids]
    exact ⟨last, hends.mono hsub.subset (hsize ▸ hlen), hanswer⟩
  · have hstack : Pends forest.arena ((forest.roots.map (0, ·)).map Prod.snd)
        (idsOfList ss) := by
      simpa [Function.comp_def] using hroots
    rcases (visitLoop forest.arena).exists_ends (visit_advances _)
      (forest.roots.map (0, ·), []) ⟨hstack, rfl⟩ h.nodup
      (Nat.le_of_eq hsize.symm) with ⟨last, hends, hanswer⟩
    rw [hids, hsize]
    exact ⟨last, hends, hanswer⟩
  · intro r profile
    rw [hids, hsize]
    exact hroots.walk_ends h.nodup h.length_le r profile
  · intro id node hfind
    rcases h.toLinks.exists_struck (h.complete id (mem_of_entry hfind)) hfind with
      ⟨s, rfl, hstruck⟩
    have hnodup := h.nodup
    rw [hstruck.perm.nodup_iff, List.nodup_append] at hnodup
    have hentry : node = s.toNode node.parent := by
      have hself := (hstruck.held.subtree hnodup.left).find
      exact Option.some_inj.mp (hfind.symm.trans hself)
    rw [hentry] at hstruck
    refine ⟨h.keyed hfind, s, ?_⟩
    rw [hentry]
    exact hstruck.loopsEndAt h hnodup.left

/-- After every run of edits, all loops over the forest end by themselves. -/
theorem ofEdits_loopsEnd (registry : Registry) (options : Options)
    (requests : List Edit) : LoopsEnd (ofEdits registry options requests) := by
  rcases exists_shows_ofEdits registry options requests with ⟨ss, h⟩
  exact h.loopsEnd

end Forest

end MarkupForest
