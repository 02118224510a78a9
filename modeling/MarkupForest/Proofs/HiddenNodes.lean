import MarkupForest.Proofs.Ancestors
import MarkupForest.Proofs.Openings

/-!
# Hidden nodes

A node is hidden when some node above it closes itself.  A rendering never comes
to a hidden node, so it does not matter there whether the type is known.  On
nested nodes, `Render.exposed` lists the others by recursion.  A rendering fails
on the first of these that is of an unknown type.
-/

namespace MarkupForest

/-- Whether nodes of a type are rendered by a tag that closes itself. -/
def Registry.isSelfClosing (types : Registry) (type : NodeType) : Bool :=
  (types.find? type).any fun descriptor => descriptor.shape = .selfClosing

namespace Forest

/-- Some node above this one closes itself. -/
def Hidden (types : Registry) (forest : Forest) (id : NodeId) : Prop :=
  exists steps x above, forest.ancestor? (steps + 1) id = some x ∧
    forest.find? x = some above ∧ types.isSelfClosing above.type = true

open Classical in
/-- The nodes that are not hidden, in document order. -/
noncomputable def shown (types : Registry) (forest : Forest) : List Node :=
  (forest.rows.map Prod.snd).filter fun node => ¬ Hidden types forest node.id

/-- Some node above this one closes itself, and is `top` or below it. -/
def HiddenBelow (types : Registry) (forest : Forest) (top id : NodeId) : Prop :=
  exists steps x above, forest.ancestor? (steps + 1) id = some x ∧
    forest.find? x = some above ∧ forest.isSelfOrAncestor top x = true ∧
    types.isSelfClosing above.type = true

open Classical in
/-- The nodes of a subtree that nothing in the subtree hides, in document
order. -/
noncomputable def shownBelow (types : Registry) (forest : Forest)
    (top : NodeId) : List Node :=
  ((forest.rows.map Prod.snd).filter fun node =>
    forest.isSelfOrAncestor top node.id).filter fun node =>
      ¬ HiddenBelow types forest top node.id

end Forest

namespace Render

section

variable (types : Registry)

mutual

/-- The nodes of a snapshot that no node of it hides, in document order. -/
def exposed (parent : Option NodeId) : Snapshot → List Node
  | .node id type properties below =>
      (Snapshot.node id type properties below).toNode parent ::
        if types.isSelfClosing type then [] else exposedOfList (some id) below

def exposedOfList (parent : Option NodeId) : List Snapshot → List Node
  | [] => []
  | s :: rest => exposed parent s ++ exposedOfList parent rest

end

/-- What a rendering of these nodes fails with: the type of the first one that is
unknown. -/
def unknownType? (nodes : List Node) : Option RenderError :=
  (nodes.find? fun node => !types.contains node.type).map fun node =>
    .unknownType node.type.name

end

variable {types : Registry} {profile : Profile} {parent : Option NodeId}
  {ss below rest : List Snapshot} {descriptor : Descriptor} {depth : Nat}
  {id : NodeId} {type : NodeType} {properties : Properties} {node : Node}

/-!
# Exposed nodes
-/

theorem isSelfClosing_of_eq (htype : types.find? type = some descriptor)
    (hshape : descriptor.shape = .selfClosing) :
    types.isSelfClosing type = true := by
  simp [Registry.isSelfClosing, htype, hshape]

theorem isSelfClosing_of_ne (htype : types.find? type = some descriptor)
    (hshape : descriptor.shape ≠ .selfClosing) :
    types.isSelfClosing type = false := by
  simp [Registry.isSelfClosing, htype, hshape]

theorem exposedOfList_node_cons :
    exposedOfList types parent (.node id type properties below :: rest) =
      (Snapshot.node id type properties below).toNode parent ::
        ((if types.isSelfClosing type then []
          else exposedOfList types (some id) below) ++
          exposedOfList types parent rest) := rfl

theorem Renderable.visited_eq (h : Renderable types ss) :
    Pretty.visitedOfList types parent ss = exposedOfList types parent ss := by
  induction h generalizing parent with
  | nil => rfl
  | void htype hshape hrest ihrest =>
      rw [visitedOfList_cons, visited_of_void htype hshape,
        exposedOfList_node_cons, if_pos (isSelfClosing_of_eq htype hshape), ihrest]
      rfl
  | enclosing htype hshape hbelow hrest ihbelow ihrest =>
      rw [visitedOfList_cons, visited_of_enclosing htype hshape,
        exposedOfList_node_cons, isSelfClosing_of_ne htype hshape, ihbelow, ihrest]
      rfl

/-!
# Unknown types
-/

theorem unknownType?_append (first second : List Node) :
    unknownType? types (first ++ second) =
      (unknownType? types first).or (unknownType? types second) := by
  unfold unknownType?
  rw [List.find?_append, Option.map_or]

theorem unknownType?_cons_of_unknown (htype : types.find? node.type = none)
    (nodes : List Node) :
    unknownType? types (node :: nodes) = some (.unknownType node.type.name) := by
  have hunknown : types.contains node.type = false :=
    Option.isSome_eq_false_iff.mpr (Option.isNone_iff_eq_none.mpr htype)
  unfold unknownType?
  rw [List.find?_cons_of_pos (by simp [hunknown])]
  rfl

theorem unknownType?_cons_of_known (htype : types.find? node.type = some descriptor)
    (nodes : List Node) :
    unknownType? types (node :: nodes) = unknownType? types nodes := by
  have hknown : types.contains node.type = true := Option.isSome_of_eq_some htype
  unfold unknownType?
  rw [List.find?_cons_of_neg (by simp [hknown])]

theorem error?_draftOfList :
    (draftOfList types profile depth parent ss).error? =
      unknownType? types (exposedOfList types parent ss) := by
  induction ss using Snapshot.nested_induction generalizing depth parent with
  | nil => rfl
  | cons id type properties below rest ihbelow ihrest =>
      rw [draftOfList_cons, Draft.error?_append, ihrest, exposedOfList_node_cons]
      cases htype : types.find? type with
      | none =>
          rw [draftOf_of_unknown htype, unknownType?_cons_of_unknown htype]
          rfl
      | some descriptor =>
          rw [error?_draftOf htype, unknownType?_cons_of_known htype,
            unknownType?_append, ihbelow]
          by_cases hshape : descriptor.shape = .selfClosing
          · rw [if_pos hshape, if_pos (isSelfClosing_of_eq htype hshape)]
            rfl
          · rw [if_neg hshape, isSelfClosing_of_ne htype hshape]
            rfl

theorem unknownType?_eq_none_iff {nodes : List Node} :
    unknownType? types nodes = none ↔
      forall node, node ∈ nodes → types.contains node.type = true := by
  simp [unknownType?]

theorem renderable_iff :
    Renderable types ss ↔
      forall node, node ∈ exposedOfList types parent ss →
        types.contains node.type = true := by
  have hdraft : (draftOfList types default 0 parent ss).error? = none ↔
      Renderable types ss := draftOfList_ok_iff
  rw [← hdraft, error?_draftOfList, unknownType?_eq_none_iff]

end Render

namespace Forest

open Snapshot (idsOfList idsOfList_node_cons nodesOfListAt
  nodesOfListAt_node_cons)

open Render

variable {types : Registry} {forest : Forest} {arena : Arena}
  {ss : List Snapshot} {s : Snapshot} {parent slot : Option NodeId}
  {node above : Node} {x p : NodeId} {depth : Nat}

/-!
# What hides a node
-/

/-- Among these nodes, the children of a node are hidden if the node closes
itself, or is hidden itself. -/
def PassesDown (types : Registry) (arena : Arena) (ids : List NodeId)
    (hidden : NodeId → Prop) : Prop :=
  forall p above x, p ∈ ids → arena[p]? = some above → x ∈ above.children →
    (hidden x ↔ types.isSelfClosing above.type = true ∨ hidden p)

theorem PassesDown.of_subset {ids others : List NodeId} {hidden : NodeId → Prop}
    (h : PassesDown types arena ids hidden)
    (hsub : forall p, p ∈ others → p ∈ ids) :
    PassesDown types arena others hidden :=
  fun p above x hp => h p above x (hsub p hp)

theorem Holds.hidden (h : Holds arena parent ss) {hidden : NodeId → Prop}
    (hdown : PassesDown types arena (idsOfList ss) hidden)
    (hlevel : forall s, s ∈ ss → hidden s.id) {row : Row}
    (hrow : row ∈ nodesOfListAt depth parent ss) : hidden row.2.id := by
  induction h generalizing depth with
  | nil => cases hrow
  | @cons parent id type properties below rest hfind hbelow hrest ihbelow ihrest =>
      have hself : hidden id := hlevel _ List.mem_cons_self
      rw [nodesOfListAt_node_cons, List.mem_cons, List.mem_append] at hrow
      rcases hrow with rfl | hrow | hrow
      · exact hself
      · refine ihbelow (hdown.of_subset fun p hp => by simp [hp]) ?_ hrow
        intro s hs
        refine (hdown id _ s.id (by simp) hfind ?_).mpr (Or.inr hself)
        exact List.mem_map_of_mem hs
      · exact ihrest (hdown.of_subset fun p hp => by simp [hp])
          (fun s hs => hlevel s (List.mem_cons_of_mem _ hs)) hrow

open Classical in
/-- The exposed nodes are those that are not hidden. -/
theorem Holds.exposed_eq (h : Holds arena parent ss) {hidden : NodeId → Prop}
    (hdown : PassesDown types arena (idsOfList ss) hidden)
    (hlevel : forall s, s ∈ ss → ¬ hidden s.id) (depth : Nat) :
    exposedOfList types parent ss =
      ((nodesOfListAt depth parent ss).map Prod.snd).filter fun node =>
        ¬ hidden node.id := by
  induction h generalizing depth with
  | nil => rfl
  | @cons parent id type properties below rest hfind hbelow hrest ihbelow ihrest =>
      have hself : ¬ hidden id := hlevel _ List.mem_cons_self
      have hdownBelow : PassesDown types arena (idsOfList below) hidden :=
        hdown.of_subset fun p hp => by simp [hp]
      have hchild : forall s, s ∈ below →
          (hidden s.id ↔ types.isSelfClosing type = true ∨ hidden id) :=
        fun s hs => hdown id _ s.id (by simp) hfind (List.mem_map_of_mem hs)
      rw [exposedOfList_node_cons, nodesOfListAt_node_cons, List.map_cons,
        List.map_append, List.filter_cons_of_pos (by simpa using hself),
        List.filter_append,
        ihrest (hdown.of_subset fun p hp => by simp [hp])
          (fun s hs => hlevel s (List.mem_cons_of_mem _ hs)) depth]
      congr 2
      cases hclosing : types.isSelfClosing type with
      | true =>
          rw [if_pos rfl, eq_comm, List.filter_eq_nil_iff]
          intro node hnode
          rcases List.mem_map.mp hnode with ⟨row, hrow, rfl⟩
          have hhidden := hbelow.hidden hdownBelow
            (fun s hs => (hchild s hs).mpr (Or.inl hclosing)) hrow
          simpa using hhidden
      | false =>
          rw [if_neg Bool.false_ne_true]
          refine ihbelow hdownBelow ?_ (depth + 1)
          intro s hs hhidden
          rcases (hchild s hs).mp hhidden with hvoid | habove
          · exact Bool.false_ne_true (hclosing.symm.trans hvoid)
          · exact hself habove

/-!
# The nodes of a forest
-/

theorem not_hidden_of_root (hfind : forest.find? x = some node)
    (hparent : node.parent = none) : ¬ Hidden types forest x := by
  rintro ⟨steps, y, above, hup, _, _⟩
  rw [ancestor?_of_root hfind hparent] at hup
  cases hup

theorem exists_above_iff {Q : NodeId → Node → Prop}
    (hfind : forest.find? x = some node) (hparent : node.parent = some p)
    (habove : forest.find? p = some above) (hid : above.id = p) :
    (exists steps y entry, forest.ancestor? (steps + 1) x = some y ∧
        forest.find? y = some entry ∧ Q y entry) ↔
      Q p above ∨
        exists steps y entry, forest.ancestor? (steps + 1) p = some y ∧
          forest.find? y = some entry ∧ Q y entry := by
  constructor
  · rintro ⟨steps, y, entry, hup, hy, hentry⟩
    rw [ancestor?_succ hfind hparent habove hid] at hup
    cases steps with
    | zero =>
        cases hup
        rw [habove] at hy
        cases hy
        exact Or.inl hentry
    | succ steps => exact Or.inr ⟨steps, y, entry, hup, hy, hentry⟩
  · rintro (hentry | ⟨steps, y, entry, hup, hy, hentry⟩)
    · refine ⟨0, p, above, ?_, habove, hentry⟩
      rw [ancestor?_succ hfind hparent habove hid]
      rfl
    · refine ⟨steps + 1, y, entry, ?_, hy, hentry⟩
      rw [ancestor?_succ hfind hparent habove hid]
      exact hup

theorem hidden_iff (hfind : forest.find? x = some node)
    (hparent : node.parent = some p) (habove : forest.find? p = some above)
    (hid : above.id = p) :
    Hidden types forest x ↔
      types.isSelfClosing above.type = true ∨ Hidden types forest p :=
  exists_above_iff (Q := fun _ entry => types.isSelfClosing entry.type = true)
    hfind hparent habove hid

theorem Shows.exposed_eq (h : Shows forest ss) :
    exposedOfList types none ss = shown types forest := by
  have hdown : PassesDown types forest.arena (idsOfList ss)
      (Hidden types forest) := by
    intro p above x _ habove hx
    rw [← siblings_of_find habove] at hx
    rcases h.parent_of_listed hx with ⟨node, hfind, hparent⟩
    exact hidden_iff hfind hparent habove (h.keyed habove)
  have hlevel : forall s, s ∈ ss → ¬ Hidden types forest s.id :=
    fun s hs => not_hidden_of_root (h.held.find hs) (Snapshot.toNode_parent none s)
  rw [h.held.exposed_eq hdown hlevel 0, ← h.rows]
  rfl

theorem mem_shown_iff :
    node ∈ shown types forest ↔
      exists depth, (depth, node) ∈ forest.rows ∧ ¬ Hidden types forest node.id := by
  unfold shown
  rw [List.mem_filter, List.mem_map]
  simp

theorem Shows.find?_of_mem_shown (h : Shows forest ss)
    (hnode : node ∈ shown types forest) : forest.find? node.id = some node := by
  rcases List.mem_map.mp (List.mem_of_mem_filter hnode) with ⟨row, hrow, rfl⟩
  rw [h.rows] at hrow
  exact h.held.find_row hrow

theorem Shows.shown_nodup (h : Shows forest ss) :
    ((shown types forest).map Node.id).Nodup := by
  have hsublist : ((shown types forest).map Node.id).Sublist
      ((forest.rows.map Prod.snd).map Node.id) := List.filter_sublist.map _
  refine hsublist.nodup ?_
  rw [List.map_map, h.rows]
  show ((nodesOfListAt 0 none ss).map fun row => row.2.id).Nodup
  rw [Snapshot.map_id_nodesOfListAt]
  exact h.nodup

/-- A rendering opens the nodes that are not hidden. -/
theorem Shows.shown_eq (h : Shows forest ss) (hok : Renderable types ss) :
    shown types forest = Pretty.visitedOfList types none ss := by
  rw [← h.exposed_eq, hok.visited_eq]

theorem Shows.renderable_iff (h : Shows forest ss) :
    Renderable types ss ↔
      forall node, node ∈ shown types forest →
        types.contains node.type = true := by
  rw [← h.exposed_eq]
  exact Render.renderable_iff

theorem Shows.report_ok_iff (h : Shows forest ss) (r : Renderer)
    (profile : Profile) :
    (exists text, ((r.draft profile forest forest.roots).report profile).answer =
      .ok text) ↔ Renderable r.types ss := by
  have hok : (r.draft profile forest forest.roots).error? = none ↔
      Renderable r.types ss := by
    rw [draft_of_roots h r profile]
    exact draftOfList_ok_iff
  rw [← hok]
  unfold Draft.report
  cases (r.draft profile forest forest.roots).error? with
  | none => exact iff_of_true ⟨_, rfl⟩ rfl
  | some e => exact iff_of_false (by simp) (by simp)

/-!
# The nodes of a subtree
-/

theorem Shows.exists_block (h : Shows forest ss) (hsub : Subtree forest slot s) :
    exists depth before after,
      forest.rows = before ++ (nodesOfListAt depth slot [s] ++ after) := by
  rcases h.held.exists_located (h.complete s.id (mem_of_entry hsub.find)) 0 with
    ⟨slot', t, depth, before, after, hid, hplace⟩
  have ht := h.subtree_of_held hplace.inside hplace.held
  have hsame : t = s := by
    have hsnapshot := ht.snapshotOf?
    rw [hid, hsub.snapshotOf?] at hsnapshot
    exact (Option.some_inj.mp hsnapshot).symm
  subst hsame
  have hslot : slot' = slot := ht.slot_eq hsub.find
  subst hslot
  refine ⟨depth, before, after, ?_⟩
  rw [h.rows, hplace.rows]
  cases t with
  | node id type properties below =>
      rw [nodesOfListAt_node_cons]
      show _ = before ++ ((depth, _) :: (nodesOfListAt _ _ below ++ []) ++ after)
      rw [List.append_nil]
      rfl

theorem Shows.not_mem_of_ancestor? (h : Shows forest ss)
    (hsub : Subtree forest slot s) {steps : Nat}
    (hup : forest.ancestor? (steps + 1) s.id = some x) : x ∉ s.ids := by
  intro hx
  rcases h.exists_block hsub with ⟨depth, before, after, hrows⟩
  have hdepth := h.coherent.depth
  have htop : Climbs forest depth s.id := by
    have hself := hdepth (depth, s.toNode slot)
    rw [Snapshot.toNode_id] at hself
    apply hself
    rw [hrows]
    cases s with
    | node id type properties below =>
        rw [nodesOfListAt_node_cons]
        simp
  rw [← Snapshot.idsOfList_singleton,
    ← Snapshot.map_id_nodesOfListAt [s] depth slot] at hx
  rcases List.mem_map.mp hx with ⟨row, hrow, rfl⟩
  have hle := Snapshot.le_of_mem_nodesOfListAt hrow
  have hrowClimbs : Climbs forest row.1 row.2.id := by
    apply hdepth
    rw [hrows]
    simp [hrow]
  have habove : (forest.ancestor? row.1 row.2.id).isSome = true :=
    (hrowClimbs row.1).mpr (Nat.le_refl _)
  have hfar : (forest.ancestor? (steps + 1 + row.1) s.id).isSome = true := by
    rw [ancestor?_add, hup]
    exact habove
  have hbound := (htop _).mp hfar
  omega

theorem Subtree.hiddenBelow_iff (hsub : Subtree forest slot s)
    (h : Shows forest ss) (hfind : forest.find? x = some node)
    (hparent : node.parent = some p) (hp : p ∈ s.ids)
    (habove : forest.find? p = some above) (hid : above.id = p) :
    HiddenBelow types forest s.id x ↔
      types.isSelfClosing above.type = true ∨
        HiddenBelow types forest s.id p := by
  have hinside : forest.isSelfOrAncestor s.id p = true :=
    (hsub.isSelfOrAncestor_iff h).mpr hp
  refine (exists_above_iff (Q := fun y entry =>
    forest.isSelfOrAncestor s.id y = true ∧
      types.isSelfClosing entry.type = true) hfind hparent habove hid).trans ?_
  rw [and_iff_right hinside]
  rfl

theorem Subtree.filter_outside (hsub : Subtree forest slot s)
    (h : Shows forest ss) {rows : List Row}
    (hout : forall row, row ∈ rows → row.2.id ∉ s.ids) :
    (rows.map Prod.snd).filter (fun node =>
      forest.isSelfOrAncestor s.id node.id) = [] := by
  rw [List.filter_eq_nil_iff]
  intro node hnode
  rcases List.mem_map.mp hnode with ⟨row, hrow, rfl⟩
  rw [hsub.isSelfOrAncestor_iff h]
  exact hout row hrow

theorem Subtree.filter_rows (hsub : Subtree forest slot s)
    (h : Shows forest ss) :
    exists depth,
      (forest.rows.map Prod.snd).filter (fun node =>
        forest.isSelfOrAncestor s.id node.id) =
          (nodesOfListAt depth slot [s]).map Prod.snd := by
  rcases h.exists_block hsub with ⟨depth, before, after, hrows⟩
  have hids := h.coherent.visits.nodup
  rw [hrows, List.map_append, List.map_append, Snapshot.map_id_nodesOfListAt,
    Snapshot.idsOfList_singleton, List.nodup_append, List.nodup_append] at hids
  rcases hids with ⟨_, ⟨_, _, hafter⟩, hbefore⟩
  have hblock : ((nodesOfListAt depth slot [s]).map Prod.snd).filter (fun node =>
      forest.isSelfOrAncestor s.id node.id) =
        (nodesOfListAt depth slot [s]).map Prod.snd := by
    rw [List.filter_eq_self]
    intro node hnode
    rcases List.mem_map.mp hnode with ⟨row, hrow, rfl⟩
    rw [hsub.isSelfOrAncestor_iff h, ← Snapshot.idsOfList_singleton,
      ← Snapshot.map_id_nodesOfListAt [s] depth slot]
    exact List.mem_map_of_mem hrow
  refine ⟨depth, ?_⟩
  rw [hrows, List.map_append, List.map_append, List.filter_append,
    List.filter_append, hblock, hsub.filter_outside h, hsub.filter_outside h]
  · exact List.append_nil _
  · intro row hrow hmem
    exact hafter _ hmem _ (List.mem_map_of_mem hrow) rfl
  · intro row hrow hmem
    exact hbefore _ (List.mem_map_of_mem hrow) _
      (List.mem_append_left _ hmem) rfl

theorem Shows.exposed_eq_shownBelow (h : Shows forest ss)
    (hsub : Subtree forest slot s) :
    exposedOfList types slot [s] = shownBelow types forest s.id := by
  have hdown : PassesDown types forest.arena (idsOfList [s])
      (HiddenBelow types forest s.id) := by
    intro p above x hp habove hx
    rw [Snapshot.idsOfList_singleton] at hp
    rw [← siblings_of_find habove] at hx
    rcases h.parent_of_listed hx with ⟨node, hfind, hparent⟩
    exact hsub.hiddenBelow_iff h hfind hparent hp habove (h.keyed habove)
  have hlevel : forall t, t ∈ [s] → ¬ HiddenBelow types forest s.id t.id := by
    intro t ht
    rw [List.mem_singleton] at ht
    subst ht
    rintro ⟨steps, y, closing, hup, _, hbelow, _⟩
    exact h.not_mem_of_ancestor? hsub hup
      ((hsub.isSelfOrAncestor_iff h).mp hbelow)
  rcases hsub.filter_rows h with ⟨depth, hblock⟩
  unfold shownBelow
  rw [hblock]
  exact hsub.held.exposed_eq hdown hlevel depth

end Forest

end MarkupForest
