import MarkupForest.Proofs.ImportLines

/-!
# The configuration that a rendering uses

A rendering looks up the types of the nodes that it comes to, and nothing else:
not the types of hidden nodes, not the order in which types were registered.
`Renderer.AgreesOn` says that two configurations have the same for some nodes.
If these are the nodes that are shown, the two renderings are the same, with
their errors and their notices.  Which nodes are shown depends on the
configuration as well, so that is carried along.
-/

namespace MarkupForest

/-- Profiles of the same kind with the same rules for these nodes. -/
structure Profile.AgreesOn (nodes : List Node) (p q : Profile) : Prop where
  id : p.id = q.id
  dialect : p.dialect = q.dialect
  preamble : p.preamble = q.preamble
  emitters : forall node, node ∈ nodes →
    p.emitters node.type = q.emitters node.type

/-- Registries with the same descriptors, or none, for these nodes. -/
def Registry.AgreesOn (nodes : List Node) (types types' : Registry) : Prop :=
  forall node, node ∈ nodes → types.find? node.type = types'.find? node.type

/-- Configurations with the same types for these nodes, and with the same rules
in the profile. -/
structure Renderer.AgreesOn (nodes : List Node) (profileId : String)
    (r s : Renderer) : Prop where
  types : Registry.AgreesOn nodes r.types s.types
  profile : Option.Rel (Profile.AgreesOn nodes) (r.profiles.find? profileId)
    (s.profiles.find? profileId)

section

variable {nodes others : List Node} {p q : Profile} {types types' : Registry}
  {r s : Renderer} {profileId : String}

theorem Profile.AgreesOn.of_subset (h : Profile.AgreesOn nodes p q)
    (hsub : forall node, node ∈ others → node ∈ nodes) :
    Profile.AgreesOn others p q :=
  ⟨h.id, h.dialect, h.preamble, fun node hnode => h.emitters node (hsub node hnode)⟩

theorem Registry.AgreesOn.of_subset (h : Registry.AgreesOn nodes types types')
    (hsub : forall node, node ∈ others → node ∈ nodes) :
    Registry.AgreesOn others types types' :=
  fun node hnode => h node (hsub node hnode)

theorem Renderer.AgreesOn.of_subset (h : Renderer.AgreesOn nodes profileId r s)
    (hsub : forall node, node ∈ others → node ∈ nodes) :
    Renderer.AgreesOn others profileId r s := by
  refine ⟨h.types.of_subset hsub, ?_⟩
  have hprofile := h.profile
  generalize r.profiles.find? profileId = found at hprofile ⊢
  generalize s.profiles.find? profileId = found' at hprofile ⊢
  cases hprofile with
  | none => exact .none
  | some hagrees => exact .some (hagrees.of_subset hsub)

end

namespace Render

variable {types types' : Registry} {p q : Profile} {parent : Option NodeId}
  {ss : List Snapshot} {depth : Nat} {node : Node} {nodes : List Node}

/-!
# Drafts
-/

theorem visitNode_of_agrees (h : Profile.AgreesOn nodes p q)
    (hnode : node ∈ nodes) (descriptor : Descriptor) (depth : Nat) :
    visitNode p descriptor node depth = visitNode q descriptor node depth := by
  have helement : p.element descriptor node = q.element descriptor node := by
    unfold Profile.element
    rw [h.id, h.dialect, h.emitters node hnode]
  unfold visitNode
  rw [helement, h.id]

theorem Visit.draft_of_closed {v : Visit} (h : v.layout.closing = none)
    (children others : Draft) : v.draft children = v.draft others := by
  unfold Visit.draft Visit.finish
  rw [h]

theorem shape_ne_of_closing {descriptor : Descriptor} {closing : Line}
    (h : (visitNode p descriptor node depth).layout.closing = some closing) :
    descriptor.shape ≠ .selfClosing := by
  intro hshape
  unfold visitNode at h
  rw [hshape] at h
  cases h

/-- The draft of nested nodes reads nothing but what the configuration has for
the exposed ones. -/
theorem draftOfList_of_agrees
    (htypes : Registry.AgreesOn (exposedOfList types parent ss) types types')
    (hprofile : Profile.AgreesOn (exposedOfList types parent ss) p q) :
    draftOfList types p depth parent ss = draftOfList types' q depth parent ss := by
  induction ss using Snapshot.nested_induction generalizing depth parent with
  | nil => rfl
  | cons id type properties below rest ihbelow ihrest =>
      have hself : (Snapshot.node id type properties below).toNode parent ∈
          exposedOfList types parent (.node id type properties below :: rest) :=
        List.mem_cons_self
      have hrest : forall node, node ∈ exposedOfList types parent rest →
          node ∈ exposedOfList types parent
            (.node id type properties below :: rest) := by
        intro node hnode
        rw [exposedOfList_node_cons]
        simp [hnode]
      have hsame : types.find? type = types'.find? type := htypes _ hself
      rw [draftOfList_cons, draftOfList_cons,
        ihrest (htypes.of_subset hrest) (hprofile.of_subset hrest)]
      congr 1
      cases htype : types.find? type with
      | none =>
          rw [draftOf_of_unknown htype, draftOf_of_unknown (hsame ▸ htype)]
      | some descriptor =>
          have hvisit := visitNode_of_agrees hprofile hself descriptor depth
          rw [draftOf_of_known htype, draftOf_of_known (hsame ▸ htype), ← hvisit]
          cases hclosing : (visitNode p descriptor
              ((Snapshot.node id type properties below).toNode parent)
              depth).layout.closing with
          | none => exact Visit.draft_of_closed hclosing _ _
          | some closing =>
              have hbelow : forall node,
                  node ∈ exposedOfList types (some id) below →
                    node ∈ exposedOfList types parent
                      (.node id type properties below :: rest) := by
                intro node hnode
                rw [exposedOfList_node_cons,
                  isSelfClosing_of_ne htype (shape_ne_of_closing hclosing)]
                simp [hnode]
              rw [ihbelow (htypes.of_subset hbelow) (hprofile.of_subset hbelow)]

theorem Draft.report_of_agrees (h : Profile.AgreesOn nodes p q) (draft : Draft) :
    draft.report p = draft.report q := by
  unfold Draft.report Draft.text
  rw [h.dialect, h.preamble]

/-!
# Exposed nodes of a subtree
-/

theorem exists_exposed {arena : Arena} (h : Forest.Holds arena parent ss)
    (hnode : node ∈ exposedOfList types parent ss) :
    exists slot s, s.Inside ss ∧ Forest.Holds arena slot [s] ∧
      node = s.toNode slot ∧
      forall other, other ∈ exposedOfList types slot [s] →
        other ∈ exposedOfList types parent ss := by
  induction h with
  | nil => cases hnode
  | @cons parent id type properties below rest hfind hbelow hrest ihbelow ihrest =>
      rw [exposedOfList_node_cons, List.mem_cons, List.mem_append] at hnode
      rw [exposedOfList_node_cons]
      rcases hnode with rfl | hnode | hnode
      · refine ⟨parent, _, .level List.mem_cons_self, .cons hfind hbelow .nil, rfl, ?_⟩
        intro other hother
        rw [exposedOfList_node_cons, List.mem_cons, List.mem_append] at hother
        rw [List.mem_cons, List.mem_append]
        exact hother.imp_right fun h =>
          Or.inl (h.resolve_right (List.not_mem_nil))
      · split at hnode
        · cases hnode
        · rename_i hopen
          rcases ihbelow hnode with ⟨slot, s, hinside, hheld, hself, hsub⟩
          refine ⟨slot, s, .deeper List.mem_cons_self hinside, hheld, hself, ?_⟩
          intro other hother
          rw [if_neg hopen]
          simp [hsub other hother]
      · rcases ihrest hnode with ⟨slot, s, hinside, hheld, hself, hsub⟩
        refine ⟨slot, s, hinside.cons, hheld, hself, ?_⟩
        intro other hother
        simp [hsub other hother]

end Render

namespace Forest

open Render

variable {forest : Forest} {ss : List Snapshot} {r s : Renderer}
  {profileId : String} {id : NodeId} {types : Registry}

/-!
# Renderings
-/

theorem Shows.render_of_agrees (h : Shows forest ss)
    (hagrees : r.AgreesOn (shown r.types forest) profileId s) :
    r.render forest profileId = s.render forest profileId := by
  have hprofile := hagrees.profile
  unfold Renderer.render ProfileRegistry.get
  generalize r.profiles.find? profileId = found at hprofile ⊢
  generalize s.profiles.find? profileId = found' at hprofile ⊢
  cases hprofile with
  | none => rfl
  | @some p q hpq =>
      have htypes := hagrees.types
      rw [← h.exposed_eq] at htypes hpq
      show (r.draft p forest forest.roots).report p =
        (s.draft q forest forest.roots).report q
      rw [draft_of_roots h, draft_of_roots h, draftOfList_of_agrees htypes hpq,
        Draft.report_of_agrees hpq]

theorem renderSubtree_of_missing {nodes : List Node}
    (hagrees : r.AgreesOn nodes profileId s) (hid : ¬ forest.contains id = true) :
    r.renderSubtree forest id profileId = s.renderSubtree forest id profileId := by
  have hprofile := hagrees.profile
  unfold Renderer.renderSubtree ProfileRegistry.get
  generalize r.profiles.find? profileId = found at hprofile ⊢
  generalize s.profiles.find? profileId = found' at hprofile ⊢
  cases hprofile with
  | none => rfl
  | some _ => simp only [if_neg hid]

theorem Subtree.renderSubtree_of_agrees {slot : Option NodeId} {top : Snapshot}
    (hsub : Subtree forest slot top)
    (hagrees : r.AgreesOn (exposedOfList r.types slot [top]) profileId s) :
    r.renderSubtree forest top.id profileId =
      s.renderSubtree forest top.id profileId := by
  have hid : forest.contains top.id = true :=
    contains_iff.mpr (mem_of_entry hsub.find)
  have hprofile := hagrees.profile
  unfold Renderer.renderSubtree ProfileRegistry.get
  generalize r.profiles.find? profileId = found at hprofile ⊢
  generalize s.profiles.find? profileId = found' at hprofile ⊢
  cases hprofile with
  | none => rfl
  | @some p q hpq =>
      simp only [if_pos hid]
      rw [draft_of_subtree hsub, draft_of_subtree hsub,
        ← draftOfList_singleton, ← draftOfList_singleton,
        draftOfList_of_agrees hagrees.types hpq, Draft.report_of_agrees hpq]

theorem Shows.mem_shown_of_exposed (h : Shows forest ss) {slot : Option NodeId}
    {top : Snapshot} (hsub : Subtree forest slot top)
    (hshown : ¬ Hidden types forest top.id) {node : Node}
    (hnode : node ∈ exposedOfList types slot [top]) :
    node ∈ shown types forest := by
  rcases h.exists_block hsub with ⟨depth, before, after, hrows⟩
  have hrow : (depth, top.toNode slot) ∈ forest.rows := by
    rw [hrows]
    cases top with
    | node id type properties below =>
        rw [Snapshot.nodesOfListAt_node_cons]
        simp
  have hself : top.toNode slot ∈ exposedOfList types none ss := by
    rw [h.exposed_eq, mem_shown_iff, Snapshot.toNode_id]
    exact ⟨depth, hrow, hshown⟩
  rcases exists_exposed h.held hself with
    ⟨slot', t, hinside, hheld, hsame, hexposed⟩
  have hslot := congrArg Node.parent hsame
  rw [Snapshot.toNode_parent, Snapshot.toNode_parent] at hslot
  have hid := congrArg Node.id hsame
  rw [Snapshot.toNode_id, Snapshot.toNode_id] at hid
  have htop : some t = some top := by
    rw [← (h.subtree_of_held hinside hheld).snapshotOf?, ← hid, hsub.snapshotOf?]
  cases htop
  rw [hslot] at hnode
  rw [← h.exposed_eq]
  exact hexposed node hnode

/-- Renderings of any forest that edits can make do not depend on the parts of
the configuration that they have no use for.  Two configurations that have the
same for the nodes that the first one shows give the same text, or the same
error, and the same notices.  For a subtree it is enough that they have the same
for the nodes shown of it, and these are among the nodes shown of the forest
unless the subtree is hidden there. -/
theorem ofEdits_renderings_local (registry : Registry) (options : Options)
    (requests : List Edit) (r s : Renderer) (profileId : String) :
    let forest := ofEdits registry options requests
    (r.AgreesOn (shown r.types forest) profileId s →
      r.render forest profileId = s.render forest profileId) ∧
    forall id,
      (r.AgreesOn (shownBelow r.types forest id) profileId s →
        r.renderSubtree forest id profileId =
          s.renderSubtree forest id profileId) ∧
      (¬ Hidden r.types forest id →
        r.AgreesOn (shown r.types forest) profileId s →
          r.renderSubtree forest id profileId =
            s.renderSubtree forest id profileId) := by
  intro forest
  rcases exists_shows_ofEdits registry options requests with ⟨ss, h⟩
  refine ⟨h.render_of_agrees, ?_⟩
  intro id
  by_cases hid : forest.contains id = true
  · rcases h.exists_subtree (contains_iff.mp hid) with ⟨slot, top, rfl, hsub⟩
    constructor
    · intro hagrees
      rw [← h.exposed_eq_shownBelow hsub] at hagrees
      exact hsub.renderSubtree_of_agrees hagrees
    · intro hshown hagrees
      exact hsub.renderSubtree_of_agrees (hagrees.of_subset fun node hnode =>
        h.mem_shown_of_exposed hsub hshown hnode)
  · exact ⟨fun hagrees => renderSubtree_of_missing hagrees hid,
      fun _ hagrees => renderSubtree_of_missing hagrees hid⟩

theorem renderings_local_of_image :
    let forest := ofEdits .standard ⟨false⟩
      [.insert .image none, .insert .card (some (NodeId.generate .image 1))]
    let r : Renderer := ⟨.standard, .standard⟩
    let s : Renderer :=
      ⟨Registry.empty.register ((Registry.standard.find? .image).get rfl),
        ProfileRegistry.empty.register
          ((Profile.bare ProfileId.semantic .html).withEmitter [.image]
            Semantic.emit)⟩
    r.AgreesOn (shown r.types forest) ProfileId.semantic s ∧
      ¬ Hidden r.types forest (NodeId.generate .image 1) ∧
      r.render forest ProfileId.semantic = s.render forest ProfileId.semantic ∧
      r.renderSubtree forest (NodeId.generate .image 1) ProfileId.semantic =
        s.renderSubtree forest (NodeId.generate .image 1) ProfileId.semantic := by
  intro forest r s
  let bare := Forest.empty .standard ⟨false⟩
  have hroots : SlotOf [] none := by
    intro p hp
    cases hp
  have himage := (Shows.empty .standard ⟨false⟩).place hroots .image
    ((Registry.standard.find? .image).get rfl).defaults
  have hfirst : (bare.edit (.insert .image none)).forest =
      bare.place .image ((Registry.standard.find? .image).get rfl).defaults none :=
    edit_insert_root rfl
  have hbelow : forest = (bare.place .image
      ((Registry.standard.find? .image).get rfl).defaults none).place .card
        ((Registry.standard.find? .card).get rfl).defaults
        (some (NodeId.generate .image 1)) := by
    have hfind : (bare.place .image _ none).find? (NodeId.generate .image 1) = _ :=
      (himage.subtree_of_root List.mem_cons_self).find
    have htype : (bare.place .image ((Registry.standard.find? .image).get
        rfl).defaults none).registry.find? .card =
          some ((Registry.standard.find? .card).get rfl) := rfl
    show ((bare.edit _).forest.edit _).forest = _
    rw [hfirst, edit_insert_below htype rfl hfind]
    rfl
  have hslot : SlotOf
      (Snapshot.changeSiblings none (Snapshot.insertBy List.length
        (.node (NodeId.generate .image 1) .image
          ((Registry.standard.find? .image).get rfl).defaults [])) [])
      (some (NodeId.generate .image 1)) := by
    intro p hp
    cases hp
    exact List.mem_cons_self
  have h : Shows forest _ := hbelow ▸ himage.place hslot .card
    ((Registry.standard.find? .card).get rfl).defaults
  have hagrees : r.AgreesOn (shown r.types forest) ProfileId.semantic s := by
    have htypes : forall node, node ∈ shown r.types forest →
        node.type = .image := by
      rw [← h.exposed_eq]
      decide
    refine ⟨?_, .some ⟨rfl, rfl, rfl, ?_⟩⟩
    · intro node hnode
      rw [htypes node hnode]
      rfl
    · intro node hnode
      rw [htypes node hnode]
      rfl
  have hshown : ¬ Hidden r.types forest (NodeId.generate .image 1) :=
    not_hidden_of_root (h.subtree_of_root List.mem_cons_self).find rfl
  rcases ofEdits_renderings_local .standard ⟨false⟩
    [.insert .image none, .insert .card (some (NodeId.generate .image 1))] r s
    ProfileId.semantic with ⟨hrender, hsubtree⟩
  exact ⟨hagrees, hshown, hrender hagrees,
    (hsubtree (NodeId.generate .image 1)).right hshown hagrees⟩

end Forest

end MarkupForest
