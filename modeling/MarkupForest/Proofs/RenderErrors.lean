import MarkupForest.Proofs.HiddenNodes
import MarkupForest.Proofs.KnownTypes
import MarkupForest.Proofs.Refusals

/-!
# Renderings that are refused

A rendering needs its profile, then its node, and then the types of the nodes
that are not hidden, in document order.  `Renderer.Refused` and
`Renderer.SubtreeRefused` list what can be missing.  A rendering fails for
exactly these reasons.
-/

namespace MarkupForest

namespace Renderer

open Forest (shown shownBelow)

/-- Why the rendering of a forest is refused. -/
inductive Refused (r : Renderer) (forest : Forest) (profileId : String) :
    RenderError → Prop where
  | unknownProfile : profileId ∉ r.profiles.ids →
      Refused r forest profileId (.unknownProfile profileId)
  | unknownType {node : Node} : profileId ∈ r.profiles.ids →
      (shown r.types forest).find? (fun node => !r.types.contains node.type) =
        some node →
      Refused r forest profileId (.unknownType node.type.name)

/-- Why the rendering of a subtree is refused. -/
inductive SubtreeRefused (r : Renderer) (forest : Forest) (id : NodeId)
    (profileId : String) : RenderError → Prop where
  | unknownProfile : profileId ∉ r.profiles.ids →
      SubtreeRefused r forest id profileId (.unknownProfile profileId)
  | nodeNotFound : profileId ∈ r.profiles.ids → forest.contains id = false →
      SubtreeRefused r forest id profileId (.nodeNotFound id)
  | unknownType {node : Node} : profileId ∈ r.profiles.ids →
      forest.contains id = true →
      (shownBelow r.types forest id).find?
        (fun node => !r.types.contains node.type) = some node →
      SubtreeRefused r forest id profileId (.unknownType node.type.name)

end Renderer

namespace Render

theorem Draft.answer_eq_error_iff {profile : Profile} {draft : Draft}
    {e : RenderError} :
    (draft.report profile).answer = .error e ↔ draft.error? = some e := by
  unfold Draft.report
  cases draft.error? with
  | none => simp
  | some other => simp

theorem unknownType?_eq_some_iff {types : Registry} {nodes : List Node}
    {e : RenderError} :
    unknownType? types nodes = some e ↔
      exists node,
        nodes.find? (fun node => !types.contains node.type) = some node ∧
        e = .unknownType node.type.name := by
  unfold unknownType?
  rw [Option.map_eq_some_iff]
  exact exists_congr fun node => and_congr_right fun _ => eq_comm

end Render

namespace Forest

open Render

variable {forest : Forest} {ss : List Snapshot} {id : NodeId}
  {profileId : String} {e : RenderError}

/-!
# The first reason
-/

theorem Shows.draft_roots_eq_error_iff (h : Shows forest ss) (r : Renderer)
    (profile : Profile) :
    ((r.draft profile forest forest.roots).report profile).answer = .error e ↔
      exists node,
        (shown r.types forest).find?
          (fun node => !r.types.contains node.type) = some node ∧
        e = .unknownType node.type.name := by
  rw [Draft.answer_eq_error_iff, draft_of_roots h, error?_draftOfList,
    h.exposed_eq, unknownType?_eq_some_iff]

theorem Shows.draft_subtree_eq_error_iff (h : Shows forest ss) (r : Renderer)
    (profile : Profile) (hid : forest.contains id = true) :
    ((r.draft profile forest [id]).report profile).answer = .error e ↔
      exists node,
        (shownBelow r.types forest id).find?
          (fun node => !r.types.contains node.type) = some node ∧
        e = .unknownType node.type.name := by
  rcases h.exists_subtree (contains_iff.mp hid) with ⟨slot, s, rfl, hsub⟩
  rw [Draft.answer_eq_error_iff, draft_of_subtree hsub, ← draftOfList_singleton,
    error?_draftOfList, h.exposed_eq_shownBelow hsub, unknownType?_eq_some_iff]

theorem Shows.render_eq_error_iff (h : Shows forest ss) (r : Renderer) :
    (r.render forest profileId).answer = .error e ↔
      r.Refused forest profileId e := by
  unfold Renderer.render
  by_cases hprofile : profileId ∈ r.profiles.ids
  · rcases ProfileRegistry.exists_of_mem_ids hprofile with ⟨profile, hget⟩
    rw [hget]
    refine (h.draft_roots_eq_error_iff r profile).trans ?_
    constructor
    · rintro ⟨node, hfirst, rfl⟩
      exact .unknownType hprofile hfirst
    · intro hrefused
      cases hrefused with
      | unknownProfile hnot => exact absurd hprofile hnot
      | unknownType _ hfirst => exact ⟨_, hfirst, rfl⟩
  · rw [ProfileRegistry.get_of_not_mem_ids hprofile, Except.error.injEq]
    constructor
    · rintro rfl
      exact .unknownProfile hprofile
    · intro hrefused
      cases hrefused with
      | unknownProfile _ => rfl
      | unknownType hmem _ => exact absurd hmem hprofile

theorem Shows.renderSubtree_eq_error_iff (h : Shows forest ss) (r : Renderer) :
    (r.renderSubtree forest id profileId).answer = .error e ↔
      r.SubtreeRefused forest id profileId e := by
  unfold Renderer.renderSubtree
  by_cases hprofile : profileId ∈ r.profiles.ids
  · rcases ProfileRegistry.exists_of_mem_ids hprofile with ⟨profile, hget⟩
    rw [hget]
    cases hid : forest.contains id with
    | true =>
        refine (h.draft_subtree_eq_error_iff r profile hid).trans ?_
        constructor
        · rintro ⟨node, hfirst, rfl⟩
          exact .unknownType hprofile hid hfirst
        · intro hrefused
          cases hrefused with
          | unknownProfile hnot => exact absurd hprofile hnot
          | nodeNotFound _ hmissing =>
              exact absurd (hid.symm.trans hmissing) (by decide)
          | unknownType _ _ hfirst => exact ⟨_, hfirst, rfl⟩
    | false =>
        show Except.error _ = Except.error e ↔ _
        rw [Except.error.injEq]
        constructor
        · rintro rfl
          exact .nodeNotFound hprofile hid
        · intro hrefused
          cases hrefused with
          | unknownProfile hnot => exact absurd hprofile hnot
          | nodeNotFound _ _ => rfl
          | unknownType _ hfound _ =>
              exact absurd (hid.symm.trans hfound) (by decide)
  · rw [ProfileRegistry.get_of_not_mem_ids hprofile, Except.error.injEq]
    constructor
    · rintro rfl
      exact .unknownProfile hprofile
    · intro hrefused
      cases hrefused with
      | unknownProfile _ => rfl
      | nodeNotFound hmem _ => exact absurd hmem hprofile
      | unknownType hmem _ _ => exact absurd hmem hprofile

/-!
# Rendering with the types of the forest
-/

theorem Shows.render_ok_iff (h : Shows forest ss)
    (hknown : Known forest.registry forest.arena) :
    (exists text, (forest.render profileId).answer = .ok text) ↔
      profileId ∈ ProfileRegistry.standard.ids := by
  let r : Renderer := ⟨forest.registry, .standard⟩
  constructor
  · rintro ⟨text, htext⟩
    by_contra hprofile
    have herror := (h.render_eq_error_iff r).mpr (.unknownProfile hprofile)
    have hanswer : (r.render forest profileId).answer = .ok text := htext
    rw [hanswer] at herror
    cases herror
  · intro hprofile
    cases hanswer : (forest.render profileId).answer with
    | ok text => exact ⟨text, rfl⟩
    | error e =>
        cases (h.render_eq_error_iff r).mp hanswer with
        | unknownProfile hnot => exact absurd hprofile hnot
        | @unknownType node _ hfirst =>
            have hshown := List.mem_of_find?_eq_some hfirst
            rcases hknown node.id node (h.find?_of_mem_shown hshown) with
              ⟨descriptor, hdescriptor⟩
            have hcontains : r.types.contains node.type = true :=
              Option.isSome_of_eq_some hdescriptor
            have hunknown := List.find?_some hfirst
            simp [hcontains] at hunknown

/-- In every forest that edits can make, a rendering of the forest or of a
subtree fails for exactly the reasons listed.  A forest is never missing a node,
and with its own types it can be rendered under the standard profiles and no
others. -/
theorem ofEdits_renderings_refused_iff (registry : Registry) (options : Options)
    (requests : List Edit) :
    let forest := ofEdits registry options requests
    (forall (r : Renderer) profileId e,
      (r.render forest profileId).answer = .error e ↔
        r.Refused forest profileId e) ∧
    (forall (r : Renderer) profileId id,
      (r.render forest profileId).answer ≠ .error (.nodeNotFound id)) ∧
    (forall (r : Renderer) id profileId e,
      (r.renderSubtree forest id profileId).answer = .error e ↔
        r.SubtreeRefused forest id profileId e) ∧
    forall profileId,
      (exists text, (forest.render profileId).answer = .ok text) ↔
        profileId ∈ [ProfileId.inlineStyle, ProfileId.utilityClass,
          ProfileId.componentCall, ProfileId.semantic] := by
  intro forest
  rcases exists_shows_ofEdits registry options requests with ⟨ss, h⟩
  refine ⟨fun r profileId e => h.render_eq_error_iff r, ?_,
    fun r id profileId e => h.renderSubtree_eq_error_iff r, ?_⟩
  · intro r profileId id hanswer
    cases (h.render_eq_error_iff r).mp hanswer
  · intro profileId
    exact h.render_ok_iff (known_ofEdits registry options requests)

end Forest

end MarkupForest
