import MarkupForest.Proofs.ProperNames
import MarkupForest.Proofs.WellFormed

/-!
# Well-nested markup

Whatever texts the nodes of a forest carry, its rendering under a standard
profile reads back as one element per root, nested as the nodes are.
-/

namespace MarkupForest

/-!
# The standard profiles have proper names
-/

/-- An element is proper when every rule of the profile makes proper ones. -/
theorem Profile.proper_of_emitters {p : Profile}
    (h : forall emit subject, p.emitters subject.node.type = some emit →
      subject.descriptor.Proper →
      subject.descriptor.strategy? p.id = some subject.strategy →
      (emit subject).Proper) : p.Proper .standard := by
  constructor
  · intro descriptor node hfind
    have hdescriptor := proper_standard hfind
    unfold Profile.element
    split
    · rename_i emit strategy hemit hstrategy
      exact h emit ⟨node, descriptor, strategy, p.dialect⟩ hemit hdescriptor
        hstrategy
    · exact Element.proper_generic hdescriptor node
  · intro type descriptor property tag hfind hshape
    exact (proper_standard hfind).itemTag property tag hshape

theorem InlineStyle.proper_profile : InlineStyle.profile.Proper .standard := by
  apply Profile.proper_of_emitters
  intro emit subject hemit hdescriptor _
  rw [Profile.emitter_of_withEmitter hemit]
  exact InlineStyle.proper_emit hdescriptor

theorem UtilityClass.proper_profile : UtilityClass.profile.Proper .standard := by
  apply Profile.proper_of_emitters
  intro emit subject hemit hdescriptor _
  rw [Profile.emitter_of_withEmitter hemit]
  exact UtilityClass.proper_styled hdescriptor subject.node _

theorem ComponentCall.proper_profile :
    ComponentCall.profile.Proper .standard := by
  apply Profile.proper_of_emitters
  intro emit subject hemit hdescriptor hstrategy
  rw [Profile.emitter_of_withEmitter hemit]
  exact ComponentCall.proper_emit hdescriptor hstrategy

theorem Semantic.proper_profile : Semantic.profile.Proper .standard := by
  apply Profile.proper_of_emitters
  intro emit subject hemit hdescriptor _
  rw [Profile.emitter_of_withEmitter hemit]
  exact Element.proper_semantic hdescriptor subject.node

theorem exists_standard_profile {id : String}
    (h : id ∈ ProfileRegistry.standard.ids) :
    exists p, ProfileRegistry.standard.get id = .ok p ∧ p.Proper .standard := by
  rcases ProfileRegistry.exists_of_mem_ids h with ⟨p, hget⟩
  refine ⟨p, hget, ?_⟩
  exact ProfileRegistry.standard_cases InlineStyle.proper_profile
    UtilityClass.proper_profile ComponentCall.proper_profile
    Semantic.proper_profile hget

namespace Render

/-!
# Rendering with the standard registry
-/

theorem draftOfList_standard_ok (profile : Profile) (ss : List Snapshot) :
    forall depth parent,
      (draftOfList .standard profile depth parent ss).error? = none := by
  induction ss using Snapshot.nested_induction with
  | nil => exact fun _ _ => rfl
  | cons id type properties below rest ihbelow ihrest =>
      intro depth parent
      rcases exists_standard type with ⟨descriptor, htype⟩
      rw [draftOfList_cons, draftOf_of_known htype]
      refine Draft.append_ok_iff.mpr ⟨?_, ihrest depth parent⟩
      show (Visit.finish _ _).error? = none
      unfold Visit.finish
      split
      · exact Draft.append_ok_iff.mpr ⟨ihbelow (depth + 1) (some id), rfl⟩
      · rfl

/-- Rendering a forest over the standard registry under a standard profile
succeeds.  The text is a body, behind the lines of the preamble and a blank line if
there is a preamble.  The tags of the body are those of one element per root: the
element of a node contains the elements of its items or its table and then those of
its children, and nothing else. -/
theorem elements_of_render (options : Options) (requests : List Edit)
    (profileId : String) (hprofile : profileId ∈ ProfileRegistry.standard.ids) :
    let forest := Forest.ofEdits .standard options requests
    exists profile body text,
      ProfileRegistry.standard.get profileId = .ok profile ∧
      (forest.render profileId).answer = .ok text ∧
      Assembled
        (profile.preamble (Imports.collect (Renderer.draft ⟨.standard, .standard⟩
          profile forest forest.roots).imports))
        body text ∧
      forest.snapshot.map Snapshot.id = forest.roots ∧
      Markup.elements? body =
        some (forest.snapshot.map (nestOf .standard profile none)) := by
  intro forest
  rcases exists_standard_profile hprofile with ⟨profile, hget, hproper⟩
  rcases Forest.exists_shows_ofEdits .standard options requests with ⟨ss, hshows⟩
  have hdraft := draft_of_roots hshows ⟨.standard, .standard⟩ profile
  have hok := draftOfList_standard_ok profile ss 0 none
  have hdrafted := drafted_draftOfList ss 0 none hok
  rcases Draft.exists_answer profile hok with ⟨text, htext, hassembled⟩
  refine ⟨profile, _, text, hget, ?_, hdraft ▸ hassembled, ?_, ?_⟩
  · unfold Forest.render Renderer.render
    simp only [hget]
    rw [Forest.ofEdits_registry, hdraft]
    exact htext
  · rw [hshows.snapshot, hshows.roots]
  · show (Markup.scan none (bodyText profile.dialect _).toList).bind _ = _
    rw [hdraft, Markup.scan_bodyText (hdrafted.proper hproper), Option.bind_some,
      hdrafted.balanced.nest_eq, hshows.snapshot, nestsOf_eq_map]

theorem elements_of_board :
    let forest := Forest.ofEdits .standard ⟨false⟩ Forest.board
    ProfileId.componentCall ∈ ProfileRegistry.standard.ids ∧
    exists body text,
      (forest.render ProfileId.componentCall).answer = .ok text ∧
      text = "import \x7b Card \x7d from \"@/components/ui/card\";\n\n" ++ body ∧
      Markup.elements? body = some
        [ .element "Card"
          [ .element "p" [],
            .element "ul" [.element "li" [], .element "li" []],
            .element "table"
              [ .element "thead" [.element "tr" [.element "th" []]],
                .element "tbody"
                  [.element "tr" [.element "td" [], .element "td" []]] ] ] ] := by
  intro forest
  have hmem : ProfileId.componentCall ∈ ProfileRegistry.standard.ids := by decide
  rcases elements_of_render ⟨false⟩ Forest.board ProfileId.componentCall hmem with
    ⟨profile, body, text, hget, htext, hassembled, _, hbody⟩
  cases hget
  have hshows := Forest.shows_board
  rw [draft_of_roots hshows] at hassembled
  rw [hshows.snapshot] at hbody
  have hpreamble : ComponentCall.profile.preamble
      (Imports.collect (draftOfList .standard ComponentCall.profile 0 none
        [Forest.boardCard]).imports) =
          ["import \x7b Card \x7d from \"@/components/ui/card\";"] := by
    decide +kernel
  rw [show ComponentCall.profile.preamble _ = _ from hpreamble] at hassembled
  have hne : body ≠ "" := by
    rintro rfl
    cases hbody
  have hwhole := hassembled.whole (List.cons_ne_nil _ _) hne
  refine ⟨hmem, body, text, htext, ?_, hbody.trans ?_⟩
  · rw [hwhole, ← String.append_assoc]
    rfl
  · decide +kernel

end Render

end MarkupForest
