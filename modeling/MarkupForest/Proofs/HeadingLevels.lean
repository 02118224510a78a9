import MarkupForest.Proofs.Blocks
import MarkupForest.Proofs.StyleLists
import MarkupForest.Proofs.Styling

/-!
# Heading levels

The level of a heading shows in its tag, in its font size and in a token for its
size.  The tag and the font size take the level of the type wherever there is no
number.  The token does so only where there is no property at all: a level of
another kind has none.
-/

namespace MarkupForest

namespace Element

theorem headingLevel_bounds (x : Binary64) :
    1 ≤ headingLevel x ∧ headingLevel x ≤ 6 := by
  unfold headingLevel
  omega

/-- The level that a heading has in the standard registry: that of its number, or
that of its type. -/
def shownLevel (node : Node) : Nat :=
  ((node.numberProperty? "level").map headingLevel).getD 2

theorem shownLevel_bounds (node : Node) :
    1 ≤ shownLevel node ∧ shownLevel node ≤ 6 := by
  unfold shownLevel
  cases node.numberProperty? "level" with
  | none => decide
  | some x => exact headingLevel_bounds x

theorem level_eq_of_size {size : Nat → String} {m n : Nat}
    (hsizes : ((List.range' 1 6).map size).Nodup) (hm : 1 ≤ m ∧ m ≤ 6)
    (hn : 1 ≤ n ∧ n ≤ 6) (h : size m = size n) : m = n := by
  apply List.inj_on_of_nodup_map hsizes
  · exact List.mem_range'_1.mpr ⟨hm.left, by omega⟩
  · exact List.mem_range'_1.mpr ⟨hn.left, by omega⟩
  · exact h

end Element

/-- The declarations that the standard registry has for headings. -/
def Registry.headingStyle : List Declaration :=
  [("font-size", "2rem"), ("font-weight", "700"), ("margin", "0")]

/-- The classes that the standard registry has for headings. -/
def Registry.headingClasses : String :=
  "font-bold tracking-tight"

namespace InlineStyle

theorem fontSize_of_heading {node : Node} (hheading : node.type = .heading) :
    let declared := declarations node Registry.headingStyle
    (declared.map Prod.fst).Nodup ∧
    declared.lookup "font-size" =
      some (headingSize (Element.shownLevel node)) := by
  intro declared
  constructor
  · exact nodup_setDeclarations (by decide)
  · have hfree : "font-size" ∉ (freeDeclarations node).map Prod.fst := fun hmem =>
      absurd ((names_freeDeclarations node).subset hmem) (by decide)
    show (setDeclarations _
      (typeDeclarations node ++ _)).lookup "font-size" = _
    rw [setDeclarations_append, lookup_setDeclarations,
      effective?_eq_none_iff.mpr hfree, Option.none_or]
    unfold typeDeclarations headingDeclarations
      Element.shownLevel
    rw [hheading]
    cases node.numberProperty? "level" with
    | none => rfl
    | some x => exact lookup_setDeclaration _ _ _

end InlineStyle

/-!
# The standard heading
-/

/-- What the standard registry says of headings. -/
structure Registry.StandardHeading (descriptor : Descriptor) : Prop where
  found : Registry.standard.find? .heading = some descriptor
  tag : descriptor.tag = "h2"
  level : descriptor.default? "level" = some (.number (.ofNat 2))
  style : descriptor.strategy? ProfileId.inlineStyle =
    some (.declarations headingStyle)
  classes : descriptor.strategy? ProfileId.utilityClass =
    some (.classes headingClasses)
  component : descriptor.strategy? ProfileId.componentCall =
    some (.component "h2" none)

theorem Registry.exists_standardHeading :
    exists descriptor, Registry.StandardHeading descriptor :=
  ⟨_, rfl, rfl, rfl, rfl, rfl, rfl⟩

namespace Registry.StandardHeading

variable {descriptor : Descriptor} {node : Node}

theorem tagOf (h : StandardHeading descriptor) (hheading : node.type = .heading) :
    Element.tagOf node descriptor = "h" ++ toString (Element.shownLevel node) := by
  unfold Element.tagOf Element.shownLevel
  rw [hheading]
  cases node.numberProperty? "level" with
  | none => exact h.tag
  | some x => rfl

theorem semantic (h : StandardHeading descriptor) (hheading : node.type = .heading) :
    Element.semantic node descriptor =
      ⟨"h" ++ toString (Element.shownLevel node), [], none⟩ := by
  unfold Element.semantic Element.semanticAttributes
  rw [h.tagOf hheading, hheading]
  rfl

theorem typeTokens (h : StandardHeading descriptor)
    (hheading : node.type = .heading) :
    UtilityClass.typeTokens node descriptor =
      match node.property? "level" with
      | none | some (.number _) =>
          [UtilityClass.headingSize (Element.shownLevel node)]
      | _ => [] := by
  unfold UtilityClass.typeTokens UtilityClass.headingTokens Element.shownLevel
    Node.numberProperty?
  rw [hheading, h.level]
  cases node.property? "level" with
  | none =>
      have htwo : Element.headingLevel (.ofNat 2) = 2 := by decide +kernel
      simp [PropertyValue.number?, htwo]
  | some value => cases value <;> rfl

theorem inlineStyle (h : StandardHeading descriptor)
    (hheading : node.type = .heading) :
    InlineStyle.profile.element descriptor node =
      (⟨"h" ++ toString (Element.shownLevel node),
        [Attribute.text "style" (InlineStyle.styleText
          (InlineStyle.declarations node headingStyle))], none⟩, false) := by
  have hemit : InlineStyle.profile.emitters node.type = some InlineStyle.emit := by
    rw [hheading]
    rfl
  rw [Profile.element_of_emitter hemit h.style]
  unfold InlineStyle.emit
  simp only [h.semantic hheading]
  have hsize := (InlineStyle.fontSize_of_heading hheading).right
  unfold InlineStyle.styleAttribute?
  cases hdeclared : InlineStyle.declarations node headingStyle with
  | nil =>
      rw [hdeclared] at hsize
      cases hsize
  | cons d rest => rfl

theorem words_classes :
    Text.words headingClasses = ["font-bold", "tracking-tight"] := by
  decide +kernel

theorem styled (h : StandardHeading descriptor) (hheading : node.type = .heading) :
    UtilityClass.styled node descriptor headingClasses =
      ⟨"h" ++ toString (Element.shownLevel node),
        [Attribute.text "class" (UtilityClass.classList node descriptor
          headingClasses)], none⟩ := by
  have hne : (UtilityClass.classList node descriptor headingClasses).isEmpty = false := by
    unfold UtilityClass.classList UtilityClass.tokens
    rw [words_classes, List.cons_append, List.cons_append, List.cons_append,
      Bool.eq_false_iff]
    intro hempty
    exact Render.intercalate_ne_empty (by decide) _ (String.isEmpty_iff.mp hempty)
  unfold UtilityClass.styled
  simp only [hne, h.semantic hheading]
  rfl

theorem utilityClass (h : StandardHeading descriptor)
    (hheading : node.type = .heading) :
    UtilityClass.profile.element descriptor node =
      (UtilityClass.styled node descriptor headingClasses, false) := by
  have hemit : UtilityClass.profile.emitters node.type =
      some UtilityClass.emit := by
    rw [hheading]
    rfl
  rw [Profile.element_of_emitter hemit h.classes]
  rfl

theorem componentCall (h : StandardHeading descriptor)
    (hheading : node.type = .heading) :
    ComponentCall.profile.element descriptor node =
      (UtilityClass.styled node descriptor headingClasses, false) := by
  have hemit : ComponentCall.profile.emitters node.type =
      some ComponentCall.emit := by
    rw [hheading]
    rfl
  rw [Profile.element_of_emitter hemit h.component]
  unfold ComponentCall.emit
  simp only [h.classes]
  rfl

end Registry.StandardHeading

/-- A heading of the standard registry has one level.  It shows in the tag and in
the font size, whatever the property is.  It shows in the class list, as a single
token behind those of the type and in front of all others, if the property is a
number or missing; a property of another kind leaves the token out. -/
theorem Registry.heading_level_shown (node : Node)
    (hheading : node.type = .heading) :
    exists descriptor level declared sizes,
      Registry.standard.find? node.type = some descriptor ∧
      1 ≤ level ∧ level ≤ 6 ∧
      level = ((node.numberProperty? "level").map Element.headingLevel).getD 2 ∧
      Element.tagOf node descriptor = "h" ++ toString level ∧
      -- the style declares one font size
      InlineStyle.profile.element descriptor node =
        (⟨"h" ++ toString level,
          [Attribute.text "style" (InlineStyle.styleText declared)], none⟩,
          false) ∧
      (declared.map Prod.fst).Nodup ∧
      declared.lookup "font-size" = some (InlineStyle.headingSize level) ∧
      -- the class list
      (forall profile,
        profile ∈ [UtilityClass.profile, ComponentCall.profile] →
          profile.element descriptor node =
            (⟨"h" ++ toString level,
              [Attribute.text "class" (String.intercalate " "
                (["font-bold", "tracking-tight"] ++ sizes ++
                  ((node.textProperty? "align").map ("text-" ++ ·)).toList ++
                  ((node.textProperty? "className").map Text.words).getD []))],
              none⟩, false)) ∧
      sizes =
        (match node.property? "level" with
        | none | some (.number _) => [UtilityClass.headingSize level]
        | _ => []) ∧
      -- the level can be read off both sizes
      forall other, 1 ≤ other → other ≤ 6 →
        (InlineStyle.headingSize other = InlineStyle.headingSize level →
          other = level) ∧
        (UtilityClass.headingSize other = UtilityClass.headingSize level →
          other = level) := by
  rcases Registry.exists_standardHeading with ⟨descriptor, h⟩
  rcases Element.shownLevel_bounds node with ⟨hlower, hupper⟩
  refine ⟨descriptor, Element.shownLevel node, _,
    UtilityClass.typeTokens node descriptor, hheading ▸ h.found, hlower, hupper, rfl,
    h.tagOf hheading, h.inlineStyle hheading,
    (InlineStyle.fontSize_of_heading hheading).left,
    (InlineStyle.fontSize_of_heading hheading).right, ?_, h.typeTokens hheading, ?_⟩
  · intro profile hprofile
    have hstyled := h.styled hheading
    unfold UtilityClass.classList UtilityClass.tokens at hstyled
    rw [Registry.StandardHeading.words_classes] at hstyled
    simp only [List.mem_cons, List.not_mem_nil, or_false] at hprofile
    rcases hprofile with rfl | rfl
    · rw [h.utilityClass hheading, hstyled]
    · rw [h.componentCall hheading, hstyled]
  · intro other hother hle
    constructor
    · exact Element.level_eq_of_size (by decide) ⟨hother, hle⟩ ⟨hlower, hupper⟩
    · exact Element.level_eq_of_size (by decide) ⟨hother, hle⟩ ⟨hlower, hupper⟩

theorem Registry.heading_level_shown_of_nan :
    let node : Node :=
      { id := .generate .heading 1
        type := .heading
        properties := .ofList [("level", .number .nan), ("align", .text "3xl")]
        parent := none
        children := [] }
    exists descriptor,
      Registry.standard.find? .heading = some descriptor ∧
      Element.tagOf node descriptor = "h1" ∧
      UtilityClass.profile.element descriptor node =
        (⟨"h1", [Attribute.text "class"
          "font-bold tracking-tight text-4xl text-3xl"], none⟩, false) := by
  intro node
  rcases Registry.heading_level_shown node rfl with
    ⟨descriptor, level, declared, sizes, hfound, _, _, hlevel, htag, _, _, _,
      hclasses, hsizes, _⟩
  have hone : level = 1 := hlevel
  subst hone
  refine ⟨descriptor, hfound, htag, ?_⟩
  rw [hclasses UtilityClass.profile List.mem_cons_self, hsizes]
  decide +kernel

/-- A heading whose level is a text has the tag and the font size of its type, but
no token for its size. -/
theorem Registry.heading_of_text_level_unsized :
    let node : Node :=
      { id := .generate .heading 1
        type := .heading
        properties := .ofList [("text", .text "Heading"), ("level", .text "3")]
        parent := none
        children := [] }
    exists descriptor,
      Registry.standard.find? .heading = some descriptor ∧
      Element.tagOf node descriptor = "h2" ∧
      (InlineStyle.profile.element descriptor node).1.attributes =
        [Attribute.text "style" "font-size: 2rem; font-weight: 700; margin: 0"] ∧
      (UtilityClass.profile.element descriptor node).1.attributes =
        [Attribute.text "class" "font-bold tracking-tight"] ∧
      UtilityClass.headingSize 2 ∉
        UtilityClass.tokens node descriptor "font-bold tracking-tight" := by
  refine ⟨_, rfl, rfl, ?_, ?_, ?_⟩
  · decide +kernel
  · decide +kernel
  · decide +kernel

end MarkupForest
