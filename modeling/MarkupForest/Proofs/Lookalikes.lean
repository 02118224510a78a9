import MarkupForest.Profile.Standard
import MarkupForest.Proofs.ZeroSigns
import MarkupForest.Render.Layout

/-!
# Nodes that look alike

Two nodes look alike when they have the same type and, by key and up to the sign
of zero, the same properties, and both or neither have children.  Their
identifiers, their parents and the order of their properties may differ.  Every
standard profile turns such nodes into elements that are written alike.
-/

namespace MarkupForest

/-- Nodes that rendering has no means to tell apart. -/
structure Node.Alike (m n : Node) : Prop where
  type : m.type = n.type
  property : forall key,
    (m.property? key).map PropertyValue.dropZeroSign =
      (n.property? key).map PropertyValue.dropZeroSign
  hasChildren : m.hasChildren = n.hasChildren

variable {m n : Node} {alpha : Type}

/-!
# Reading properties

A reader that does not see the sign of a zero reads the same from both nodes.
-/

theorem PropertyValue.number_cases {v w : Option PropertyValue}
    (h : v.map PropertyValue.dropZeroSign = w.map PropertyValue.dropZeroSign) :
    (v.bind PropertyValue.number? = none ∧ w.bind PropertyValue.number? = none) ∨
      exists x y, v.bind PropertyValue.number? = some x ∧
        w.bind PropertyValue.number? = some y ∧
        x.dropZeroSign = y.dropZeroSign := by
  have hdrop : forall u : Option PropertyValue,
      (u.bind PropertyValue.number?).map Binary64.dropZeroSign =
        (u.map PropertyValue.dropZeroSign).bind PropertyValue.number? := by
    intro u
    cases u with
    | none => rfl
    | some value => exact (PropertyValue.number?_dropZeroSign value).symm
  have hmap := hdrop v
  rw [h, ← hdrop w] at hmap
  cases hv : v.bind PropertyValue.number? with
  | none =>
      rw [hv, Option.map_none, eq_comm, Option.map_eq_none_iff] at hmap
      exact Or.inl ⟨rfl, hmap⟩
  | some x =>
      rw [hv, Option.map_some, eq_comm, Option.map_eq_some_iff] at hmap
      rcases hmap with ⟨y, hy, heq⟩
      exact Or.inr ⟨x, y, rfl, hy, heq.symm⟩

namespace Node.Alike

theorem bind_property (h : m.Alike n) {read : PropertyValue → Option alpha}
    (hread : forall v, read v.dropZeroSign = read v) (key : String) :
    (m.property? key).bind read = (n.property? key).bind read := by
  have hdrop : forall v : Option PropertyValue,
      (v.map PropertyValue.dropZeroSign).bind read = v.bind read := by
    intro v
    cases v with
    | none => rfl
    | some value => exact hread value
  rw [← hdrop, h.property key, hdrop]

theorem map_property (h : m.Alike n) {read : PropertyValue → alpha}
    (hread : forall v, read v.dropZeroSign = read v) (key : String) :
    (m.property? key).map read = (n.property? key).map read := by
  have hdrop : forall v : Option PropertyValue,
      (v.map PropertyValue.dropZeroSign).map read = v.map read := by
    intro v
    cases v with
    | none => rfl
    | some value => exact congrArg some (hread value)
  rw [← hdrop, h.property key, hdrop]

theorem textProperty? (h : m.Alike n) (key : String) :
    m.textProperty? key = n.textProperty? key :=
  h.bind_property PropertyValue.text?_dropZeroSign key

theorem text? (h : m.Alike n) : m.text? = n.text? :=
  h.textProperty? "text"

theorem hasFlag (h : m.Alike n) (key : String) :
    m.hasFlag key = n.hasFlag key := by
  unfold Node.hasFlag
  rw [h.bind_property PropertyValue.flag?_dropZeroSign key]

theorem itemsOf (h : m.Alike n) (key : String) :
    Layout.itemsOf m key = Layout.itemsOf n key := by
  unfold Layout.itemsOf
  rw [h.bind_property PropertyValue.list?_dropZeroSign key]

theorem tableOf (h : m.Alike n) (key : String) :
    Layout.tableOf m key = Layout.tableOf n key := by
  unfold Layout.tableOf
  rw [h.bind_property PropertyValue.table?_dropZeroSign key]

theorem number_cases (h : m.Alike n) (key : String) :
    (m.numberProperty? key = none ∧ n.numberProperty? key = none) ∨
      exists x y, m.numberProperty? key = some x ∧
        n.numberProperty? key = some y ∧ x.dropZeroSign = y.dropZeroSign :=
  PropertyValue.number_cases (h.property key)

end Node.Alike

/-!
# Meaning
-/

theorem Element.headingLevel_eq {x y : Binary64}
    (h : x.dropZeroSign = y.dropZeroSign) : headingLevel x = headingLevel y := by
  unfold headingLevel
  rw [Binary64.truncate_eq h]

namespace Node.Alike

theorem tagOf (h : m.Alike n) (descriptor : Descriptor) :
    Element.tagOf m descriptor = Element.tagOf n descriptor := by
  unfold Element.tagOf
  rw [h.type, h.hasFlag]
  split
  · rcases h.number_cases "level" with ⟨hm, hn⟩ | ⟨x, y, hm, hn, hxy⟩
    · rw [hm, hn]
    · rw [hm, hn]
      show "h" ++ _ = "h" ++ _
      rw [Element.headingLevel_eq hxy]
  · rfl
  · rfl

theorem caption? (h : m.Alike n) : Element.caption? m = Element.caption? n := by
  unfold Element.caption?
  rw [h.text?]

theorem read? (h : m.Alike n) (source : Element.AttributeSource) :
    (source.read? m).map Attribute.dropZeroSign =
      (source.read? n).map Attribute.dropZeroSign := by
  cases source with
  | property name =>
      show ((m.property? name).bind _).map _ = ((n.property? name).bind _).map _
      rw [Option.map_bind, Option.map_bind]
      apply h.bind_property
      intro v
      show (Attribute.ofProperty? name v.dropZeroSign).map _ =
        (Attribute.ofProperty? name v).map _
      rw [Attribute.ofProperty?_dropZeroSign, Option.map_map]
      congr 1
      funext a
      exact Attribute.dropZeroSign_dropZeroSign a
  | constant name content => rfl
  | textAs name key =>
      show ((m.textProperty? key).map _).map _ = ((n.textProperty? key).map _).map _
      rw [h.textProperty?]
  | caption =>
      show (Element.caption? m).map _ = (Element.caption? n).map _
      rw [h.caption?]

theorem semanticAttributes (h : m.Alike n) :
    (Element.semanticAttributes m).map Attribute.dropZeroSign =
      (Element.semanticAttributes n).map Attribute.dropZeroSign := by
  unfold Element.semanticAttributes
  rw [h.type, List.map_filterMap, List.map_filterMap]
  congr 1
  funext source
  exact h.read? source

theorem semantic (h : m.Alike n) (descriptor : Descriptor) :
    (Element.semantic m descriptor).Alike (Element.semantic n descriptor) where
  tag := h.tagOf descriptor
  attributes := h.semanticAttributes
  imported := rfl

theorem generic (h : m.Alike n) (descriptor : Descriptor) :
    (Element.generic m descriptor).Alike (Element.generic n descriptor) where
  tag := rfl
  attributes := by
    unfold Element.generic
    rw [h.caption?]
  imported := rfl

end Node.Alike

/-!
# Class tokens
-/

namespace UtilityClass

theorem headingTokens_eq (h : m.Alike n) (descriptor : Descriptor) :
    headingTokens m descriptor = headingTokens n descriptor := by
  have hlevel :
      ((m.property? "level").or (descriptor.default? "level")).map
          PropertyValue.dropZeroSign =
        ((n.property? "level").or (descriptor.default? "level")).map
          PropertyValue.dropZeroSign := by
    rw [Option.map_or, Option.map_or, h.property]
  unfold headingTokens
  rcases PropertyValue.number_cases hlevel with
    ⟨hm, hn⟩ | ⟨x, y, hm, hn, hxy⟩
  · simp only [hm, hn]
  · simp only [hm, hn, Element.headingLevel_eq hxy]

theorem gridTokens_eq (h : m.Alike n) : gridTokens m = gridTokens n := by
  unfold gridTokens
  rcases h.number_cases "columns" with ⟨hm, hn⟩ | ⟨x, y, hm, hn, hxy⟩
  · rw [hm, hn]
  · simp only [hm, hn, Binary64.truncate_eq hxy]

theorem typeTokens_eq (h : m.Alike n) (descriptor : Descriptor) :
    typeTokens m descriptor = typeTokens n descriptor := by
  unfold typeTokens
  rw [h.type]
  split
  · exact headingTokens_eq h descriptor
  · exact gridTokens_eq h
  · unfold listTokens
    rw [h.hasFlag]
  · unfold buttonTokens
    rw [h.textProperty?, h.textProperty?, h.hasFlag]
  · rw [h.textProperty?]
  · rw [h.textProperty?]
  · rfl

theorem classList_eq (h : m.Alike n) (descriptor : Descriptor) (base : String) :
    classList m descriptor base = classList n descriptor base := by
  unfold classList tokens
  rw [typeTokens_eq h, h.textProperty?, h.textProperty?]

theorem alike_styled (h : m.Alike n) (descriptor : Descriptor) (base : String) :
    (styled m descriptor base).Alike (styled n descriptor base) := by
  have hsemantic := h.semantic descriptor
  unfold styled
  rw [classList_eq h]
  by_cases hempty : (classList n descriptor base).isEmpty = true
  · simp only [if_pos hempty]
    exact hsemantic
  · simp only [if_neg hempty]
    refine ⟨hsemantic.tag, ?_, hsemantic.imported⟩
    rw [List.map_cons, List.map_cons, hsemantic.attributes]

end UtilityClass

/-!
# Style declarations
-/

namespace InlineStyle

theorem headingDeclarations_eq (h : m.Alike n) :
    headingDeclarations m = headingDeclarations n := by
  unfold headingDeclarations
  rcases h.number_cases "level" with ⟨hm, hn⟩ | ⟨x, y, hm, hn, hxy⟩
  · rw [hm, hn]
  · simp only [hm, hn, Element.headingLevel_eq hxy]

theorem gridDeclarations_eq (h : m.Alike n) :
    gridDeclarations m = gridDeclarations n := by
  unfold gridDeclarations columnCount
  rcases h.number_cases "columns" with ⟨hm, hn⟩ | ⟨x, y, hm, hn, hxy⟩
  · rw [hm, hn]
  · simp only [hm, hn, Binary64.truncate_eq hxy]

theorem typeDeclarations_eq (h : m.Alike n) :
    typeDeclarations m = typeDeclarations n := by
  unfold typeDeclarations
  rw [h.type]
  split
  · exact headingDeclarations_eq h
  · exact gridDeclarations_eq h
  · unfold buttonDeclarations
    rw [h.textProperty?, h.textProperty?, h.hasFlag]
  · unfold badgeDeclarations
    rw [h.textProperty?]
  · unfold alertDeclarations
    rw [h.textProperty?]
  · rfl

theorem freeDeclarations_eq (h : m.Alike n) :
    freeDeclarations m = freeDeclarations n := by
  have hlength : forall name key : String,
      (m.property? key).map (fun value => (name, lengthText value)) =
        (n.property? key).map fun value => (name, lengthText value) := by
    intro name key
    apply h.map_property
    intro v
    rw [PropertyValue.lengthText_dropZeroSign]
  unfold freeDeclarations
  rw [h.textProperty?, h.textProperty?, h.textProperty?, hlength, hlength]

theorem declarations_eq (h : m.Alike n) (base : List Declaration) :
    declarations m base = declarations n base := by
  unfold declarations
  rw [typeDeclarations_eq h, freeDeclarations_eq h]

end InlineStyle

/-!
# Attributes of components
-/

namespace ComponentCall

theorem textAttribute_eq (h : m.Alike n) (name key : String) :
    textAttribute? m name key = textAttribute? n name key := by
  unfold textAttribute?
  rw [h.textProperty?]

theorem flagAttribute_eq (h : m.Alike n) (name key : String) :
    flagAttribute? m name key = flagAttribute? n name key := by
  unfold flagAttribute?
  rw [h.hasFlag]

theorem choice_eq (h : m.Alike n) (key usual : String) :
    choice m key usual = choice n key usual := by
  unfold choice
  rw [h.textProperty?]

theorem alertVariant_eq (h : m.Alike n) : alertVariant m = alertVariant n := by
  unfold alertVariant
  rw [h.textProperty?]

theorem numberAttribute_drop (h : m.Alike n) (key : String) :
    (numberAttribute? m key).map Attribute.dropZeroSign =
      (numberAttribute? n key).map Attribute.dropZeroSign := by
  unfold numberAttribute?
  rcases h.number_cases key with ⟨hm, hn⟩ | ⟨x, y, hm, hn, hxy⟩
  · rw [hm, hn]
  · rw [hm, hn]
    exact congrArg (fun z => some (Attribute.number key z)) hxy

theorem typeAttributes_drop (h : m.Alike n) :
    (typeAttributes m).map (Option.map Attribute.dropZeroSign) =
      (typeAttributes n).map (Option.map Attribute.dropZeroSign) := by
  unfold typeAttributes
  rw [h.type]
  cases n.type <;>
    simp only [List.map_cons, List.map_nil, textAttribute_eq h,
      flagAttribute_eq h, choice_eq h, alertVariant_eq h, numberAttribute_drop h]

theorem attributes_drop (h : m.Alike n) :
    (attributes m).map Attribute.dropZeroSign =
      (attributes n).map Attribute.dropZeroSign := by
  have hfilter : forall list : List (Option Attribute),
      (list.filterMap id).map Attribute.dropZeroSign =
        (list.map (Option.map Attribute.dropZeroSign)).filterMap id := by
    intro list
    rw [List.map_filterMap, List.filterMap_map]
    rfl
  unfold attributes
  rw [hfilter, hfilter, List.map_append, List.map_append, typeAttributes_drop h,
    flagAttribute_eq h, textAttribute_eq h]

end ComponentCall

/-!
# Profiles
-/

/-- The rules of a profile turn nodes that look alike into elements that are
written alike. -/
def Profile.Steady (p : Profile) : Prop :=
  forall type emit, p.emitters type = some emit →
    forall m n, m.Alike n → forall descriptor strategy,
      (emit ⟨m, descriptor, strategy, p.dialect⟩).Alike
        (emit ⟨n, descriptor, strategy, p.dialect⟩)

theorem Profile.Steady.element {p : Profile} (hp : p.Steady) (h : m.Alike n)
    (descriptor : Descriptor) :
    (p.element descriptor m).1.Alike (p.element descriptor n).1 ∧
      (p.element descriptor m).2 = (p.element descriptor n).2 := by
  unfold Profile.element
  rw [h.type]
  split
  · rename_i emit strategy hemit _
    exact ⟨hp n.type emit hemit m n h descriptor strategy, rfl⟩
  · exact ⟨h.generic descriptor, rfl⟩

theorem InlineStyle.steady_profile : InlineStyle.profile.Steady := by
  intro type emit hemit m n h descriptor strategy
  rw [Profile.emitter_of_withEmitter hemit]
  have hsemantic := h.semantic descriptor
  refine ⟨hsemantic.tag, ?_, hsemantic.imported⟩
  unfold InlineStyle.emit
  simp only [List.map_append, InlineStyle.declarations_eq h, hsemantic.attributes]

theorem UtilityClass.steady_profile : UtilityClass.profile.Steady := by
  intro type emit hemit m n h descriptor strategy
  rw [Profile.emitter_of_withEmitter hemit]
  exact UtilityClass.alike_styled h descriptor _

theorem ComponentCall.steady_profile : ComponentCall.profile.Steady := by
  intro type emit hemit m n h descriptor strategy
  rw [Profile.emitter_of_withEmitter hemit]
  cases strategy with
  | component name module? =>
      cases module? with
      | some module => exact ⟨rfl, ComponentCall.attributes_drop h, rfl⟩
      | none => exact UtilityClass.alike_styled h descriptor _
  | declarations list => exact ⟨rfl, rfl, rfl⟩
  | classes tokens => exact ⟨rfl, rfl, rfl⟩
  | semantic => exact ⟨rfl, rfl, rfl⟩

theorem Semantic.steady_profile : Semantic.profile.Steady := by
  intro type emit hemit m n h descriptor strategy
  rw [Profile.emitter_of_withEmitter hemit]
  exact h.semantic descriptor

theorem steady_of_standard {id : String} {p : Profile}
    (h : ProfileRegistry.standard.get id = .ok p) : p.Steady :=
  ProfileRegistry.standard_cases InlineStyle.steady_profile
    UtilityClass.steady_profile ComponentCall.steady_profile
    Semantic.steady_profile h

end MarkupForest
