import Mathlib.Data.List.Forall2
import MarkupForest.Profile.Standard

/-!
# Names of attributes

Every rule takes its attributes from a list of places, each with a name of its own,
and leaves out the places that have nothing.  So the names of the attributes of an
element are a part of a list that depends on nothing but the type of the node.
-/

namespace MarkupForest

/-!
# Places
-/

/-- The attribute in a place, if there is one, has the name of the place. -/
def Attribute.NamedAs (name : String) (place : Option Attribute) : Prop :=
  forall a, place = some a → a.name = name

open Attribute (NamedAs)

theorem Attribute.sublist_of_namedAs {names : List String}
    {places : List (Option Attribute)} (h : List.Forall₂ NamedAs names places) :
    ((places.filterMap id).map Attribute.name).Sublist names := by
  induction h with
  | nil => exact List.nil_sublist []
  | @cons name place names places hname hrest ih =>
      cases place with
      | none => exact ih.cons name
      | some a =>
          show (a.name :: (places.filterMap id).map Attribute.name).Sublist
            (name :: names)
          rw [hname a rfl]
          exact ih.cons_cons name

namespace Element

variable {node : Node} {a : Attribute}

/-- The name that a source gives to its attribute. -/
def AttributeSource.name : AttributeSource → String
  | property name => name
  | constant name _ => name
  | textAs name _ => name
  | caption => "aria-label"

/-- The names of the attributes that belong to the meaning of a type. -/
def semanticNames (type : NodeType) : List String :=
  (attributeSources type).map AttributeSource.name

theorem name_of_caption? (h : caption? node = some a) : a.name = "aria-label" := by
  unfold caption? at h
  split at h
  · split at h
    · cases h
    · cases h
      rfl
  · cases h

theorem name_of_read? {source : AttributeSource}
    (h : source.read? node = some a) : a.name = source.name := by
  cases source with
  | property name =>
      rcases Option.bind_eq_some_iff.mp h with ⟨value, _, hvalue⟩
      cases value with
      | text content => cases hvalue; rfl
      | number content => cases hvalue; rfl
      | flag content => cases hvalue; rfl
      | list items => cases hvalue
      | table content => cases hvalue
  | constant name content =>
      cases h
      rfl
  | textAs name key =>
      rcases Option.map_eq_some_iff.mp h with ⟨content, _, rfl⟩
      rfl
  | caption => exact name_of_caption? h

theorem names_semanticAttributes (node : Node) :
    ((semanticAttributes node).map Attribute.name).Sublist
      (semanticNames node.type) := by
  unfold semanticAttributes semanticNames
  generalize attributeSources node.type = sources
  have hplaces : List.Forall₂ NamedAs (sources.map AttributeSource.name)
      (sources.map (AttributeSource.read? node)) := by
    rw [List.forall₂_map_left_iff, List.forall₂_map_right_iff, List.forall₂_same]
    exact fun source _ a => name_of_read?
  have hnames := Attribute.sublist_of_namedAs hplaces
  rw [List.filterMap_map] at hnames
  exact hnames

end Element

namespace ComponentCall

/-- The names of the attributes that components have because of their types, by
group of types. -/
def typeNames : List (List String) :=
  [ ["variant", "size"], ["variant"], ["type", "placeholder"],
    ["placeholder", "rows"], ["defaultChecked", "aria-label"],
    ["value", "defaultChecked", "aria-label"], ["src", "alt"], ["value"], ["for"],
    ["open"], ["type", "collapsible"], [] ]

theorem namedAs_some (name : String) (value : AttributeValue) :
    NamedAs name (some ⟨name, value⟩) := by
  intro a ha
  cases ha
  rfl

theorem namedAs_text (node : Node) (name key : String) :
    NamedAs name (textAttribute? node name key) := by
  intro a ha
  rcases Option.map_eq_some_iff.mp ha with ⟨content, _, rfl⟩
  rfl

theorem namedAs_number (node : Node) (key : String) :
    NamedAs key (numberAttribute? node key) := by
  intro a ha
  rcases Option.map_eq_some_iff.mp ha with ⟨content, _, rfl⟩
  rfl

theorem namedAs_flag (node : Node) (name key : String) :
    NamedAs name (flagAttribute? node name key) := by
  intro a ha
  unfold flagAttribute? at ha
  split at ha
  · cases ha
    rfl
  · cases ha

theorem namedAs_typeAttributes (node : Node) :
    exists names, names ∈ typeNames ∧
      List.Forall₂ NamedAs names (typeAttributes node) := by
  have hsome := namedAs_some
  have htext := namedAs_text node
  have hnumber := namedAs_number node
  have hflag := namedAs_flag node
  unfold typeAttributes
  split
  · exact ⟨["variant", "size"], by decide,
      .cons (hsome _ _) (.cons (hsome _ _) .nil)⟩
  · exact ⟨["variant"], by decide, .cons (htext _ _) .nil⟩
  · exact ⟨["variant"], by decide, .cons (hsome _ _) .nil⟩
  · exact ⟨["type", "placeholder"], by decide,
      .cons (htext _ _) (.cons (htext _ _) .nil)⟩
  · exact ⟨["placeholder", "rows"], by decide,
      .cons (htext _ _) (.cons (hnumber _) .nil)⟩
  · exact ⟨["defaultChecked", "aria-label"], by decide,
      .cons (hflag _ _) (.cons (htext _ _) .nil)⟩
  · exact ⟨["defaultChecked", "aria-label"], by decide,
      .cons (hflag _ _) (.cons (htext _ _) .nil)⟩
  · exact ⟨["value", "defaultChecked", "aria-label"], by decide,
      .cons (htext _ _) (.cons (hflag _ _) (.cons (htext _ _) .nil))⟩
  · exact ⟨["src", "alt"], by decide,
      .cons (htext _ _) (.cons (htext _ _) .nil)⟩
  · exact ⟨["value"], by decide, .cons (hnumber _) .nil⟩
  · exact ⟨["for"], by decide, .cons (htext _ _) .nil⟩
  · exact ⟨["open"], by decide, .cons (hflag _ _) .nil⟩
  · exact ⟨["type", "collapsible"], by decide,
      .cons (hsome _ _) (.cons (hsome _ _) .nil)⟩
  · exact ⟨[], by decide, .nil⟩

theorem names_attributes (node : Node) :
    exists names, names ∈ typeNames ∧
      ((attributes node).map Attribute.name).Sublist
        (names ++ ["disabled", "class"]) := by
  rcases namedAs_typeAttributes node with ⟨names, hnames, htype⟩
  have hlast : List.Forall₂ NamedAs ["disabled", "class"]
      [flagAttribute? node "disabled" "disabled",
        textAttribute? node "class" "className"] :=
    .cons (namedAs_flag node _ _) (.cons (namedAs_text node _ _) .nil)
  exact ⟨names, hnames,
    Attribute.sublist_of_namedAs (List.rel_append htype hlast)⟩

end ComponentCall

/-- The lists of names that rules take the attributes of a type from: for generic
elements, for styles, for class tokens, and for components. -/
def Element.nameLists (type : NodeType) : List (List String) :=
  [ ["aria-label"], "style" :: semanticNames type, "class" :: semanticNames type ] ++
    ComponentCall.typeNames.map (· ++ ["disabled", "class"])

/-- The attributes of an element have names from one of the lists, in its order
and each at most once. -/
def Element.NamedFor (type : NodeType) (element : Element) : Prop :=
  exists names, names ∈ nameLists type ∧
    (element.attributes.map Attribute.name).Sublist names

/-!
# Elements
-/

namespace Element

theorem namedFor_semantic (node : Node) (d : Descriptor) :
    (semantic node d).NamedFor node.type :=
  ⟨"style" :: semanticNames node.type, List.mem_cons_of_mem _ List.mem_cons_self,
    (names_semanticAttributes node).cons "style"⟩

theorem namedFor_generic (node : Node) (d : Descriptor) :
    (generic node d).NamedFor node.type := by
  refine ⟨["aria-label"], List.mem_cons_self, ?_⟩
  unfold generic plain
  simp only
  split
  · cases hcaption : caption? node with
    | none => exact List.nil_sublist _
    | some a =>
        rw [Option.toList_some, List.map_singleton, name_of_caption? hcaption]
  · exact List.nil_sublist _

end Element

theorem UtilityClass.namedFor_styled (node : Node) (d : Descriptor)
    (base : String) : (UtilityClass.styled node d base).NamedFor node.type := by
  have hnames := Element.names_semanticAttributes node
  refine ⟨"class" :: Element.semanticNames node.type,
    List.mem_cons_of_mem _ (List.mem_cons_of_mem _ List.mem_cons_self), ?_⟩
  unfold UtilityClass.styled
  simp only
  split
  · exact hnames.cons "class"
  · exact hnames.cons_cons "class"

theorem InlineStyle.names_styleAttribute? (list : List Declaration) :
    ((InlineStyle.styleAttribute? list).toList.map Attribute.name).Sublist
      ["style"] := by
  unfold InlineStyle.styleAttribute?
  split
  · exact List.nil_sublist _
  · exact List.Sublist.refl _

theorem InlineStyle.namedFor_emit (subject : Subject) :
    (InlineStyle.emit subject).NamedFor subject.node.type := by
  refine ⟨"style" :: Element.semanticNames subject.node.type,
    List.mem_cons_of_mem _ List.mem_cons_self, ?_⟩
  unfold InlineStyle.emit
  simp only [List.map_append]
  exact (InlineStyle.names_styleAttribute? _).append
    (Element.names_semanticAttributes subject.node)

theorem ComponentCall.namedFor_emit (subject : Subject) :
    (ComponentCall.emit subject).NamedFor subject.node.type := by
  unfold ComponentCall.emit
  split
  · rcases names_attributes subject.node with ⟨names, hnames, hsub⟩
    exact ⟨names ++ ["disabled", "class"],
      List.mem_append_right _ (List.mem_map_of_mem hnames), hsub⟩
  · exact UtilityClass.namedFor_styled subject.node subject.descriptor _
  · exact ⟨["aria-label"], List.mem_cons_self, List.nil_sublist _⟩

/-!
# The standard profiles
-/

/-- All rules of the standard profiles take attributes from the lists. -/
theorem Profile.namedFor_standard {id : String} {p : Profile}
    (h : ProfileRegistry.standard.get id = .ok p) :
    forall type emit, p.emitters type = some emit →
      forall subject, (emit subject).NamedFor subject.node.type := by
  refine ProfileRegistry.standard_cases
    (motive := fun p => forall type emit, p.emitters type = some emit →
      forall subject, (emit subject).NamedFor subject.node.type) ?_ ?_ ?_ ?_ h
  all_goals
    intro type emit hemit subject
    rw [Profile.emitter_of_withEmitter hemit]
  · exact InlineStyle.namedFor_emit subject
  · exact UtilityClass.namedFor_styled subject.node subject.descriptor _
  · exact ComponentCall.namedFor_emit subject
  · exact Element.namedFor_semantic subject.node subject.descriptor

theorem Profile.namedFor_element {id : String} {p : Profile}
    (h : ProfileRegistry.standard.get id = .ok p) (descriptor : Descriptor)
    (node : Node) : (p.element descriptor node).1.NamedFor node.type := by
  unfold Profile.element
  split
  · rename_i emit strategy hemit _
    exact Profile.namedFor_standard h node.type emit hemit
      ⟨node, descriptor, strategy, p.dialect⟩
  · exact Element.namedFor_generic node descriptor

end MarkupForest
