import MarkupForest.Proofs.Openings
import MarkupForest.Proofs.ProperNames

/-!
# Distinct attributes

No element has two attributes of one written name, and no tag of a rendering has.
The lists that rules take attributes from name nothing twice, also in the dialect
that writes some names in another way.
-/

namespace MarkupForest

/-- The names of attributes as they are written. -/
def Dialect.writtenNames (dialect : Dialect) (attributes : List Attribute) :
    List String :=
  attributes.map fun a => dialect.attributeName a.name

/-- The attributes of a tag, where the tag may have any. -/
def Fragment.attributes : Fragment → List Attribute
  | openTag _ attributes => attributes
  | closeTag _ => []
  | voidTag _ attributes => attributes
  | text _ => []

/-- No tag of a line has two attributes of one written name. -/
def Line.NamesOnce (dialect : Dialect) (line : Line) : Prop :=
  forall f, f ∈ line.fragments → (dialect.writtenNames f.attributes).Nodup

/-!
# Elements
-/

theorem Element.nodup_nameLists (type : NodeType) :
    forall names, names ∈ nameLists type → forall dialect : Dialect,
      (names.map dialect.attributeName).Nodup := by
  intro names hnames dialect
  have hall : forall names, names ∈ nameLists type →
      (names.map dialect.attributeName).Nodup := by
    cases dialect <;> cases type <;> decide
  exact hall names hnames

theorem Element.NamedFor.nodup {type : NodeType} {element : Element}
    (h : element.NamedFor type) (dialect : Dialect) :
    (dialect.writtenNames element.attributes).Nodup := by
  rcases h with ⟨names, hnames, hsub⟩
  have hwritten : (dialect.writtenNames element.attributes).Sublist
      (names.map dialect.attributeName) := by
    have hmap := hsub.map dialect.attributeName
    rw [List.map_map] at hmap
    exact hmap
  exact hwritten.nodup (nodup_nameLists type names hnames dialect)

/-!
# Renderings
-/

namespace Render

theorem namesOnce_ofElement {element : Element} {dialect : Dialect}
    (h : (dialect.writtenNames element.attributes).Nodup) (shape : ContentShape)
    (isGeneric : Bool) (node : Node) (depth : Nat) :
    (forall line,
      line ∈ (Layout.ofElement element shape isGeneric node depth).opening →
        line.NamesOnce dialect) ∧
    forall line,
      (Layout.ofElement element shape isGeneric node depth).closing = some line →
        line.NamesOnce dialect := by
  have hbare : Fragment.HoldsBare (fun _ => True)
      (fun f => (dialect.writtenNames f.attributes).Nodup) :=
    ⟨fun _ => List.nodup_nil, fun _ _ => List.nodup_nil, fun _ _ => List.nodup_nil⟩
  exact forall_ofElement hbare (fun _ _ => trivial) (fun _ _ _ => trivial) trivial
    h h isGeneric node depth

theorem namesOnce_draft {id : String} {profile : Profile}
    (h : ProfileRegistry.standard.get id = .ok profile) (r : Renderer)
    (forest : Forest) (start : List NodeId) (dialect : Dialect) :
    forall line, line ∈ (r.draft profile forest start).lines →
      line.NamesOnce dialect := by
  apply forall_lines_of_walk
  · intro id node descriptor depth _ _
    exact namesOnce_ofElement
      ((Profile.namedFor_element h descriptor node).nodup dialect)
      descriptor.shape (profile.element descriptor node).2 node depth
  · intro line hmem
    rcases List.mem_map.mp hmem with ⟨id, _, heq⟩
    cases heq

end Render

namespace Renderer

open Render

/-- Every rule of a standard profile gives an element attributes with distinct
names, and so does the generic one: whatever the node, its properties, the
descriptor and the strategy are, no name is written twice.  So no tag of a
rendering has an attribute twice, whatever types are registered and whether all of
a forest is rendered or a part of it. -/
theorem attributes_distinct {id : String} {profile : Profile}
    (h : ProfileRegistry.standard.get id = .ok profile) :
    (forall type emit, profile.emitters type = some emit → forall subject,
      (profile.dialect.writtenNames (emit subject).attributes).Nodup) ∧
    (forall node descriptor,
      (profile.dialect.writtenNames
        (Element.generic node descriptor).attributes).Nodup) ∧
    forall (types : Registry) (forest : Forest),
      let r : Renderer := ⟨types, .standard⟩
      (forall text, (r.render forest id).answer = .ok text →
        let draft := r.draft profile forest forest.roots
        Assembled (profile.preamble (Imports.collect draft.imports))
          (String.intercalate "\n" (draft.lines.map (·.write profile.dialect)))
          text ∧
        forall line, line ∈ draft.lines → line.NamesOnce profile.dialect) ∧
      forall top text, (r.renderSubtree forest top id).answer = .ok text →
        let draft := r.draft profile forest [top]
        Assembled (profile.preamble (Imports.collect draft.imports))
          (String.intercalate "\n" (draft.lines.map (·.write profile.dialect)))
          text ∧
        forall line, line ∈ draft.lines → line.NamesOnce profile.dialect := by
  refine ⟨?_, ?_, ?_⟩
  · intro type emit hemit subject
    exact (Profile.namedFor_standard h type emit hemit subject).nodup _
  · intro node descriptor
    exact (Element.namedFor_generic node descriptor).nodup _
  · intro types forest r
    constructor
    · intro text hanswer
      simp only [render, r, h] at hanswer
      exact ⟨Draft.assembled_of_answer hanswer, namesOnce_draft h r forest _ _⟩
    · intro top text hanswer
      simp only [renderSubtree, r, h] at hanswer
      split at hanswer
      · exact ⟨Draft.assembled_of_answer hanswer, namesOnce_draft h r forest _ _⟩
      · cases hanswer

theorem attributes_distinct_of_radio :
    let node : Node :=
      { id := .generate .radio 1
        type := .radio
        properties := .ofList
          [("text", .text "Option"), ("class", .text "ignored"),
            ("checked", .flag true), ("disabled", .flag true),
            ("className", .text "wide")]
        parent := none
        children := [] }
    let subject : Subject :=
      { node
        descriptor := .basic .radio "input"
        strategy := .component "RadioGroupItem" (some "@/components/ui/radio-group")
        dialect := .jsx }
    let attributes := (ComponentCall.emit subject).attributes
    ProfileRegistry.standard.get ProfileId.componentCall =
        .ok ComponentCall.profile ∧
      Dialect.jsx.writtenNames attributes =
        ["value", "defaultChecked", "aria-label", "disabled", "className"] ∧
      (Dialect.jsx.writtenNames attributes).Nodup := by
  intro node subject attributes
  have h : ProfileRegistry.standard.get ProfileId.componentCall =
      .ok ComponentCall.profile := rfl
  refine ⟨h, by decide +kernel, ?_⟩
  exact (attributes_distinct h).left .radio ComponentCall.emit rfl subject

end Renderer

end MarkupForest
