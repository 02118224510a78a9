import MarkupForest.Proofs.AttributeNames
import MarkupForest.Proofs.Numbering
import MarkupForest.Proofs.TagNesting
import MarkupForest.Registry.Standard

/-!
# Proper names in the standard profiles

Tags and attribute names are written as they are, so markup is only as sound as
these names.  In the standard profiles they never come from a user: each is the
name of a descriptor, of a component, or a constant of a rule.
-/

namespace MarkupForest

open Markup (IsName IsPlainName NameChars)

/-- All attributes of an element have names of letters and hyphens. -/
def Element.PlainlyNamed (element : Element) : Prop :=
  forall a, a ∈ element.attributes → IsPlainName a.name

/-- The tag and the attributes of an element have proper names. -/
structure Element.Proper (element : Element) : Prop where
  tag : IsName element.tag
  attributes : forall a, a ∈ element.attributes → IsName a.name

/-- All elements that a profile makes of known types have proper names, and so
have the elements of items. -/
structure Profile.Proper (types : Registry) (profile : Profile) : Prop where
  element : forall descriptor node, types.find? node.type = some descriptor →
    (profile.element descriptor node).1.Proper
  itemTag : forall type descriptor property tag,
    types.find? type = some descriptor →
      descriptor.shape = .items property tag → IsName tag

/-!
# Lines
-/

/-- What all texts have, and all tags without attributes that have one of the
names `IsTag`. -/
structure Fragment.HoldsBare (IsTag : String → Prop) (P : Fragment → Prop) :
    Prop where
  text : forall content, P (.text content)
  openTag : forall tag, IsTag tag → P (.openTag tag [])
  closeTag : forall tag, IsTag tag → P (.closeTag tag)

section

variable {IsTag : String → Prop} {P : Fragment → Prop}
  (hbare : Fragment.HoldsBare IsTag P) {depth : Nat}

include hbare

namespace Line

theorem forall_ofText (content : String) :
    forall line, line ∈ ofText depth content → forall f, f ∈ line.fragments → P f := by
  intro line hline
  unfold ofText at hline
  split at hline
  · cases hline
  · rw [List.mem_singleton] at hline
    subst hline
    intro f hf
    rw [List.mem_singleton] at hf
    exact hf ▸ hbare.text content

theorem forall_wrapped {tag : String} (h : IsTag tag) (content : String) :
    forall f, f ∈ Fragment.wrapped tag content → P f := by
  intro f hf
  unfold Fragment.wrapped at hf
  simp only [List.mem_cons, List.not_mem_nil, or_false] at hf
  rcases hf with rfl | rfl | rfl
  · exact hbare.openTag tag h
  · exact hbare.text content
  · exact hbare.closeTag tag h

theorem forall_ofItems {tag : String} (h : IsTag tag) (items : List String) :
    forall line, line ∈ ofItems depth tag items →
      forall f, f ∈ line.fragments → P f := by
  intro line hline
  rcases List.mem_map.mp hline with ⟨item, _, rfl⟩
  exact forall_wrapped hbare h item

theorem forall_ofCells {tag : String} (hrow : IsTag "tr") (h : IsTag tag)
    (cells : List String) :
    forall f, f ∈ (ofCells depth tag cells).fragments → P f := by
  intro f hf
  unfold ofCells at hf
  rw [List.mem_cons, List.mem_append, List.mem_singleton] at hf
  rcases hf with rfl | hf | rfl
  · exact hbare.openTag "tr" hrow
  · rcases List.mem_flatMap.mp hf with ⟨cell, _, hcell⟩
    exact forall_wrapped hbare h cell f hcell
  · exact hbare.closeTag "tr" hrow

theorem forall_enclosed {tag : String} (htag : IsTag tag) {lines : List Line}
    (h : forall line, line ∈ lines → forall f, f ∈ line.fragments → P f) :
    forall line, line ∈ enclosed depth tag lines →
      forall f, f ∈ line.fragments → P f := by
  intro line hline
  unfold enclosed at hline
  rw [List.mem_cons, List.mem_append, List.mem_singleton] at hline
  rcases hline with rfl | hline | rfl
  · intro f hf
    rw [List.mem_singleton] at hf
    exact hf ▸ hbare.openTag tag htag
  · exact h line hline
  · intro f hf
    rw [List.mem_singleton] at hf
    exact hf ▸ hbare.closeTag tag htag

theorem forall_ofTable
    (htags : forall tag, tag ∈ ["thead", "tbody", "tr", "th", "td"] → IsTag tag)
    (data : TableData) :
    forall line, line ∈ ofTable depth data →
      forall f, f ∈ line.fragments → P f := by
  have hrow : IsTag "tr" := htags "tr" (by decide)
  intro line hline
  unfold ofTable at hline
  rcases List.mem_append.mp hline with hline | hline
  · split at hline
    · cases hline
    · refine forall_enclosed hbare (htags "thead" (by decide)) ?_ line hline
      intro row hmem
      rw [List.mem_singleton] at hmem
      exact hmem ▸ forall_ofCells hbare hrow (htags "th" (by decide)) _
  · split at hline
    · cases hline
    · refine forall_enclosed hbare (htags "tbody" (by decide)) ?_ line hline
      intro row hmem
      rcases List.mem_map.mp hmem with ⟨cells, _, rfl⟩
      exact forall_ofCells hbare hrow (htags "td" (by decide)) cells

end Line

namespace Render

theorem forall_content
    (htags : forall tag, tag ∈ ["thead", "tbody", "tr", "th", "td"] → IsTag tag)
    {shape : ContentShape}
    (hitems : forall property tag, shape = .items property tag → IsTag tag)
    (isGeneric : Bool) (node : Node) :
    forall line, line ∈ Layout.content shape isGeneric node depth →
      forall f, f ∈ line.fragments → P f := by
  intro line hline
  cases shape with
  | wrapper => exact Line.forall_ofText hbare _ line hline
  | items property tag =>
      rcases List.mem_append.mp hline with hline | hline
      · exact Line.forall_ofText hbare _ line hline
      · exact Line.forall_ofItems hbare (hitems property tag rfl) _ line hline
  | table property =>
      rcases List.mem_append.mp hline with hline | hline
      · exact Line.forall_ofText hbare _ line hline
      · exact Line.forall_ofTable hbare htags _ line hline
  | selfClosing => cases hline

theorem forall_collapsed {shape : ContentShape} {node : Node}
    {inner : List Line} {fragments : List Fragment}
    (h : Layout.collapsed? shape node inner = some fragments) :
    forall f, f ∈ fragments → P f := by
  unfold Layout.collapsed? at h
  split at h
  · cases h
  · split at h
    · cases h
      intro f hf
      rw [List.mem_singleton] at hf
      exact hf ▸ hbare.text _
    · split at h
      · cases h
        intro f hf
        cases hf
      · cases h

theorem forall_ofElement
    (htags : forall tag, tag ∈ ["thead", "tbody", "tr", "th", "td"] → IsTag tag)
    {shape : ContentShape}
    (hitems : forall property tag, shape = .items property tag → IsTag tag)
    {element : Element} (htag : IsTag element.tag)
    (hopen : P (.openTag element.tag element.attributes))
    (hvoid : P (.voidTag element.tag element.attributes))
    (isGeneric : Bool) (node : Node) (depth : Nat) :
    (forall line,
      line ∈ (Layout.ofElement element shape isGeneric node depth).opening →
        forall f, f ∈ line.fragments → P f) ∧
    forall line,
      (Layout.ofElement element shape isGeneric node depth).closing = some line →
        forall f, f ∈ line.fragments → P f := by
  by_cases hshape : shape = .selfClosing
  · subst hshape
    constructor
    · intro line hline f hf
      simp only [Layout.ofElement, List.mem_singleton] at hline
      subst hline
      rw [List.mem_singleton] at hf
      exact hf ▸ hvoid
    · intro line hline
      cases hline
  · rw [ofElement_of_ne element hshape]
    cases hinner : Layout.collapsed? shape node
        (Layout.content shape isGeneric node (depth + 1)) with
    | some fragments =>
        constructor
        · intro line hline f hf
          rw [List.mem_singleton] at hline
          subst hline
          rw [List.mem_cons, List.mem_append, List.mem_singleton] at hf
          rcases hf with rfl | hf | rfl
          · exact hopen
          · exact forall_collapsed hbare hinner f hf
          · exact hbare.closeTag element.tag htag
        · intro line hline
          cases hline
    | none =>
        constructor
        · intro line hline
          rcases List.mem_cons.mp hline with rfl | hline
          · intro f hf
            rw [List.mem_singleton] at hf
            exact hf ▸ hopen
          · exact forall_content hbare htags hitems isGeneric node line hline
        · intro line hline f hf
          cases hline
          rw [List.mem_singleton] at hf
          exact hf ▸ hbare.closeTag element.tag htag

end Render

end

theorem Fragment.holdsBare_proper : HoldsBare IsName Proper where
  text := fun _ => trivial
  openTag := fun _ h => ⟨h, fun _ ha => absurd ha List.not_mem_nil⟩
  closeTag := fun _ h => h

namespace Render

variable {types : Registry} {profile : Profile} {depth : Nat}

/-- The lines of a node of a known type, in front of its children and behind
them. -/
theorem proper_visitNode (hproper : profile.Proper types) (node : Node)
    {descriptor : Descriptor} (htype : types.find? node.type = some descriptor)
    (depth : Nat) :
    (forall line,
      line ∈ (visitNode profile descriptor node depth).layout.opening →
        line.Proper) ∧
    forall line,
      (visitNode profile descriptor node depth).layout.closing = some line →
        line.Proper := by
  have helement := hproper.element descriptor node htype
  exact forall_ofElement Fragment.holdsBare_proper (by decide)
    (fun property tag => hproper.itemTag node.type descriptor property tag htype)
    helement.tag ⟨helement.tag, helement.attributes⟩
    ⟨helement.tag, helement.attributes⟩ (profile.element descriptor node).2 node
    depth

theorem Drafted.proper (hproper : profile.Proper types)
    {parent : Option NodeId} {ss : List Snapshot} {lines : List Line}
    {imports : List Import}
    (h : Drafted types profile depth parent ss lines imports) :
    forall line, line ∈ lines → line.Proper := by
  induction h with
  | nil =>
      intro line hline
      cases hline
  | @closed depth parent id type properties below rest descriptor lines imports
      htype hclosing hrest ihrest =>
      have hlayout := proper_visitNode hproper
        ((Snapshot.node id type properties below).toNode parent) htype depth
      intro line hline
      rcases List.mem_append.mp hline with hline | hline
      · exact hlayout.left line hline
      · exact ihrest line hline
  | @opened depth parent id type properties below rest descriptor closing inner
      lines innerImports imports htype hclosing hbelow hrest ihbelow ihrest =>
      have hlayout := proper_visitNode hproper
        ((Snapshot.node id type properties below).toNode parent) htype depth
      intro line hline
      rw [List.mem_append, List.mem_append, List.mem_append,
        List.mem_singleton] at hline
      rcases hline with (hline | hline | rfl) | hline
      · exact hlayout.left line hline
      · exact ihbelow line hline
      · exact hlayout.right line hclosing
      · exact ihrest line hline

end Render

/-!
# Names of the standard registry
-/

/-- The names that a descriptor gives to elements. -/
def Descriptor.isProper (d : Descriptor) : Bool :=
  decide (IsName d.tag) &&
    (match d.shape with
      | .items _ tag => decide (IsName tag)
      | _ => true) &&
    (match d.strategy? ProfileId.componentCall with
      | some (.component name _) => decide (IsName name)
      | _ => true)

theorem isProper_standard (type : NodeType) :
    ((Registry.standard.find? type).all Descriptor.isProper) = true := by
  cases type <;> decide

structure Descriptor.Proper (d : Descriptor) : Prop where
  tag : IsName d.tag
  itemTag : forall property tag, d.shape = .items property tag → IsName tag
  component : forall name module?,
    d.strategy? ProfileId.componentCall = some (.component name module?) →
      IsName name

theorem proper_standard {type : NodeType} {d : Descriptor}
    (h : Registry.standard.find? type = some d) : d.Proper := by
  have hall := isProper_standard type
  rw [h] at hall
  simp only [Option.all_some, Descriptor.isProper, Bool.and_eq_true,
    decide_eq_true_eq] at hall
  rcases hall with ⟨⟨htag, hshape⟩, hstrategy⟩
  refine ⟨htag, ?_, ?_⟩
  · intro property tag heq
    rw [heq] at hshape
    exact of_decide_eq_true hshape
  · intro name module? heq
    rw [heq] at hstrategy
    exact of_decide_eq_true hstrategy

theorem exists_standard (type : NodeType) :
    exists d, Registry.standard.find? type = some d :=
  Option.isSome_iff_exists.mp (Registry.contains_standard type)

/-!
# Names of attributes
-/

theorem Element.isPlainName_nameLists (type : NodeType) :
    forall names, names ∈ nameLists type → forall name, name ∈ names →
      IsPlainName name := by
  cases type <;> decide

theorem Element.NamedFor.plainlyNamed {type : NodeType} {element : Element}
    (h : element.NamedFor type) : element.PlainlyNamed := by
  rcases h with ⟨names, hnames, hsub⟩
  intro a ha
  exact isPlainName_nameLists type names hnames a.name
    (hsub.subset (List.mem_map_of_mem ha))

/-!
# Names of elements
-/

namespace Element

variable {element : Element} {d : Descriptor}

theorem isName_headingTag (level : Nat) : IsName ("h" ++ toString level) := by
  have hdigits : forall c, c ∈ (toString level).toList → c.isDigit = true := by
    intro c hc
    exact Nat.isDigit_of_mem_toDigits (by decide) (by decide)
      (by simpa [toString] using hc : c ∈ Nat.toDigits 10 level)
  unfold IsName NameChars
  rw [String.toList_append]
  constructor
  · simp
  · intro c hc
    left
    rcases List.mem_append.mp hc with hc | hc
    · have heq : c = 'h' := by simpa using hc
      subst heq
      decide
    · unfold Char.isAlphanum
      rw [hdigits c hc, Bool.or_true]

theorem isName_tagOf (h : d.Proper) (node : Node) : IsName (tagOf node d) := by
  unfold tagOf
  split
  · split
    · exact isName_headingTag _
    · exact h.tag
  · split
    · decide
    · exact h.tag
  · exact h.tag

theorem PlainlyNamed.proper (h : element.PlainlyNamed) (htag : IsName element.tag) :
    element.Proper :=
  ⟨htag, fun a ha => (h a ha).isName⟩

theorem isPlainName_semanticAttributes (node : Node) :
    forall a, a ∈ semanticAttributes node → IsPlainName a.name :=
  (namedFor_semantic node default).plainlyNamed

theorem proper_semantic (h : d.Proper) (node : Node) :
    (semantic node d).Proper :=
  (namedFor_semantic node d).plainlyNamed.proper (isName_tagOf h node)

theorem proper_generic (h : d.Proper) (node : Node) :
    (generic node d).Proper :=
  (namedFor_generic node d).plainlyNamed.proper h.tag

end Element

theorem UtilityClass.tag_styled (node : Node) (d : Descriptor) (base : String) :
    (UtilityClass.styled node d base).tag = Element.tagOf node d := by
  unfold UtilityClass.styled
  simp only
  split
  · rfl
  · rfl

theorem UtilityClass.proper_styled {d : Descriptor} (h : d.Proper) (node : Node)
    (base : String) : (UtilityClass.styled node d base).Proper := by
  apply (UtilityClass.namedFor_styled node d base).plainlyNamed.proper
  rw [UtilityClass.tag_styled]
  exact Element.isName_tagOf h node

theorem InlineStyle.proper_emit {subject : Subject}
    (h : subject.descriptor.Proper) : (InlineStyle.emit subject).Proper :=
  (InlineStyle.namedFor_emit subject).plainlyNamed.proper
    (Element.isName_tagOf h subject.node)

theorem ComponentCall.proper_emit {subject : Subject}
    (h : subject.descriptor.Proper)
    (hstrategy : subject.descriptor.strategy? ProfileId.componentCall =
      some subject.strategy) : (ComponentCall.emit subject).Proper := by
  apply (ComponentCall.namedFor_emit subject).plainlyNamed.proper
  unfold ComponentCall.emit
  split
  · rename_i name module heq
    exact h.component name (some module) (heq ▸ hstrategy)
  · rw [UtilityClass.tag_styled]
    exact Element.isName_tagOf h subject.node
  · exact h.tag

/-- All elements that a profile makes have attributes named by letters and
hyphens. -/
def Profile.PlainlyNamed (p : Profile) : Prop :=
  forall descriptor node, (p.element descriptor node).1.PlainlyNamed

theorem Profile.plainlyNamed_standard {id : String} {p : Profile}
    (h : ProfileRegistry.standard.get id = .ok p) : p.PlainlyNamed :=
  fun descriptor node => (Profile.namedFor_element h descriptor node).plainlyNamed

end MarkupForest
