import MarkupForest.Proofs.Blocks
import MarkupForest.Proofs.LeadingAttributes
import MarkupForest.Proofs.WellNested

/-!
# Styling

The two styled profiles write the semantic markup with one attribute more: a
style in front of the other attributes, or a class list.  So leaving out this
attribute gives the semantic rendering, as long as no node is shown that the
profile has no rule for.
-/

namespace MarkupForest

open Markup (IsName Led ReadsAs)

/-- The semantic element, with an attribute of this name in front or without. -/
structure Element.StyledBy (name : String) (styled plain : Element) : Prop where
  tag : styled.tag = plain.tag
  proper : IsName plain.tag
  attributes : Led name styled.attributes plain.attributes

/-- What the profile makes of a node is the semantic element with a style, and
not the generic one. -/
def Profile.Styles (p : Profile) (name : String) (node : Node) : Prop :=
  forall d, Registry.standard.find? node.type = some d →
    exists element, p.element d node = (element, false) ∧
      Semantic.profile.element d node = (Element.semantic node d, false) ∧
      element.StyledBy name (Element.semantic node d)

namespace Render

variable {name : String} {p : Profile} {depth : Nat}

/-!
# Lines of content
-/

theorem readsAs_line {text plain : String} (h : ReadsAs name text plain)
    (depth : Nat) :
    ReadsAs name (Pretty.line depth text) (Pretty.line depth plain) := by
  refine Markup.ReadsAs.append (Markup.readsAs_bracketless name ?_) h
  rw [← Line.indentation_eq]
  exact Markup.bracketless_indentation depth

theorem readsAs_text (name content : String) :
    ReadsAs name (Dialect.html.escapeText content)
      (Dialect.html.escapeText content) :=
  Markup.readsAs_bracketless name (Text.bracketless_escapeText .html content)

theorem readsAs_enclose (hname : IsName name) {tag markup : String}
    (htag : IsName tag) (h : ReadsAs name markup markup) :
    ReadsAs name (Pretty.enclose tag markup) (Pretty.enclose tag markup) := by
  have hparts := ((Markup.readsAs_opening hname htag).append h).append
    (Markup.readsAs_closing hname htag)
  simp only [← String.append_assoc] at hparts
  exact hparts

theorem readsAs_cells (hname : IsName name) {tag : String} (htag : IsName tag)
    (cells : List String) :
    ReadsAs name (Pretty.row .html tag cells) (Pretty.row .html tag cells) := by
  refine readsAs_enclose hname (by decide) ?_
  induction cells with
  | nil => exact fun rest => rfl
  | cons cell rest ih =>
      rw [List.map_cons, String.join_cons]
      exact (readsAs_enclose hname htag (readsAs_text name cell)).append ih

theorem readsAs_textLines (name : String) (depth : Nat) (text : String) :
    forall l, l ∈ Pretty.textLines .html depth text → ReadsAs name l l := by
  intro l hl
  unfold Pretty.textLines at hl
  split at hl
  · cases hl
  · rw [List.mem_singleton] at hl
    exact hl ▸ readsAs_line (readsAs_text name text) depth

theorem readsAs_itemLines (hname : IsName name) {tag : String} (htag : IsName tag)
    (depth : Nat) (items : List String) :
    forall l, l ∈ Pretty.itemLines .html depth tag items → ReadsAs name l l := by
  intro l hl
  rcases List.mem_map.mp hl with ⟨item, _, rfl⟩
  exact readsAs_line (readsAs_enclose hname htag (readsAs_text name item)) depth

theorem readsAs_headLines (hname : IsName name) (depth : Nat)
    (headers : List String) :
    forall l, l ∈ Pretty.headLines .html depth headers → ReadsAs name l l := by
  intro l hl
  cases headers with
  | nil => cases hl
  | cons header rest =>
      simp only [Pretty.headLines, List.mem_cons, List.not_mem_nil, or_false] at hl
      rcases hl with rfl | rfl | rfl
      · exact readsAs_line (Markup.readsAs_opening hname
          (by decide : IsName "thead")) depth
      · exact readsAs_line (readsAs_cells hname (by decide) _) (depth + 1)
      · exact readsAs_line (Markup.readsAs_closing hname
          (by decide : IsName "thead")) depth

theorem readsAs_bodyLines (hname : IsName name) (depth : Nat)
    (rows : List (List String)) :
    forall l, l ∈ Pretty.bodyLines .html depth rows → ReadsAs name l l := by
  intro l hl
  cases rows with
  | nil => cases hl
  | cons row rest =>
      simp only [Pretty.bodyLines, List.mem_cons, List.mem_append, List.mem_map,
        List.not_mem_nil, or_false] at hl
      rcases hl with rfl | ⟨cells, _, rfl⟩ | rfl
      · exact readsAs_line (Markup.readsAs_opening hname
          (by decide : IsName "tbody")) depth
      · exact readsAs_line (readsAs_cells hname (by decide) cells) (depth + 1)
      · exact readsAs_line (Markup.readsAs_closing hname
          (by decide : IsName "tbody")) depth

theorem readsAs_contentLines (hname : IsName name) {shape : ContentShape}
    (h : forall property tag, shape = .items property tag → IsName tag)
    (node : Node) (depth : Nat) :
    forall l, l ∈ Pretty.contentLines .html shape false node depth →
      ReadsAs name l l := by
  intro l hl
  cases shape with
  | wrapper => exact readsAs_textLines name depth _ l hl
  | items property tag =>
      rcases List.mem_append.mp hl with hl | hl
      · exact readsAs_textLines name depth _ l hl
      · exact readsAs_itemLines hname (h property tag rfl) depth _ l hl
  | table property =>
      rcases List.mem_append.mp hl with hl | hl
      · exact readsAs_textLines name depth _ l hl
      · rcases List.mem_append.mp hl with hl | hl
        · exact readsAs_headLines hname depth _ l hl
        · exact readsAs_bodyLines hname depth _ l hl
  | selfClosing => cases hl

theorem readsAs_collapsed (name : String) {shape : ContentShape} {node : Node}
    {content : List String} {markup : String}
    (h : Pretty.collapsed? .html shape node content = some markup) :
    ReadsAs name markup markup := by
  unfold Pretty.collapsed? at h
  split at h
  · cases h
    exact readsAs_text name _
  · cases h
    exact Markup.readsAs_bracketless name (by decide)
  · cases h

/-!
# Tags
-/

theorem readsAs_opening (hname : IsName name) {styled plain : Element}
    (h : styled.StyledBy name plain) :
    ReadsAs name (Pretty.opening .html styled) (Pretty.opening .html plain) := by
  unfold Pretty.opening
  rw [h.tag]
  exact Markup.readsAs_tag hname h.proper h.attributes (Or.inl rfl)

theorem readsAs_selfClosing (hname : IsName name) {styled plain : Element}
    (h : styled.StyledBy name plain) :
    ReadsAs name (Pretty.selfClosing .html styled)
      (Pretty.selfClosing .html plain) := by
  unfold Pretty.selfClosing
  rw [h.tag]
  exact Markup.readsAs_tag hname h.proper h.attributes (Or.inr rfl)

theorem readsAs_closing (hname : IsName name) {styled plain : Element}
    (h : styled.StyledBy name plain) :
    ReadsAs name (Pretty.closing styled) (Pretty.closing plain) := by
  unfold Pretty.closing
  rw [h.tag]
  exact Markup.readsAs_closing hname h.proper

/-!
# Whole nodes
-/

section

variable {types : Registry} {parent : Option NodeId} {id : NodeId}
  {type : NodeType} {properties : Properties} {below : List Snapshot}
  {descriptor : Descriptor} {element : Element} {isGeneric : Bool}

theorem print_of_selfClosing (htype : types.find? type = some descriptor)
    (hshape : descriptor.shape = .selfClosing)
    (helement : p.element descriptor
      ((Snapshot.node id type properties below).toNode parent) =
        (element, isGeneric)) :
    Pretty.print types p depth parent (.node id type properties below) =
      [Pretty.line depth (Pretty.selfClosing p.dialect element)] := by
  unfold Pretty.print
  simp only [htype, helement, hshape]

theorem print_of_ne (htype : types.find? type = some descriptor)
    (hshape : descriptor.shape ≠ .selfClosing)
    (helement : p.element descriptor
      ((Snapshot.node id type properties below).toNode parent) =
        (element, isGeneric)) :
    Pretty.print types p depth parent (.node id type properties below) =
      match Pretty.collapsed? p.dialect descriptor.shape
        ((Snapshot.node id type properties below).toNode parent)
        (Pretty.contentLines p.dialect descriptor.shape isGeneric
          ((Snapshot.node id type properties below).toNode parent) (depth + 1)) with
      | some markup =>
          [Pretty.line depth
            (Pretty.opening p.dialect element ++ markup ++ Pretty.closing element)]
      | none =>
          Pretty.line depth (Pretty.opening p.dialect element) ::
            (Pretty.contentLines p.dialect descriptor.shape isGeneric
                ((Snapshot.node id type properties below).toNode parent)
                (depth + 1) ++
              Pretty.printList types p (depth + 1) (some id) below ++
              [Pretty.line depth (Pretty.closing element)]) := by
  split
  · rename_i markup hcollapsed
    unfold Pretty.print
    simp only [htype, helement, hcollapsed]
  · rename_i hcollapsed
    unfold Pretty.print
    simp only [htype, helement, hcollapsed]

end

/-- The lines printed for nested nodes read as those of the semantic profile. -/
theorem readsAs_printList (hname : IsName name) (hdialect : p.dialect = .html)
    (ss : List Snapshot) :
    forall depth parent,
      (forall node, node ∈ exposedOfList .standard parent ss →
        p.Styles name node) →
      List.Forall₂ (ReadsAs name) (Pretty.printList .standard p depth parent ss)
        (Pretty.printList .standard Semantic.profile depth parent ss) := by
  induction ss using Snapshot.nested_induction with
  | nil => exact fun _ _ _ => List.Forall₂.nil
  | cons id type properties below rest ihbelow ihrest =>
      intro depth parent h
      rw [exposedOfList_node_cons] at h
      have hrest := ihrest depth parent fun node hnode => h node (by simp [hnode])
      rcases exists_standard type with ⟨descriptor, htype⟩
      rcases h _ List.mem_cons_self descriptor htype with
        ⟨element, helement, hplain, hstyled⟩
      rw [printList_cons, printList_cons]
      refine List.rel_append ?_ hrest
      by_cases hshape : descriptor.shape = .selfClosing
      · rw [print_of_selfClosing htype hshape helement,
          print_of_selfClosing htype hshape hplain, hdialect]
        exact .cons (readsAs_line (readsAs_selfClosing hname hstyled) depth) .nil
      · rw [isSelfClosing_of_ne htype hshape] at h
        have hbelow := ihbelow (depth + 1) (some id)
          fun node hnode => h node (by simp [hnode])
        have hsemantic : Semantic.profile.dialect = .html := rfl
        have hstart := readsAs_opening hname hstyled
        have hfinish := readsAs_closing hname hstyled
        rw [print_of_ne htype hshape helement,
          print_of_ne htype hshape hplain, hdialect, hsemantic]
        cases hmarkup : Pretty.collapsed? .html descriptor.shape
            ((Snapshot.node id type properties below).toNode parent)
            (Pretty.contentLines .html descriptor.shape false
              ((Snapshot.node id type properties below).toNode parent)
              (depth + 1)) with
        | some markup =>
            exact .cons (readsAs_line
              ((hstart.append (readsAs_collapsed name hmarkup)).append hfinish)
              depth) .nil
        | none =>
            refine .cons (readsAs_line hstart depth) ?_
            refine List.rel_append (List.rel_append ?_ hbelow)
              (.cons (readsAs_line hfinish depth) .nil)
            exact List.forall₂_same.mpr (readsAs_contentLines hname
              (proper_standard htype).itemTag _ (depth + 1))

theorem readsAs_intercalate {lines others : List String}
    (h : List.Forall₂ (ReadsAs name) lines others) :
    ReadsAs name (String.intercalate "\n" lines)
      (String.intercalate "\n" others) := by
  induction h with
  | nil => exact fun rest => rfl
  | @cons line other lines others hline hlines ih =>
      cases hlines with
      | nil => simpa using hline
      | cons hnext hmore =>
          have hbreak : ReadsAs name "\n" "\n" :=
            Markup.readsAs_bracketless name (by decide)
          rw [String.intercalate_cons_of_ne_nil (List.cons_ne_nil _ _),
            String.intercalate_cons_of_ne_nil (List.cons_ne_nil _ _)]
          exact (hline.append hbreak).append ih

end Render

/-!
# The rules of the profiles
-/

section

variable {p : Profile} {d : Descriptor} {node : Node} {name : String}

theorem Profile.element_of_emitter {emit : Emitter} {strategy : Strategy}
    (hemit : p.emitters node.type = some emit)
    (hstrategy : d.strategy? p.id = some strategy) :
    p.element d node = (emit ⟨node, d, strategy, p.dialect⟩, false) := by
  unfold Profile.element
  rw [hemit, hstrategy]

theorem strategies_standard :
    Registry.standard.descriptors.entries.all (fun entry =>
      (entry.2.strategy? ProfileId.semantic).isSome &&
        (entry.1 = .icon || (entry.2.strategy? ProfileId.inlineStyle).isSome) &&
        (entry.1 = .video || (entry.2.strategy? ProfileId.utilityClass).isSome)) =
      true := by
  decide +kernel

/-- The standard descriptors have data for all three profiles, but none for the
style of an icon and none for the classes of a video. -/
theorem exists_strategies {type : NodeType}
    (h : Registry.standard.find? type = some d) :
    (exists strategy, d.strategy? ProfileId.semantic = some strategy) ∧
      (type ≠ .icon →
        exists strategy, d.strategy? ProfileId.inlineStyle = some strategy) ∧
      (type ≠ .video →
        exists strategy, d.strategy? ProfileId.utilityClass = some strategy) := by
  have hall := List.all_eq_true.mp strategies_standard (type, d)
    (OrderedMap.mem_of_find? h)
  simp only [Bool.and_eq_true, Bool.or_eq_true, decide_eq_true_eq,
    Option.isSome_iff_exists] at hall
  rcases hall with ⟨⟨hsemantic, hinline⟩, hutility⟩
  exact ⟨hsemantic, hinline.resolve_left, hutility.resolve_left⟩

theorem name_of_source (type : NodeType) :
    forall source, source ∈ Element.attributeSources type →
      source.name ≠ "style" ∧ source.name ≠ "class" := by
  cases type <;> decide

theorem led_semanticAttributes (hname : name = "style" ∨ name = "class")
    (node : Node) {attributes : List Attribute}
    (hfront : attributes = Element.semanticAttributes node ∨
      exists content, attributes =
        Attribute.text name content :: Element.semanticAttributes node) :
    Led name attributes (Element.semanticAttributes node) := by
  refine ⟨?_, hfront⟩
  intro a ha
  refine ⟨(Element.isPlainName_semanticAttributes node a ha).isName, ?_⟩
  rcases List.mem_filterMap.mp ha with ⟨source, hsource, hread⟩
  rw [Element.name_of_read? hread]
  rcases name_of_source node.type source hsource with ⟨hstyle, hclass⟩
  rcases hname with rfl | rfl
  · exact hstyle
  · exact hclass

theorem element_semantic (h : Registry.standard.find? node.type = some d) :
    Semantic.profile.element d node = (Element.semantic node d, false) := by
  rcases (exists_strategies h).left with ⟨strategy, hstrategy⟩
  have hemit : Semantic.profile.emitters node.type = some Semantic.emit :=
    if_pos (NodeType.mem_all node.type)
  exact Profile.element_of_emitter hemit hstrategy

theorem InlineStyle.styles (h : node.type ≠ .icon) :
    InlineStyle.profile.Styles "style" node := by
  intro d hd
  rcases (exists_strategies hd).right.left h with ⟨strategy, hstrategy⟩
  have hemit : InlineStyle.profile.emitters node.type = some InlineStyle.emit :=
    if_pos (List.mem_filter.mpr ⟨NodeType.mem_all node.type, by simpa using h⟩)
  refine ⟨_, Profile.element_of_emitter hemit hstrategy, element_semantic hd,
    rfl, Element.isName_tagOf (proper_standard hd) node, ?_⟩
  refine led_semanticAttributes (Or.inl rfl) node ?_
  unfold InlineStyle.emit
  simp only
  generalize InlineStyle.declarations node _ = list
  unfold InlineStyle.styleAttribute?
  split
  · exact Or.inl rfl
  · exact Or.inr ⟨_, rfl⟩

theorem UtilityClass.styles (h : node.type ≠ .video) :
    UtilityClass.profile.Styles "class" node := by
  intro d hd
  rcases (exists_strategies hd).right.right h with ⟨strategy, hstrategy⟩
  have hemit : UtilityClass.profile.emitters node.type =
      some UtilityClass.emit :=
    if_pos (List.mem_filter.mpr ⟨NodeType.mem_all node.type, by simpa using h⟩)
  refine ⟨_, Profile.element_of_emitter hemit hstrategy, element_semantic hd,
    ?_, Element.isName_tagOf (proper_standard hd) node, ?_⟩
  · unfold UtilityClass.emit UtilityClass.styled
    simp only
    split <;> rfl
  · refine led_semanticAttributes (Or.inr rfl) node ?_
    unfold UtilityClass.emit UtilityClass.styled
    simp only
    split
    · exact Or.inl rfl
    · exact Or.inr ⟨_, rfl⟩

end

namespace Forest

open Render

variable {forest : Forest} {ss : List Snapshot} {profileId : String}
  {profile : Profile}

/-!
# Renderings
-/

theorem Shows.answer_standard (h : Shows forest ss)
    (hregistry : forest.registry = .standard)
    (hprofile : ProfileRegistry.standard.get profileId = .ok profile) :
    exists text, (forest.render profileId).answer = .ok text ∧
      Assembled
        (profile.preamble
          (Imports.collect (draftOfList .standard profile 0 none ss).imports))
        (String.intercalate "\n" (Pretty.printList .standard profile 0 none ss))
        text := by
  have hok := draftOfList_standard_ok profile ss 0 none
  unfold Forest.render Renderer.render
  simp only [hprofile]
  rw [hregistry, draft_of_roots h,
    ← (drafted_draftOfList ss 0 none hok).printed.left]
  exact Draft.exists_answer profile hok

/-- The three profiles that write plain markup differ in styling only.  Over the
standard types, a rendering with inline styles, where no icon is shown, is the
semantic rendering once the style in front of the attributes of each tag is left
out.  So is a rendering with utility classes, behind the line that loads the script
and a blank line, where no video is shown and the class list is left out. -/
theorem ofEdits_renderings_styled (options : Options) (requests : List Edit) :
    let forest := ofEdits .standard options requests
    ((forall node, node ∈ shown .standard forest → node.type ≠ .icon) →
      exists styled plain,
        (forest.render ProfileId.inlineStyle).answer = .ok styled ∧
        (forest.render ProfileId.semantic).answer = .ok plain ∧
        Markup.withoutAttribute "style" styled = plain) ∧
    ((forall node, node ∈ shown .standard forest → node.type ≠ .video) →
      exists text body plain,
        (forest.render ProfileId.utilityClass).answer = .ok text ∧
        text = "<script src=\"https://cdn.tailwindcss.com\"></script>" ++
          (if body = "" then "" else "\n\n" ++ body) ∧
        (forest.render ProfileId.semantic).answer = .ok plain ∧
        Markup.withoutAttribute "class" body = plain) := by
  intro forest
  rcases exists_shows_ofEdits .standard options requests with ⟨ss, h⟩
  have hregistry : forest.registry = .standard :=
    ofEdits_registry .standard options requests
  rcases h.answer_standard hregistry
    (rfl : ProfileRegistry.standard.get ProfileId.semantic = .ok Semantic.profile)
    with ⟨plain, hplain, hassembled⟩
  cases hassembled.bare rfl
  constructor
  · intro hicon
    rcases h.answer_standard hregistry
      (rfl : ProfileRegistry.standard.get ProfileId.inlineStyle =
        .ok InlineStyle.profile) with ⟨styled, hstyled, hassembled⟩
    cases hassembled.bare rfl
    have hlines := readsAs_printList (by decide : IsName "style")
      (rfl : InlineStyle.profile.dialect = .html) ss 0 none fun node hnode =>
        InlineStyle.styles (hicon node (h.exposed_eq ▸ hnode))
    exact ⟨_, _, hstyled, hplain, (readsAs_intercalate hlines).withoutAttribute⟩
  · intro hvideo
    rcases h.answer_standard hregistry
      (rfl : ProfileRegistry.standard.get ProfileId.utilityClass =
        .ok UtilityClass.profile) with ⟨text, htext, hassembled⟩
    have hlines := readsAs_printList (by decide : IsName "class")
      (rfl : UtilityClass.profile.dialect = .html) ss 0 none fun node hnode =>
        UtilityClass.styles (hvideo node (h.exposed_eq ▸ hnode))
    exact ⟨text, _, _, htext, hassembled.eq_behind_line, hplain,
      (readsAs_intercalate hlines).withoutAttribute⟩

theorem renderings_styled_of_board :
    let forest := ofEdits .standard ⟨false⟩ board
    let plain := String.intercalate "\n"
      [ "<div>",
        "  <p>&lt;/div&gt; &amp; &lt;p&gt;</p>",
        "  <ul>",
        "    <li>&lt;/ul&gt;</li>",
        "    <li>a\n\x7bb\x7d</li>",
        "  </ul>",
        "  <table>",
        "    <thead>",
        "      <tr><th>&lt;th&gt;</th></tr>",
        "    </thead>",
        "    <tbody>",
        "      <tr><td>1 &lt; 2</td><td>\"&gt;&lt;/td&gt;</td></tr>",
        "    </tbody>",
        "  </table>",
        "</div>" ]
    (forall node, node ∈ shown .standard forest → node.type ≠ .icon) ∧
    (forall node, node ∈ shown .standard forest → node.type ≠ .video) ∧
    (forest.render ProfileId.semantic).answer = .ok plain ∧
    exists styled body,
      (forest.render ProfileId.inlineStyle).answer = .ok styled ∧
      (forest.render ProfileId.utilityClass).answer =
        .ok ("<script src=\"https://cdn.tailwindcss.com\"></script>\n\n" ++ body) ∧
      Markup.withoutAttribute "style" styled = plain ∧
      Markup.withoutAttribute "class" body = plain := by
  intro forest plain
  have hicon : forall node, node ∈ shown .standard forest → node.type ≠ .icon := by
    rw [← shows_board.exposed_eq]
    decide +kernel
  have hvideo : forall node, node ∈ shown .standard forest → node.type ≠ .video := by
    rw [← shows_board.exposed_eq]
    decide +kernel
  rcases shows_board.answer_standard (ofEdits_registry _ _ _)
    (rfl : ProfileRegistry.standard.get ProfileId.semantic = .ok Semantic.profile)
    with ⟨text, hplain, hassembled⟩
  have htext : text = plain := (hassembled.bare rfl).trans (by decide +kernel)
  rw [htext] at hplain
  rcases ofEdits_renderings_styled ⟨false⟩ board with ⟨hinline, hutility⟩
  rcases hinline hicon with ⟨styled, again, hstyled, hagain, hsame⟩
  cases Except.ok.inj (hagain.symm.trans hplain)
  rcases hutility hvideo with ⟨text, body, again, htext, rfl, hagain, hsame'⟩
  cases Except.ok.inj (hagain.symm.trans hplain)
  have hne : body ≠ "" := by
    rintro rfl
    exact absurd hsame' (by decide +kernel)
  rw [if_neg hne, ← String.append_assoc] at htext
  exact ⟨hicon, hvideo, hplain, styled, body, hstyled, htext, hsame, hsame'⟩

end Forest

end MarkupForest
