import MarkupForest.Proofs.Blocks

/-!
# Where texts stand

The text of a node is shown in one of three places: between the tags of an
element that fits on a line, on a line of its own behind the opening tag, or in
the label of a generic element that closes itself.  `Render.PlacesText` says which
of them it is, and what the lines of the node are then.  Where none of them is
meant for the node, the lines are laid out without regard to the text.
-/

namespace MarkupForest

/-- The node with another text. -/
def Node.withText (node : Node) (content : String) : Node :=
  { node with properties := node.properties.insert "text" (.text content) }

namespace Render

/-- An element that shows the text of its node between its tags: a wrapper, or a
generic element with items or a table. -/
def ShowsText (shape : ContentShape) (isGeneric : Bool) : Prop :=
  shape = .wrapper ∨ shape ≠ .selfClosing ∧ isGeneric = true

namespace Pretty

/-- The items or the table of a node. -/
def partLines (dialect : Dialect) (shape : ContentShape) (node : Node)
    (depth : Nat) : List String :=
  match shape with
  | .items property tag =>
      itemLines dialect depth tag (items node property)
  | .table property =>
      headLines dialect depth (table node property).headers ++
        bodyLines dialect depth (table node property).rows
  | _ => []

/-- Some markup between the tags of an element, all on one line. -/
def onOneLine (dialect : Dialect) (element : Element) (depth : Nat)
    (markup : String) : List String :=
  [line depth (opening dialect element ++ markup ++ closing element)]

/-- Lines between the tags of an element. -/
def between (dialect : Dialect) (element : Element) (depth : Nat)
    (inner : List String) : List String :=
  line depth (opening dialect element) ::
    (inner ++ [line depth (closing element)])

end Pretty

open Pretty (partLines onOneLine between)

/-- Where the text `t` of a node stands in the lines of the node, of which `below`
are those of its children. -/
structure PlacesText (dialect : Dialect) (element : Element)
    (descriptor : Descriptor) (isGeneric : Bool) (node : Node) (depth : Nat)
    (below lines : List String) (t : String) : Prop where
  /-- A wrapper without children fits on a line. -/
  inline : descriptor.shape = .wrapper → node.children = [] →
    lines = onOneLine dialect element depth (dialect.escapeText t)
  /-- Any other text that is shown has a line, one level further in and in front
  of everything else between the tags. -/
  ownLine : ShowsText descriptor.shape isGeneric → t ≠ "" →
    (descriptor.shape = .wrapper → node.children ≠ []) →
      lines = between dialect element depth
        (Pretty.line (depth + 1) (dialect.escapeText t) ::
          (partLines dialect descriptor.shape node (depth + 1) ++ below))
  /-- A generic element that closes itself has the text in its label. -/
  label : descriptor.shape = .selfClosing → isGeneric = true → t ≠ "" →
    lines = [Pretty.line depth ("<" ++ descriptor.tag ++ " aria-label=\"" ++
      Text.encodeQuoted t ++ "\" />")]
  /-- An element that closes itself is a single line. -/
  void : descriptor.shape = .selfClosing →
    lines = [Pretty.line depth (Pretty.selfClosing dialect element)]
  /-- Without a text to show there are the tags, the items or the table, and the
  children. -/
  bare : descriptor.shape ≠ .selfClosing →
    t = "" ∨ ¬ ShowsText descriptor.shape isGeneric →
      lines =
        if node.children = [] ∧
            partLines dialect descriptor.shape node (depth + 1) = [] then
          onOneLine dialect element depth ""
        else
          between dialect element depth
            (partLines dialect descriptor.shape node (depth + 1) ++ below)
  /-- A text that is not shown makes no difference to the layout. -/
  silent : ¬ ShowsText descriptor.shape isGeneric → forall content,
    Layout.ofElement element descriptor.shape isGeneric (node.withText content)
        depth =
      Layout.ofElement element descriptor.shape isGeneric node depth

end Render

namespace Renderer

open Render

/-- The renderings that succeed, of a whole forest or of one of its nodes. -/
inductive Renders (r : Renderer) (profileId : String) (forest : Forest) :
    List NodeId → String → Prop where
  | whole {text : String} :
      (r.render forest profileId).answer = .ok text →
      Renders r profileId forest forest.roots text
  | subtree {id : NodeId} {text : String} :
      (r.renderSubtree forest id profileId).answer = .ok text →
      Renders r profileId forest [id] text

/-- What becomes of the texts of all nodes that a rendering visits. -/
structure PlacesTexts (r : Renderer) (profile : Profile) (forest : Forest)
    (start : List NodeId) (text : String) : Prop where
  whole : r.Writes profile forest start text
  /-- The marks are on the nodes that the walk visits. -/
  visited : tracedWalk r.types profile forest.arena (2 * forest.size)
      (start.map (Pending.node · 0)) =
    (r.draft profile forest start,
      (r.marksFrom profile forest start).map Prod.fst)
  placed : forall id before, (id, before) ∈ r.marksFrom profile forest start →
    exists node descriptor depth lines after,
      forest.find? id = some node ∧
      r.types.find? node.type = some descriptor ∧
      r.entries profile forest start =
        before.map (·.write profile.dialect) ++ (lines ++ after) ∧
      forall t, node.text? = some t →
        PlacesText profile.dialect (profile.element descriptor node).1 descriptor
          (profile.element descriptor node).2 node depth
          (node.children.flatMap fun child =>
            (r.entries profile forest [child]).map
              (String.join (List.replicate (depth + 1) "  ") ++ ·))
          lines t

end Renderer

namespace Render

open Pretty (partLines onOneLine between)

variable {dialect : Dialect} {element : Element} {descriptor : Descriptor}
  {isGeneric : Bool} {node : Node} {depth : Nat} {below : List String}
  {t : String} {shape : ContentShape}

/-!
# Layouts without the text
-/

theorem property?_withText (htext : node.text? = some t) (content key : String) :
    (node.withText content).property? key = node.property? key ∨
      node.property? key = some (.text t) ∧
        (node.withText content).property? key = some (.text content) := by
  by_cases hkey : key = "text"
  · subst hkey
    right
    refine ⟨?_, OrderedMap.find?_insert_self _ _ _⟩
    unfold Node.text? Node.textProperty? at htext
    rcases Option.bind_eq_some_iff.mp htext with ⟨value, hvalue, hcontent⟩
    cases value with
    | text s =>
        cases hcontent
        exact hvalue
    | number x => cases hcontent
    | flag b => cases hcontent
    | list items => cases hcontent
    | table data => cases hcontent
  · exact Or.inl (OrderedMap.find?_insert_of_ne _ _ hkey)

theorem itemsOf_withText (htext : node.text? = some t)
    (content property : String) :
    Layout.itemsOf (node.withText content) property =
      Layout.itemsOf node property := by
  unfold Layout.itemsOf
  rcases property?_withText htext content property with heq | ⟨hold, hnew⟩
  · rw [heq]
  · rw [hold, hnew]
    rfl

theorem tableOf_withText (htext : node.text? = some t)
    (content property : String) :
    Layout.tableOf (node.withText content) property =
      Layout.tableOf node property := by
  unfold Layout.tableOf
  rcases property?_withText htext content property with heq | ⟨hold, hnew⟩
  · rw [heq]
  · rw [hold, hnew]
    rfl

theorem isGeneric_of_silent (hsilent : ¬ ShowsText shape isGeneric)
    (hshape : shape ≠ .selfClosing) : isGeneric = false := by
  rw [← Bool.not_eq_true]
  exact fun hgeneric => hsilent (Or.inr ⟨hshape, hgeneric⟩)

theorem content_withText (htext : node.text? = some t)
    (hsilent : ¬ ShowsText shape isGeneric) (content : String) (depth : Nat) :
    Layout.content shape isGeneric (node.withText content) depth =
      Layout.content shape isGeneric node depth := by
  cases shape with
  | wrapper => exact absurd (Or.inl rfl) hsilent
  | items property tag =>
      have hgeneric := isGeneric_of_silent hsilent (by simp)
      unfold Layout.content
      simp only [hgeneric, itemsOf_withText htext, Bool.false_eq_true, if_false]
  | table property =>
      have hgeneric := isGeneric_of_silent hsilent (by simp)
      unfold Layout.content
      simp only [hgeneric, tableOf_withText htext, Bool.false_eq_true, if_false]
  | selfClosing => rfl

theorem ofElement_withText (htext : node.text? = some t)
    (hsilent : ¬ ShowsText shape isGeneric) (content : String) :
    Layout.ofElement element shape isGeneric (node.withText content) depth =
      Layout.ofElement element shape isGeneric node depth := by
  have hinner := content_withText htext hsilent content
  cases shape with
  | wrapper => exact absurd (Or.inl rfl) hsilent
  | items property tag =>
      unfold Layout.ofElement
      simp only [hinner]
      rfl
  | table property =>
      unfold Layout.ofElement
      simp only [hinner]
      rfl
  | selfClosing => rfl

/-!
# The lines of a node
-/

/-- The lines of a layout, with those of the children in between. -/
def linesOf (dialect : Dialect) (layout : Layout) (below : List String) :
    List String :=
  layout.opening.map (·.write dialect) ++
    match layout.closing with
    | some finish => below ++ [finish.write dialect]
    | none => []

variable {layout : Layout} {content : List String} {markup : String}

theorem Written.linesOf_void
    (h : Written dialect element shape node content depth layout)
    (hshape : shape = .selfClosing) (below : List String) :
    linesOf dialect layout below =
      [Pretty.line depth (Pretty.selfClosing dialect element)] := by
  unfold linesOf
  cases h with
  | closed _ hclosing hopening => rw [hclosing, hopening, List.append_nil]
  | collapsed hne => exact absurd hshape hne
  | opened hne => exact absurd hshape hne

theorem Written.linesOf_collapsed
    (h : Written dialect element shape node content depth layout)
    (hshape : shape ≠ .selfClosing)
    (hmarkup : Pretty.collapsed? dialect shape node content = some markup)
    (below : List String) :
    linesOf dialect layout below = onOneLine dialect element depth markup := by
  unfold linesOf
  cases h with
  | closed hvoid => exact absurd hvoid hshape
  | collapsed _ hcollapsed hclosing hopening =>
      rw [hmarkup] at hcollapsed
      cases hcollapsed
      rw [hclosing, hopening, List.append_nil]
      rfl
  | opened _ hcollapsed =>
      rw [hmarkup] at hcollapsed
      cases hcollapsed

theorem Written.linesOf_opened
    (h : Written dialect element shape node content depth layout)
    (hshape : shape ≠ .selfClosing)
    (hopened : Pretty.collapsed? dialect shape node content = none)
    (below : List String) :
    linesOf dialect layout below =
      between dialect element depth (content ++ below) := by
  unfold linesOf between
  cases h with
  | closed hvoid => exact absurd hvoid hshape
  | collapsed _ hcollapsed =>
      rw [hopened] at hcollapsed
      cases hcollapsed
  | opened _ _ hclosing hfinish hopening =>
      rw [hclosing, hopening, List.append_assoc, List.cons_append, ← hfinish]

/-! ## What fits on a line -/

theorem collapsed_wrapper (htext : node.text? = some t)
    (hchildren : node.children = []) (content : List String) :
    Pretty.collapsed? dialect .wrapper node content =
      some (dialect.escapeText t) := by
  unfold Pretty.collapsed?
  rw [hchildren, htext]
  rfl

theorem collapsed_of_children (hchildren : node.children ≠ [])
    (shape : ContentShape) (content : List String) :
    Pretty.collapsed? dialect shape node content = none := by
  unfold Pretty.collapsed?
  cases hnode : node.children with
  | nil => exact absurd hnode hchildren
  | cons child others => rfl

theorem collapsed_of_content (hshape : shape ≠ .wrapper) (hcontent : content ≠ []) :
    Pretty.collapsed? dialect shape node content = none := by
  unfold Pretty.collapsed?
  cases node.children with
  | cons child others => rfl
  | nil =>
      cases content with
      | nil => exact absurd rfl hcontent
      | cons first rest =>
          cases shape with
          | wrapper => exact absurd rfl hshape
          | items property tag => rfl
          | table property => rfl
          | selfClosing => rfl

theorem collapsed_of_nil (hshape : shape ≠ .wrapper)
    (hchildren : node.children = []) :
    Pretty.collapsed? dialect shape node [] = some "" := by
  unfold Pretty.collapsed?
  rw [hchildren]
  cases shape with
  | wrapper => exact absurd rfl hshape
  | items property tag => rfl
  | table property => rfl
  | selfClosing => rfl

/-! ## The content -/

theorem content_of_shown (htext : node.text? = some t)
    (hshown : ShowsText shape isGeneric) :
    Pretty.contentLines dialect shape isGeneric node depth =
      Pretty.textLines dialect depth t ++ partLines dialect shape node depth := by
  rcases hshown with rfl | ⟨hshape, rfl⟩
  · unfold Pretty.contentLines
    rw [htext]
    exact (List.append_nil _).symm
  · unfold Pretty.contentLines
    rw [htext]
    cases shape with
    | wrapper => exact (List.append_nil _).symm
    | items property tag => rfl
    | table property => rfl
    | selfClosing => exact absurd rfl hshape

theorem content_of_silent (hsilent : ¬ ShowsText shape isGeneric) :
    Pretty.contentLines dialect shape isGeneric node depth =
      partLines dialect shape node depth := by
  cases shape with
  | wrapper => exact absurd (Or.inl rfl) hsilent
  | items property tag =>
      rw [isGeneric_of_silent hsilent (by simp)]
      rfl
  | table property =>
      rw [isGeneric_of_silent hsilent (by simp)]
      rfl
  | selfClosing => rfl

theorem escapeText_empty (dialect : Dialect) : dialect.escapeText "" = "" := by
  cases dialect <;> rfl

theorem textLines_of_ne (hne : t ≠ "") :
    Pretty.textLines dialect depth t =
      [Pretty.line depth (dialect.escapeText t)] := by
  unfold Pretty.textLines
  rw [if_neg (by simpa using hne)]

theorem content_of_bare (htext : node.text? = some t)
    (hbare : t = "" ∨ ¬ ShowsText shape isGeneric) :
    Pretty.contentLines dialect shape isGeneric node depth =
      partLines dialect shape node depth := by
  rcases Classical.em (ShowsText shape isGeneric) with hshown | hsilent
  · have hempty : t = "" := hbare.resolve_right fun h => h hshown
    rw [content_of_shown htext hshown, hempty]
    rfl
  · exact content_of_silent hsilent

theorem selfClosing_of_generic (htext : node.text? = some t) (hne : t ≠ "")
    (hshape : descriptor.shape = .selfClosing) :
    Pretty.selfClosing dialect (Element.generic node descriptor) =
      "<" ++ descriptor.tag ++ " aria-label=\"" ++ Text.encodeQuoted t ++
        "\" />" := by
  have hcaption : Element.caption? node =
      some (Attribute.text "aria-label" t) := by
    unfold Element.caption?
    rw [htext]
    exact if_neg (by simpa using hne)
  have hname : dialect.attributeName "aria-label" = "aria-label" := by
    cases dialect <;> rfl
  unfold Element.generic Pretty.selfClosing
  rw [hshape, hcaption]
  have hvalue : Attribute.valueText? dialect (.text t) =
      some ("=\"" ++ Text.encodeQuoted t ++ "\"") := by
    cases dialect <;> rfl
  apply String.toList_injective
  simp [Element.plain, Attribute.writeAll, Attribute.write?, Attribute.text,
    hvalue, hname]

theorem Written.linesOf_bare
    (h : Written dialect element shape node
      (Pretty.contentLines dialect shape isGeneric node (depth + 1)) depth layout)
    (htext : node.text? = some t) (hshape : shape ≠ .selfClosing)
    (hbare : t = "" ∨ ¬ ShowsText shape isGeneric) (below : List String) :
    linesOf dialect layout below =
      if node.children = [] ∧
          partLines dialect shape node (depth + 1) = [] then
        onOneLine dialect element depth ""
      else
        between dialect element depth
          (partLines dialect shape node (depth + 1) ++ below) := by
  rw [content_of_bare htext hbare] at h
  by_cases hchildren : node.children = []
  · by_cases hwrapper : shape = .wrapper
    · subst hwrapper
      have hempty : t = "" := hbare.resolve_right fun hsilent => hsilent (Or.inl rfl)
      rw [if_pos ⟨hchildren, rfl⟩, h.linesOf_collapsed hshape
        (collapsed_wrapper htext hchildren _), hempty, escapeText_empty]
    · split
      · rename_i hnothing
        rw [hnothing.right] at h
        exact h.linesOf_collapsed hshape (collapsed_of_nil hwrapper hchildren) below
      · rename_i hparts
        have hne : partLines dialect shape node (depth + 1) ≠ [] :=
          fun hnil => hparts ⟨hchildren, hnil⟩
        exact h.linesOf_opened hshape (collapsed_of_content hwrapper hne) below
  · rw [if_neg (fun hnothing => hchildren hnothing.left)]
    exact h.linesOf_opened hshape (collapsed_of_children hchildren _ _) below

/-- The text of a node stands in its lines where it is meant to. -/
theorem Written.placesText
    (h : Written dialect element descriptor.shape node
      (Pretty.contentLines dialect descriptor.shape isGeneric node (depth + 1))
      depth layout)
    (htext : node.text? = some t)
    (hgeneric : isGeneric = true → element = Element.generic node descriptor)
    (below : List String) :
    PlacesText dialect element descriptor isGeneric node depth below
      (linesOf dialect layout below) t where
  inline := by
    intro hshape hchildren
    refine h.linesOf_collapsed (by simp [hshape]) ?_ below
    rw [hshape]
    exact collapsed_wrapper htext hchildren _
  ownLine := by
    intro hshown hne hopen
    have hvoid : descriptor.shape ≠ .selfClosing := by
      rcases hshown with hwrapper | ⟨hshape, _⟩
      · simp [hwrapper]
      · exact hshape
    rw [content_of_shown htext hshown, textLines_of_ne hne] at h
    refine h.linesOf_opened hvoid ?_ below
    by_cases hchildren : node.children = []
    · exact collapsed_of_content (fun hwrapper => hopen hwrapper hchildren)
        (List.cons_ne_nil _ _)
    · exact collapsed_of_children hchildren _ _
  label := by
    intro hshape hisGeneric hne
    rw [h.linesOf_void hshape, hgeneric hisGeneric,
      selfClosing_of_generic htext hne hshape]
  void := fun hshape => h.linesOf_void hshape below
  bare := by
    intro hshape hbare
    exact h.linesOf_bare htext hshape hbare below
  silent := fun hsilent => ofElement_withText htext hsilent

theorem element_of_generic {profile : Profile}
    (h : (profile.element descriptor node).2 = true) :
    (profile.element descriptor node).1 = Element.generic node descriptor := by
  unfold Profile.element at h ⊢
  split
  · rename_i emit strategy hemit hstrategy
    rw [hemit, hstrategy] at h
    cases h
  · rfl

end Render

namespace Forest

open Render

variable {forest : Forest} {ss tops : List Snapshot} {parent : Option NodeId}
  {r : Renderer} {profile : Profile} {profileId text : String}
  {start : List NodeId}

/-!
# Whole renderings
-/

theorem Subtree.child {slot : Option NodeId} {s t : Snapshot}
    (h : Subtree forest slot s) (ht : t ∈ s.children) :
    Subtree forest (some s.id) t := by
  have hinside : t.Inside [s] := .deeper List.mem_cons_self (.level ht)
  have hlen := hinside.ids_sublist.length_le
  rw [Snapshot.idsOfList_singleton] at hlen
  refine ⟨?_, Nat.le_trans hlen h.length_le⟩
  cases h.held with
  | cons _ hbelow _ => exact holds_iff_forall.mp hbelow t ht

section

variable {slot : Option NodeId} {id : NodeId} {type : NodeType}
  {properties : Properties} {below : List Snapshot} {descriptor : Descriptor}
  {depth : Nat}

theorem Subtree.below_entries
    (h : Subtree forest slot (.node id type properties below))
    (hok : (draftOfList r.types profile depth (some id) below).error? = none) :
    (draftOfList r.types profile depth (some id) below).lines.map
        (·.write profile.dialect) =
      (below.map Snapshot.id).flatMap fun child =>
        (r.entries profile forest [child]).map
          (String.join (List.replicate depth "  ") ++ ·) := by
  rw [(draftOfList_parts hok).right.left, List.map_flatMap, List.flatMap_map]
  apply List.flatMap_congr
  intro t ht
  exact (h.child ht).entries_at r profile depth

theorem Subtree.lines_eq
    (h : Subtree forest slot (.node id type properties below))
    (htype : r.types.find? type = some descriptor)
    (hok : (draftOf r.types profile depth slot
      (.node id type properties below)).error? = none) :
    (draftOf r.types profile depth slot
        (.node id type properties below)).lines.map (·.write profile.dialect) =
      linesOf profile.dialect
        (visitNode profile descriptor
          ((Snapshot.node id type properties below).toNode slot) depth).layout
        ((below.map Snapshot.id).flatMap fun child =>
          (r.entries profile forest [child]).map
            (String.join (List.replicate (depth + 1) "  ") ++ ·)) := by
  rw [draftOf_of_known htype] at hok ⊢
  unfold linesOf
  cases hclosing : (visitNode profile descriptor
      ((Snapshot.node id type properties below).toNode slot)
      depth).layout.closing with
  | none => rw [(Visit.draft_closed hclosing _).left, List.append_nil]
  | some closing =>
      rcases Visit.draft_open hclosing hok with ⟨hbelow, hlines, _⟩
      rw [hlines, List.map_append, List.map_append, h.below_entries hbelow]
      rfl

end

theorem placesTexts_of_held (h : Holds forest.arena parent tops)
    (hlen : (Snapshot.idsOfList tops).length ≤ forest.size)
    (hok : (draftOfList r.types profile 0 parent tops).error? = none)
    (htext : r.Writes profile forest (tops.map Snapshot.id) text) :
    r.PlacesTexts profile forest (tops.map Snapshot.id) text where
  whole := htext
  visited := Prod.ext (tracedWalk_fst _ _) (map_fst_markWalk _ _ _).symm
  placed := by
    intro id before hmark
    rw [marks_of_held h hlen r profile (draftOfList_ok_iff.mp hok)] at hmark
    rcases exists_block_of_mark h hok hmark with
      ⟨slot, s, depth, after, rfl, hblock⟩
    have hsub : Subtree forest slot s :=
      ⟨hblock.held, Nat.le_trans hblock.inside.ids_sublist.length_le hlen⟩
    have hdraft := hblock.ok
    have hentries : r.entries profile forest (tops.map Snapshot.id) =
        before.map (·.write profile.dialect) ++
          ((draftOf r.types profile depth slot s).lines.map
              (·.write profile.dialect) ++
            after.map (·.write profile.dialect)) := by
      unfold Renderer.entries
      rw [draft_of_held h hlen, ← List.map_append, ← List.map_append,
        ← hblock.lines, List.nil_append]
    cases s with
    | node id type properties below =>
        cases htype : r.types.find? type with
        | none =>
            rw [draftOf_of_unknown htype] at hdraft
            cases hdraft
        | some descriptor =>
            rw [hsub.lines_eq htype hdraft] at hentries
            refine ⟨_, descriptor, depth, _, _, hsub.find, htype, hentries, ?_⟩
            intro t htext
            exact (written_visitNode profile descriptor _ depth).placesText htext
              element_of_generic _

theorem exists_of_renderSubtree {id : NodeId}
    (hprofile : r.profiles.get profileId = .ok profile)
    (htext : (r.renderSubtree forest id profileId).answer = .ok text) :
    forest.contains id = true ∧ (r.draft profile forest [id]).error? = none ∧
      r.Writes profile forest [id] text := by
  unfold Renderer.renderSubtree at htext
  simp only [hprofile] at htext
  split at htext
  · rename_i hid
    exact ⟨hid, Draft.ok_of_answer htext, Draft.assembled_of_answer htext⟩
  · cases htext

/-- In every rendering of every forest that edits can make, of the whole forest or
of one of its nodes, the text of each node that is visited stands where its shape
and its element say, and nowhere else. -/
theorem ofEdits_texts_placed (registry : Registry) (options : Options)
    (requests : List Edit) (r : Renderer) (profileId : String)
    (start : List NodeId) (text : String)
    (h : r.Renders profileId (ofEdits registry options requests) start text) :
    exists profile, r.profiles.get profileId = .ok profile ∧
      r.PlacesTexts profile (ofEdits registry options requests) start text := by
  rcases exists_shows_ofEdits registry options requests with ⟨ss, hshows⟩
  cases hprofile : r.profiles.get profileId with
  | error e =>
      cases h with
      | whole htext =>
          unfold Renderer.render at htext
          rw [hprofile] at htext
          cases htext
      | subtree htext =>
          unfold Renderer.renderSubtree at htext
          rw [hprofile] at htext
          cases htext
  | ok profile =>
      refine ⟨profile, rfl, ?_⟩
      cases h with
      | whole htext =>
          rcases hshows.renderable_of_render hprofile htext with ⟨hok, hwrites⟩
          rw [hshows.roots] at hwrites ⊢
          exact placesTexts_of_held hshows.held hshows.length_le
            (draftOfList_ok_iff.mpr hok) hwrites
      | subtree htext =>
          rcases exists_of_renderSubtree hprofile htext with ⟨hid, hok, hwrites⟩
          rcases hshows.exists_subtree (contains_iff.mp hid) with
            ⟨slot, s, rfl, hsub⟩
          have hlen : (Snapshot.idsOfList [s]).length ≤ (ofEdits registry
              options requests).size := by
            rw [Snapshot.idsOfList_singleton]
            exact hsub.length_le
          rw [draft_of_subtree hsub, ← draftOfList_singleton] at hok
          exact placesTexts_of_held hsub.held hlen hok hwrites

theorem texts_placed_of_card :
    let forest := ofEdits .standard ⟨true⟩
      [.insert .card none, .insert .text (some (NodeId.generate .card 1))]
    exists text profile,
      Renderer.Renders ⟨.standard, .standard⟩ ProfileId.semantic forest forest.roots
        text ∧
      ProfileRegistry.standard.get ProfileId.semantic = .ok profile ∧
      Renderer.PlacesTexts ⟨.standard, .standard⟩ profile forest forest.roots
        text := by
  intro forest
  rcases exists_shows_ofEdits .standard ⟨true⟩
    [.insert .card none, .insert .text (some (NodeId.generate .card 1))] with
    ⟨ss, h⟩
  have hok : Renderable .standard ss :=
    h.renderable_iff.mpr fun node _ => Registry.contains_standard node.type
  rcases (h.report_ok_iff ⟨.standard, .standard⟩ Semantic.profile).mpr hok with
    ⟨text, htext⟩
  have hrenders : Renderer.Renders ⟨.standard, .standard⟩ ProfileId.semantic forest
      forest.roots text := .whole htext
  rcases ofEdits_texts_placed .standard ⟨true⟩
    [.insert .card none, .insert .text (some (NodeId.generate .card 1))]
    ⟨.standard, .standard⟩ ProfileId.semantic forest.roots text hrenders with
    ⟨profile, hprofile, hplaces⟩
  exact ⟨text, profile, hrenders, hprofile, hplaces⟩

end Forest

end MarkupForest
