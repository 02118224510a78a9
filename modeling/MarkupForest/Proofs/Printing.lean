import MarkupForest.Proofs.Drafts
import MarkupForest.Proofs.ImportSets
import MarkupForest.Proofs.Runs
import MarkupForest.Registry.Standard

/-!
# The recursive printer

Nested nodes are printed by structural recursion, straight to text: a node is
its opening tag, its own content, its children one level further in, and its
closing tag.  The walk over a forest writes the same lines.
-/

namespace MarkupForest

namespace Render

open Snapshot (idsOfList)

namespace Pretty

/-!
# Tags and lines
-/

/-- Some markup on a line of its own, two spaces further in for each level. -/
def line (depth : Nat) (markup : String) : String :=
  String.join (List.replicate depth "  ") ++ markup

def opening (dialect : Dialect) (element : Element) : String :=
  "<" ++ element.tag ++ Attribute.writeAll dialect element.attributes ++ ">"

def closing (element : Element) : String :=
  "</" ++ element.tag ++ ">"

def selfClosing (dialect : Dialect) (element : Element) : String :=
  "<" ++ element.tag ++ Attribute.writeAll dialect element.attributes ++ " />"

/-- Some markup between tags without attributes. -/
def enclose (tag markup : String) : String :=
  "<" ++ tag ++ ">" ++ markup ++ "</" ++ tag ++ ">"

/-!
# The content of one node
-/

section

variable (dialect : Dialect)

/-- The items that a property lists. -/
def items (node : Node) (property : String) : List String :=
  match node.properties.find? property with
  | some (.list items) => items
  | _ => []

/-- The table that a property holds. -/
def table (node : Node) (property : String) : TableData :=
  match node.properties.find? property with
  | some (.table data) => data
  | _ => ⟨[], []⟩

/-- A text on its own line, unless it is empty. -/
def textLines (depth : Nat) (text : String) : List String :=
  if text.isEmpty then [] else [line depth (dialect.escapeText text)]

def itemLines (depth : Nat) (tag : String) (items : List String) : List String :=
  items.map fun item => line depth (enclose tag (dialect.escapeText item))

/-- A table row on one line. -/
def row (tag : String) (cells : List String) : String :=
  enclose "tr"
    (String.join (cells.map fun cell => enclose tag (dialect.escapeText cell)))

def headLines (depth : Nat) : List String → List String
  | [] => []
  | headers =>
      [ line depth "<thead>",
        line (depth + 1) (row dialect "th" headers),
        line depth "</thead>" ]

def bodyLines (depth : Nat) : List (List String) → List String
  | [] => []
  | rows =>
      line depth "<tbody>" ::
        (rows.map (fun cells => line (depth + 1) (row dialect "td" cells)) ++
          [line depth "</tbody>"])

/-- The text, items or table of a node.  Items and tables show the text only
where the element is the generic one. -/
def contentLines (shape : ContentShape) (isGeneric : Bool) (node : Node)
    (depth : Nat) : List String :=
  let text := node.text?.getD ""
  match shape with
  | .wrapper => textLines dialect depth text
  | .items property tag =>
      textLines dialect depth (if isGeneric then text else "") ++
        itemLines dialect depth tag (items node property)
  | .table property =>
      textLines dialect depth (if isGeneric then text else "") ++
        (headLines dialect depth (table node property).headers ++
          bodyLines dialect depth (table node property).rows)
  | .selfClosing => []

/-- What stands between the tags of a node on a single line, if it fits there:
the text of a childless wrapper, or nothing at all. -/
def collapsed? (shape : ContentShape) (node : Node) (content : List String) :
    Option String :=
  match node.children, shape, content with
  | [], .wrapper, _ => some (dialect.escapeText (node.text?.getD ""))
  | [], _, [] => some ""
  | _, _, _ => none

end

/-!
# Whole subtrees
-/

section

variable (types : Registry) (profile : Profile)

mutual

/-- The lines of a snapshot, the first one at `depth`.  A node of an unknown
type has none. -/
def print (depth : Nat) (parent : Option NodeId) : Snapshot → List String
  | .node id type properties below =>
      match types.find? type with
      | none => []
      | some descriptor =>
          let node := (Snapshot.node id type properties below).toNode parent
          let element := (profile.element descriptor node).1
          let isGeneric := (profile.element descriptor node).2
          let content :=
            contentLines profile.dialect descriptor.shape isGeneric node (depth + 1)
          match descriptor.shape with
          | .selfClosing => [line depth (selfClosing profile.dialect element)]
          | shape =>
              match collapsed? profile.dialect shape node content with
              | some markup =>
                  [line depth
                    (opening profile.dialect element ++ markup ++ closing element)]
              | none =>
                  line depth (opening profile.dialect element) ::
                    (content ++ printList (depth + 1) (some id) below ++
                      [line depth (closing element)])

def printList (depth : Nat) (parent : Option NodeId) :
    List Snapshot → List String
  | [] => []
  | s :: rest => print depth parent s ++ printList depth parent rest

end

mutual

/-- The nodes that the printer visits, in order: nothing below a node that
closes itself. -/
def visited (parent : Option NodeId) : Snapshot → List Node
  | .node id type properties below =>
      match types.find? type with
      | none => []
      | some descriptor =>
          (Snapshot.node id type properties below).toNode parent ::
            match descriptor.shape with
            | .selfClosing => []
            | _ => visitedOfList (some id) below

def visitedOfList (parent : Option NodeId) : List Snapshot → List Node
  | [] => []
  | s :: rest => visited parent s ++ visitedOfList parent rest

end

/-- The component that the element of a node stands for. -/
def imported? (node : Node) : Option Import :=
  (types.find? node.type).bind fun descriptor =>
    (profile.element descriptor node).1.imported

end

end Pretty

/-!
# Lines of the walk
-/

variable {dialect : Dialect} {depth : Nat}

theorem line_eq (depth : Nat) (markup : String) :
    Pretty.line depth markup = Line.indentation depth ++ markup := by
  rw [Line.indentation_eq]
  rfl

theorem itemsOf_eq (node : Node) (property : String) :
    Layout.itemsOf node property = Pretty.items node property := by
  unfold Layout.itemsOf Pretty.items Node.property?
  cases node.properties.find? property with
  | none => rfl
  | some value => cases value <;> rfl

theorem tableOf_eq (node : Node) (property : String) :
    Layout.tableOf node property = Pretty.table node property := by
  unfold Layout.tableOf Pretty.table Node.property?
  cases node.properties.find? property with
  | none => rfl
  | some value => cases value <;> rfl

theorem write_ofText (content : String) :
    (Line.ofText depth content).map (·.write dialect) =
      Pretty.textLines dialect depth content := by
  unfold Line.ofText Pretty.textLines
  cases content.isEmpty with
  | true => rfl
  | false => simp [Line.write, Fragment.write, line_eq]

theorem write_wrapped (tag content : String) :
    String.join ((Fragment.wrapped tag content).map (·.write dialect)) =
      Pretty.enclose tag (dialect.escapeText content) := by
  simp [Fragment.wrapped, Fragment.write, Attribute.writeAll, Pretty.enclose,
    String.append_assoc]

theorem write_ofItems (tag : String) (items : List String) :
    (Line.ofItems depth tag items).map (·.write dialect) =
      Pretty.itemLines dialect depth tag items := by
  unfold Line.ofItems Pretty.itemLines
  rw [List.map_map]
  apply List.map_congr_left
  intro item _
  rw [line_eq, ← write_wrapped]
  rfl

theorem write_ofCells (tag : String) (cells : List String) :
    (Line.ofCells depth tag cells).write dialect =
      Pretty.line depth (Pretty.row dialect tag cells) := by
  have hcells : String.join
      ((cells.flatMap (Fragment.wrapped tag)).map (·.write dialect)) =
        String.join
          (cells.map fun cell => Pretty.enclose tag (dialect.escapeText cell)) := by
    induction cells with
    | nil => rfl
    | cons cell rest ih =>
        rw [List.flatMap_cons, List.map_append, String.join_append,
          write_wrapped, ih, List.map_cons, String.join_cons]
  simp only [Line.write, Line.ofCells, List.map_cons, List.map_append,
    String.join_cons, String.join_append, hcells]
  simp [Fragment.write, Attribute.writeAll, line_eq, Pretty.row,
    Pretty.enclose, String.append_assoc]

theorem write_enclosed (tag : String) (lines : List Line) :
    (Line.enclosed depth tag lines).map (·.write dialect) =
      Pretty.line depth ("<" ++ tag ++ ">") ::
        (lines.map (·.write dialect) ++
          [Pretty.line depth ("</" ++ tag ++ ">")]) := by
  simp [Line.enclosed, Line.write, Fragment.write, Attribute.writeAll, line_eq]

theorem write_ofTable (data : TableData) :
    (Line.ofTable depth data).map (·.write dialect) =
      Pretty.headLines dialect depth data.headers ++
        Pretty.bodyLines dialect depth data.rows := by
  rcases data with ⟨headers, rows⟩
  unfold Line.ofTable
  rw [List.map_append]
  congr 1
  · cases headers with
    | nil => rfl
    | cons header others =>
        simp [write_enclosed, write_ofCells, Pretty.headLines]
  · cases rows with
    | nil => rfl
    | cons cells others =>
        simp [write_enclosed, write_ofCells, Pretty.bodyLines]

theorem write_content (shape : ContentShape) (isGeneric : Bool) (node : Node) :
    (Layout.content shape isGeneric node depth).map (·.write dialect) =
      Pretty.contentLines dialect shape isGeneric node depth := by
  cases shape with
  | wrapper => exact write_ofText _
  | items property tag =>
      simp only [Layout.content, Pretty.contentLines, List.map_append,
        write_ofText, write_ofItems, itemsOf_eq]
  | table property =>
      simp only [Layout.content, Pretty.contentLines, List.map_append,
        write_ofText, write_ofTable, tableOf_eq]
  | selfClosing => rfl

theorem write_collapsed (dialect : Dialect) (shape : ContentShape) (node : Node)
    (inner : List Line) :
    (Layout.collapsed? shape node inner).map
        (fun fragments => String.join (fragments.map (·.write dialect))) =
      Pretty.collapsed? dialect shape node (inner.map (·.write dialect)) := by
  unfold Layout.collapsed? Pretty.collapsed? Node.hasChildren
  cases node.children with
  | cons child others => rfl
  | nil =>
      cases shape with
      | wrapper => simp [Fragment.write]
      | items property tag => cases inner <;> simp
      | table property => cases inner <;> simp
      | selfClosing => cases inner <;> simp

/-- The lines of a layout, written out: those of the printer for one node. -/
inductive Written (dialect : Dialect) (element : Element) (shape : ContentShape)
    (node : Node) (content : List String) (depth : Nat) (layout : Layout) :
    Prop where
  | closed : shape = .selfClosing → layout.closing = none →
      layout.opening.map (·.write dialect) =
        [Pretty.line depth (Pretty.selfClosing dialect element)] →
      Written dialect element shape node content depth layout
  | collapsed {markup : String} : shape ≠ .selfClosing →
      Pretty.collapsed? dialect shape node content = some markup →
      layout.closing = none →
      layout.opening.map (·.write dialect) =
        [Pretty.line depth
          (Pretty.opening dialect element ++ markup ++ Pretty.closing element)] →
      Written dialect element shape node content depth layout
  | opened {finish : Line} : shape ≠ .selfClosing →
      Pretty.collapsed? dialect shape node content = none →
      layout.closing = some finish →
      finish.write dialect = Pretty.line depth (Pretty.closing element) →
      layout.opening.map (·.write dialect) =
        Pretty.line depth (Pretty.opening dialect element) :: content →
      Written dialect element shape node content depth layout

theorem ofElement_of_ne (element : Element) {shape : ContentShape}
    (h : shape ≠ .selfClosing) (isGeneric : Bool) (node : Node) (depth : Nat) :
    Layout.ofElement element shape isGeneric node depth =
      match Layout.collapsed? shape node
        (Layout.content shape isGeneric node (depth + 1)) with
      | some fragments =>
          ⟨[⟨depth, .openTag element.tag element.attributes ::
            (fragments ++ [.closeTag element.tag])⟩], none⟩
      | none =>
          ⟨⟨depth, [.openTag element.tag element.attributes]⟩ ::
            Layout.content shape isGeneric node (depth + 1),
            some ⟨depth, [.closeTag element.tag]⟩⟩ := by
  cases shape with
  | selfClosing => exact absurd rfl h
  | wrapper => rfl
  | items property tag => rfl
  | table property => rfl

theorem written_ofElement (dialect : Dialect) (element : Element)
    (shape : ContentShape) (isGeneric : Bool) (node : Node) (depth : Nat) :
    Written dialect element shape node
      (Pretty.contentLines dialect shape isGeneric node (depth + 1)) depth
      (Layout.ofElement element shape isGeneric node depth) := by
  rw [← write_content]
  by_cases hshape : shape = .selfClosing
  · cases hshape
    refine Written.closed rfl rfl ?_
    simp [Layout.ofElement, Line.write, Fragment.write, line_eq,
      Pretty.selfClosing]
  · have hlayout := ofElement_of_ne element hshape isGeneric node depth
    have hcollapsed := write_collapsed dialect shape node
      (Layout.content shape isGeneric node (depth + 1))
    cases hinner : Layout.collapsed? shape node
        (Layout.content shape isGeneric node (depth + 1)) with
    | some fragments =>
        rw [hinner] at hcollapsed hlayout
        rw [hlayout]
        refine Written.collapsed hshape hcollapsed.symm rfl ?_
        simp [Line.write, Fragment.write, line_eq, Pretty.opening,
          Pretty.closing, String.append_assoc]
    | none =>
        rw [hinner] at hcollapsed hlayout
        rw [hlayout]
        refine Written.opened hshape hcollapsed.symm rfl ?_ ?_
        · simp [Line.write, Fragment.write, line_eq, Pretty.closing]
        · simp [Line.write, Fragment.write, line_eq, Pretty.opening]

theorem children_of_collapsed {shape : ContentShape} {node : Node}
    {content : List String} {markup : String}
    (h : Pretty.collapsed? dialect shape node content = some markup) :
    node.children = [] := by
  unfold Pretty.collapsed? at h
  cases hchildren : node.children with
  | nil => rfl
  | cons child others => simp [hchildren] at h

/-!
# The walk prints
-/

section

variable {types : Registry} {profile : Profile} {parent : Option NodeId}
  {ss : List Snapshot} {descriptor : Descriptor} {id : NodeId} {type : NodeType}
  {properties : Properties} {below : List Snapshot}

theorem printList_cons (depth : Nat) (parent : Option NodeId) (s : Snapshot)
    (rest : List Snapshot) :
    Pretty.printList types profile depth parent (s :: rest) =
      Pretty.print types profile depth parent s ++
        Pretty.printList types profile depth parent rest := rfl

theorem visitedOfList_cons (parent : Option NodeId) (s : Snapshot)
    (rest : List Snapshot) :
    Pretty.visitedOfList types parent (s :: rest) =
      Pretty.visited types parent s ++
        Pretty.visitedOfList types parent rest := rfl

theorem printList_singleton (depth : Nat) (parent : Option NodeId)
    (s : Snapshot) :
    Pretty.printList types profile depth parent [s] =
      Pretty.print types profile depth parent s :=
  List.append_nil _

theorem visitedOfList_singleton (parent : Option NodeId) (s : Snapshot) :
    Pretty.visitedOfList types parent [s] = Pretty.visited types parent s :=
  List.append_nil _

theorem filterMap_imported (h : types.find? type = some descriptor)
    {depth : Nat} :
    [(Snapshot.node id type properties below).toNode parent].filterMap
        (Pretty.imported? types profile) =
      (visitNode profile descriptor
        ((Snapshot.node id type properties below).toNode parent)
        depth).imported.toList := by
  have hself : Pretty.imported? types profile
      ((Snapshot.node id type properties below).toNode parent) =
        (visitNode profile descriptor
          ((Snapshot.node id type properties below).toNode parent)
          depth).imported := by
    show (types.find? type).bind _ = _
    rw [h]
    rfl
  cases himported : (visitNode profile descriptor
      ((Snapshot.node id type properties below).toNode parent)
      depth).imported with
  | none => simp [hself, himported]
  | some i => simp [hself, himported]

theorem written_visitNode (profile : Profile) (descriptor : Descriptor)
    (node : Node) (depth : Nat) :
    Written profile.dialect (profile.element descriptor node).1 descriptor.shape
      node
      (Pretty.contentLines profile.dialect descriptor.shape
        (profile.element descriptor node).2 node (depth + 1))
      depth (visitNode profile descriptor node depth).layout :=
  written_ofElement profile.dialect (profile.element descriptor node).1
    descriptor.shape (profile.element descriptor node).2 node depth

theorem print_of_written (htype : types.find? type = some descriptor)
    {depth : Nat} {layout : Layout}
    (h : Written profile.dialect
      (profile.element descriptor
        ((Snapshot.node id type properties below).toNode parent)).1
      descriptor.shape
      ((Snapshot.node id type properties below).toNode parent)
      (Pretty.contentLines profile.dialect descriptor.shape
        (profile.element descriptor
          ((Snapshot.node id type properties below).toNode parent)).2
        ((Snapshot.node id type properties below).toNode parent) (depth + 1))
      depth layout) :
    Pretty.print types profile depth parent (.node id type properties below) =
      layout.opening.map (·.write profile.dialect) ++
        match layout.closing with
        | some finish =>
            Pretty.printList types profile (depth + 1) (some id) below ++
              [finish.write profile.dialect]
        | none => [] := by
  unfold Pretty.print
  simp only [htype]
  cases h with
  | closed hshape hclosing hopening =>
      rw [hclosing, hopening, hshape]
      rfl
  | collapsed hshape hcollapsed hclosing hopening =>
      rw [hclosing, hopening]
      cases hcase : descriptor.shape with
      | selfClosing => exact absurd hcase hshape
      | wrapper =>
          rw [hcase] at hcollapsed
          simp only [hcollapsed, List.append_nil]
      | items property tag =>
          rw [hcase] at hcollapsed
          simp only [hcollapsed, List.append_nil]
      | table property =>
          rw [hcase] at hcollapsed
          simp only [hcollapsed, List.append_nil]
  | opened hshape hcollapsed hclosing hfinish hopening =>
      rw [hclosing, hopening]
      simp only [hfinish]
      cases hcase : descriptor.shape with
      | selfClosing => exact absurd hcase hshape
      | wrapper =>
          rw [hcase] at hcollapsed
          simp only [hcollapsed, List.cons_append, List.append_assoc]
      | items property tag =>
          rw [hcase] at hcollapsed
          simp only [hcollapsed, List.cons_append, List.append_assoc]
      | table property =>
          rw [hcase] at hcollapsed
          simp only [hcollapsed, List.cons_append, List.append_assoc]

theorem visited_of_written (htype : types.find? type = some descriptor)
    {element : Element} {content : List String} {depth : Nat} {layout : Layout}
    (h : Written dialect element descriptor.shape
      ((Snapshot.node id type properties below).toNode parent) content depth
      layout) :
    Pretty.visited types parent (.node id type properties below) =
      (Snapshot.node id type properties below).toNode parent ::
        match layout.closing with
        | some _ => Pretty.visitedOfList types (some id) below
        | none => [] := by
  unfold Pretty.visited
  simp only [htype]
  cases h with
  | closed hshape hclosing hopening =>
      rw [hclosing, hshape]
  | collapsed hshape hcollapsed hclosing hopening =>
      have hbelow : below = [] := by
        have hchildren := children_of_collapsed hcollapsed
        rw [Snapshot.toNode_children] at hchildren
        exact List.map_eq_nil_iff.mp hchildren
      rw [hclosing, hbelow]
      cases descriptor.shape with
      | selfClosing => rfl
      | wrapper => rfl
      | items property tag => rfl
      | table property => rfl
  | opened hshape hcollapsed hclosing hfinish hopening =>
      rw [hclosing]
      cases hcase : descriptor.shape with
      | selfClosing => exact absurd hcase hshape
      | wrapper => rfl
      | items property tag => rfl
      | table property => rfl

/-- The drafted lines are what the printer prints, and the imports are those of
the nodes that the printer visits. -/
theorem Drafted.printed {depth : Nat} {lines : List Line}
    {imports : List Import}
    (h : Drafted types profile depth parent ss lines imports) :
    lines.map (·.write profile.dialect) =
        Pretty.printList types profile depth parent ss ∧
      imports = (Pretty.visitedOfList types parent ss).filterMap
        (Pretty.imported? types profile) := by
  induction h with
  | nil => exact ⟨rfl, rfl⟩
  | @closed depth parent id type properties below rest descriptor lines imports
      htype hclosing hrest ihrest =>
      have hwritten := written_visitNode profile descriptor
        ((Snapshot.node id type properties below).toNode parent) depth
      rcases ihrest with ⟨hlines, himports⟩
      rw [printList_cons, visitedOfList_cons, print_of_written htype hwritten,
        visited_of_written htype hwritten, hclosing, List.filterMap_append,
        ← filterMap_imported htype, himports]
      constructor
      · simp [hlines]
      · rfl
  | @opened depth parent id type properties below rest descriptor closing inner
      lines innerImports imports htype hclosing hbelow hrest ihbelow ihrest =>
      have hwritten := written_visitNode profile descriptor
        ((Snapshot.node id type properties below).toNode parent) depth
      rcases ihbelow with ⟨hinner, hinnerImports⟩
      rcases ihrest with ⟨hlines, himports⟩
      rw [printList_cons, visitedOfList_cons, print_of_written htype hwritten,
        visited_of_written htype hwritten, hclosing, List.filterMap_append,
        hinnerImports, himports, ← filterMap_imported htype,
        ← List.filterMap_append]
      constructor
      · simp [hinner, hlines]
      · rfl

/-!
# Rendering a subtree
-/

/-- Rendering any node of any forest that edits can make, with any node types
and any profile, writes the lines of the recursive printer for the snapshot of
the node, and collects exactly the components of the nodes that it visits. -/
theorem lines_eq_print (registry : Registry) (options : Options)
    (requests : List Edit) (r : Renderer) (profile : Profile) (id : NodeId)
    (hid : (Forest.ofEdits registry options requests).contains id = true)
    (hok : (r.draft profile (Forest.ofEdits registry options requests)
      [id]).error? = none) :
    exists s parent,
      (Forest.ofEdits registry options requests).snapshotOf? id = some s ∧
      ((Forest.ofEdits registry options requests).find? id).map
        Node.parent = some parent ∧
      (r.draft profile (Forest.ofEdits registry options requests)
          [id]).lines.map (·.write profile.dialect) =
        Pretty.print r.types profile 0 parent s ∧
      forall module name,
        Imports.Has
            (Imports.collect
              (r.draft profile (Forest.ofEdits registry options requests)
                [id]).imports) module name ↔
          exists node, node ∈ Pretty.visited r.types parent s ∧
            Pretty.imported? r.types profile node = some ⟨name, module⟩ := by
  rcases Forest.exists_shows_ofEdits registry options requests with ⟨ss, hshows⟩
  rcases hshows.exists_subtree (Forest.contains_iff.mp hid) with
    ⟨parent, s, rfl, hs⟩
  have hlist : draftOfList r.types profile 0 parent [s] =
      r.draft profile (Forest.ofEdits registry options requests) [s.id] := by
    rw [draft_of_subtree hs, draftOfList_singleton]
  rw [← hlist] at hok ⊢
  rcases (drafted_draftOfList [s] 0 parent hok).printed with ⟨hlines, himports⟩
  rw [printList_singleton] at hlines
  rw [visitedOfList_singleton] at himports
  refine ⟨s, parent, hs.snapshotOf?, ?_, hlines, ?_⟩
  · rw [hs.find, Option.map_some, Snapshot.toNode_parent]
  · intro module name
    rw [Imports.has_collect, himports, List.mem_filterMap]

theorem shows_card :
    Forest.Shows (Forest.ofEdits .standard ⟨true⟩ [.insert .card none])
      [.node (NodeId.generate .card 1) .card
        ((Registry.standard.find? .card).get rfl).defaults []] :=
  (Forest.Shows.empty .standard ⟨true⟩).place (Forest.slotOf_none []) .card
    ((Registry.standard.find? .card).get rfl).defaults

end

end Render

/-!
# A card whose texts look like markup
-/

namespace Forest

/-- Edits that make a card with a text, a list and a table. -/
def board : List Edit :=
  [ .insert .card none,
    .setProperty (NodeId.generate .card 1) "className" (.text "wide\"><b>"),
    .insert .text (some (NodeId.generate .card 1)),
    .setProperty (NodeId.generate .text 2) "text" (.text "</div> & <p>"),
    .insert .list (some (NodeId.generate .card 1)),
    .setProperty (NodeId.generate .list 3) "items"
      (.list ["</ul>", "a\n\x7bb\x7d"]),
    .insert .table (some (NodeId.generate .card 1)),
    .setProperty (NodeId.generate .table 4) "data"
      (.table ⟨["<th>"], [["1 < 2", "\"></td>"]]⟩) ]

/-- The card with everything below it. -/
def boardCard : Snapshot :=
  ((layOut? .standard 1 [] board).bind List.head?).getD default

theorem shows_board : Shows (ofEdits .standard ⟨false⟩ board) [boardCard] :=
  shows_of_layOut rfl

end Forest

namespace Render

theorem lines_of_board :
    let forest := Forest.ofEdits .standard ⟨false⟩ Forest.board
    let draft := Renderer.draft ⟨.standard, .standard⟩ ComponentCall.profile forest
      [NodeId.generate .card 1]
    forest.contains (NodeId.generate .card 1) = true ∧
    draft.error? = none ∧
    draft.lines.map (·.write .jsx) =
      [ "<Card className=\"wide&quot;&gt;&lt;b&gt;\">",
        "  <p className=\"text-base leading-relaxed\">&lt;/div&gt; &amp; &lt;p&gt;</p>",
        "  <ul>",
        "    <li>&lt;/ul&gt;</li>",
        "    <li>\x7b\"a\\n\x7bb\x7d\"\x7d</li>",
        "  </ul>",
        "  <table>",
        "    <thead>",
        "      <tr><th>&lt;th&gt;</th></tr>",
        "    </thead>",
        "    <tbody>",
        "      <tr><td>1 &lt; 2</td><td>\"&gt;&lt;/td&gt;</td></tr>",
        "    </tbody>",
        "  </table>",
        "</Card>" ] ∧
    forall module name, Imports.Has (Imports.collect draft.imports) module name ↔
      module = "@/components/ui/card" ∧ name = "Card" := by
  intro forest draft
  have hcard := Forest.shows_board.subtree_of_root List.mem_cons_self
  have hdraft : draft = draftOf .standard ComponentCall.profile 0 none
      Forest.boardCard := draft_of_subtree hcard _ _
  have hid : forest.contains (NodeId.generate .card 1) = true :=
    Forest.contains_iff.mpr (Forest.mem_of_entry hcard.find)
  have hok : draft.error? = none := by
    rw [hdraft]
    decide +kernel
  rcases lines_eq_print .standard ⟨false⟩ Forest.board ⟨.standard, .standard⟩
    ComponentCall.profile (NodeId.generate .card 1) hid hok with
    ⟨s, parent, hs, hparent, hlines, himports⟩
  cases hs.symm.trans hcard.snapshotOf?
  cases hparent.symm.trans (congrArg (Option.map Node.parent) hcard.find)
  have hmet : (Pretty.visited .standard none Forest.boardCard).filterMap
      (Pretty.imported? .standard ComponentCall.profile) =
        [⟨"Card", "@/components/ui/card"⟩] := by
    decide +kernel
  refine ⟨hid, hok, hlines.trans ?_, ?_⟩
  · show Pretty.print .standard ComponentCall.profile 0 none Forest.boardCard = _
    decide +kernel
  · intro module name
    refine (himports module name).trans ?_
    show (exists node, node ∈ Pretty.visited .standard none Forest.boardCard ∧ _) ↔ _
    rw [← List.mem_filterMap, hmet, List.mem_singleton, Import.mk.injEq, and_comm]

end Render

end MarkupForest
