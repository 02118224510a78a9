import MarkupForest.Proofs.Entities
import MarkupForest.Proofs.Openings

/-!
# Line breaks in rendered texts

JSX takes a line break in a text for spacing, be it a line feed or a carriage
return.  No text is written with a line feed: it is a string literal as soon as it
has one.  A carriage return alone does not make it one, and is written as it is.
All other line breaks in a line of markup come from its tags and attributes.
-/

namespace MarkupForest

namespace Text

variable {d : Char}

theorem not_mem_escapeText_of_control {s : String} (h : '\n' ∈ s.toList)
    (hd : d.toNat < 0x20) : d ∉ (Dialect.jsx.escapeText s).toList := by
  have hbraces : d ≠ '\x7b' ∧ d ≠ '\x7d' := by
    constructor
    · rintro rfl
      revert hd
      decide
    · rintro rfl
      revert hd
      decide
  rw [escapeText_jsx_line h, String.toList_append, String.toList_append]
  intro hmem
  rcases List.mem_append.mp hmem with hmem | hmem
  · rcases List.mem_append.mp hmem with hmem | hmem
    · exact hbraces.left (by simpa using hmem)
    · have hvisible := (markupLiteral s).visible d hmem
      omega
  · exact hbraces.right (by simpa using hmem)

theorem lineFeed_not_mem_escapeText (s : String) :
    '\n' ∉ (Dialect.jsx.escapeText s).toList := by
  by_cases h : '\n' ∈ s.toList
  · exact not_mem_escapeText_of_control h (by decide)
  · rw [escapeText_jsx h, toList_replaceChars,
      mem_encoded_iff encoding_bracedEntity (by decide) (by decide)]
    exact h

theorem carriageReturn_mem_escapeText_iff (s : String) :
    '\r' ∈ (Dialect.jsx.escapeText s).toList ↔
      '\r' ∈ s.toList ∧ '\n' ∉ s.toList := by
  by_cases h : '\n' ∈ s.toList
  · have hnone := not_mem_escapeText_of_control h (by decide : '\r'.toNat < 0x20)
    exact ⟨fun hmem => absurd hmem hnone, fun hboth => absurd h hboth.right⟩
  · rw [escapeText_jsx h, toList_replaceChars,
      mem_encoded_iff encoding_bracedEntity (by decide) (by decide)]
    exact ⟨fun hmem => ⟨hmem, h⟩, And.left⟩

end Text

/-!
# Lines and their texts
-/

namespace Fragment

def text? : Fragment → Option String
  | text content => some content
  | _ => none

/-- The fragment without its text. -/
def hollow : Fragment → Fragment
  | text _ => text ""
  | f => f

variable {dialect : Dialect} {d : Char}

theorem mem_write_iff (f : Fragment) :
    d ∈ (f.write dialect).toList ↔ d ∈ (f.hollow.write dialect).toList ∨
      exists content, f.text? = some content ∧
        d ∈ (dialect.escapeText content).toList := by
  cases f with
  | text content =>
      have hempty : dialect.escapeText "" = "" := by cases dialect <;> rfl
      simp [write, hollow, text?, hempty]
  | openTag tag attributes => simp [hollow, text?]
  | closeTag tag => simp [hollow, text?]
  | voidTag tag attributes => simp [hollow, text?]

end Fragment

namespace Line

/-- The texts of a line, in order. -/
def texts (line : Line) : List String :=
  line.fragments.filterMap Fragment.text?

/-- The line with its indentation, its tags and their attributes alone. -/
def hollow (line : Line) : Line :=
  { line with fragments := line.fragments.map Fragment.hollow }

variable {dialect : Dialect} {d : Char} {depth : Nat} {content : String}

theorem mem_write_iff (line : Line) :
    d ∈ (line.write dialect).toList ↔ d ∈ (line.hollow.write dialect).toList ∨
      exists content, content ∈ line.texts ∧
        d ∈ (dialect.escapeText content).toList := by
  unfold write hollow texts
  simp only [String.toList_append, String.toList_join, List.mem_append,
    List.mem_flatMap, List.mem_map, List.mem_filterMap, exists_exists_and_eq_and]
  constructor
  · rintro (hindent | ⟨f, hf, hmem⟩)
    · exact Or.inl (Or.inl hindent)
    · rcases f.mem_write_iff.mp hmem with hmem | ⟨content, hcontent, hmem⟩
      · exact Or.inl (Or.inr ⟨f, hf, hmem⟩)
      · exact Or.inr ⟨content, ⟨f, hf, hcontent⟩, hmem⟩
  · rintro ((hindent | ⟨f, hf, hmem⟩) | ⟨content, ⟨f, hf, hcontent⟩, hmem⟩)
    · exact Or.inl hindent
    · exact Or.inr ⟨f, hf, f.mem_write_iff.mpr (Or.inl hmem)⟩
    · exact Or.inr ⟨f, hf, f.mem_write_iff.mpr (Or.inr ⟨content, hcontent, hmem⟩)⟩

/-- No line feed comes from a text, and a carriage return only from a text that
has one but no line feed. -/
theorem breaks_iff (line : Line) :
    ('\n' ∈ (line.write .jsx).toList ↔ '\n' ∈ (line.hollow.write .jsx).toList) ∧
    ('\r' ∈ (line.write .jsx).toList ↔ '\r' ∈ (line.hollow.write .jsx).toList ∨
      exists content, content ∈ line.texts ∧
        '\r' ∈ content.toList ∧ '\n' ∉ content.toList) := by
  constructor
  · rw [mem_write_iff]
    constructor
    · rintro (hmem | ⟨content, _, hmem⟩)
      · exact hmem
      · exact absurd hmem (Text.lineFeed_not_mem_escapeText content)
    · exact Or.inl
  · simp only [line.mem_write_iff, Text.carriageReturn_mem_escapeText_iff]

end Line

/-!
# Where texts come from
-/

/-- The texts that a node may show: its own, its items, and the cells of its
table. -/
inductive Node.HasContent (node : Node) : String → Prop where
  | text : HasContent node (node.text?.getD "")
  | item {property content : String}
      (h : content ∈ Render.Pretty.items node property) : HasContent node content
  | header {property content : String}
      (h : content ∈ (Render.Pretty.table node property).headers) :
      HasContent node content
  | cell {property content : String} {row : List String}
      (hrow : row ∈ (Render.Pretty.table node property).rows) (h : content ∈ row) :
      HasContent node content

namespace Line

variable {line : Line} {depth : Nat} {content : String}

theorem texts_ofText {s : String} (h : line ∈ ofText depth s) :
    s ≠ "" ∧ line.texts = [s] := by
  unfold ofText at h
  split at h
  · cases h
  · rename_i hs
    rw [List.mem_singleton] at h
    subst h
    exact ⟨by simpa using hs, rfl⟩

theorem texts_ofItems {tag : String} {items : List String}
    (h : line ∈ ofItems depth tag items) :
    exists item, item ∈ items ∧ line.texts = [item] := by
  rcases List.mem_map.mp h with ⟨item, hitem, rfl⟩
  exact ⟨item, hitem, rfl⟩

theorem texts_ofCells (depth : Nat) (tag : String) (cells : List String) :
    (ofCells depth tag cells).texts = cells := by
  unfold ofCells texts
  rw [List.filterMap_cons_none rfl, List.filterMap_append,
    List.filterMap_flatMap]
  show cells.flatMap (fun cell => [cell]) ++ [] = cells
  rw [List.append_nil, List.flatMap_singleton']

theorem texts_enclosed {tag : String} {lines : List Line}
    (h : line ∈ enclosed depth tag lines) : line.texts = [] ∨ line ∈ lines := by
  unfold enclosed at h
  rw [List.mem_cons, List.mem_append, List.mem_singleton] at h
  rcases h with rfl | h | rfl
  · exact Or.inl rfl
  · exact Or.inr h
  · exact Or.inl rfl

theorem mem_texts_ofTable {data : TableData} (h : line ∈ ofTable depth data)
    (hcontent : content ∈ line.texts) :
    content ∈ data.headers ∨ exists row, row ∈ data.rows ∧ content ∈ row := by
  have hnone : line.texts ≠ [] := fun heq => by
    rw [heq] at hcontent
    cases hcontent
  rcases List.mem_append.mp h with h | h
  · split at h
    · cases h
    · have hrow := (texts_enclosed h).resolve_left hnone
      rw [List.mem_singleton] at hrow
      rw [hrow, texts_ofCells] at hcontent
      exact Or.inl hcontent
  · split at h
    · cases h
    · rcases List.mem_map.mp ((texts_enclosed h).resolve_left hnone) with
        ⟨row, hrow, rfl⟩
      rw [texts_ofCells] at hcontent
      exact Or.inr ⟨row, hrow, hcontent⟩

end Line

namespace Render

variable {line : Line} {content : String} {node : Node} {depth : Nat}

theorem hasContent_of_lead (isGeneric : Bool)
    (h : line ∈ Line.ofText depth (if isGeneric then node.text?.getD "" else ""))
    (hcontent : content ∈ line.texts) : node.HasContent content := by
  rcases Line.texts_ofText h with ⟨hne, htexts⟩
  rw [htexts, List.mem_singleton] at hcontent
  subst hcontent
  cases isGeneric with
  | true => exact .text
  | false => exact absurd rfl hne

theorem hasContent_of_content {shape : ContentShape} {isGeneric : Bool}
    (h : line ∈ Layout.content shape isGeneric node depth)
    (hcontent : content ∈ line.texts) : node.HasContent content := by
  cases shape with
  | wrapper => exact hasContent_of_lead true h hcontent
  | items property tag =>
      rcases List.mem_append.mp h with h | h
      · exact hasContent_of_lead isGeneric h hcontent
      · rcases Line.texts_ofItems h with ⟨item, hitem, htexts⟩
        rw [htexts, List.mem_singleton] at hcontent
        rw [itemsOf_eq] at hitem
        exact .item (hcontent ▸ hitem)
  | table property =>
      rcases List.mem_append.mp h with h | h
      · exact hasContent_of_lead isGeneric h hcontent
      · rw [tableOf_eq] at h
        rcases Line.mem_texts_ofTable h hcontent with hheader | ⟨row, hrow, hcell⟩
        · exact .header hheader
        · exact .cell hrow hcell
  | selfClosing => cases h

theorem texts_of_collapsed {shape : ContentShape} {inner : List Line}
    {fragments : List Fragment}
    (h : Layout.collapsed? shape node inner = some fragments)
    (hcontent : content ∈ fragments.filterMap Fragment.text?) :
    node.HasContent content := by
  unfold Layout.collapsed? at h
  split at h
  · cases h
  · split at h
    · cases h
      have heq : content = node.text?.getD "" := List.mem_singleton.mp hcontent
      exact heq ▸ .text
    · split at h
      · cases h
        cases hcontent
      · cases h

theorem hasContent_ofElement (element : Element) (shape : ContentShape)
    (isGeneric : Bool) (node : Node) (depth : Nat) :
    (forall line content,
      line ∈ (Layout.ofElement element shape isGeneric node depth).opening →
        content ∈ line.texts → node.HasContent content) ∧
    forall line,
      (Layout.ofElement element shape isGeneric node depth).closing = some line →
        line.texts = [] := by
  by_cases hshape : shape = .selfClosing
  · subst hshape
    constructor
    · intro line content hline hcontent
      rw [List.mem_singleton.mp hline] at hcontent
      cases hcontent
    · intro line hline
      cases hline
  · rw [ofElement_of_ne element hshape]
    cases hinner : Layout.collapsed? shape node
        (Layout.content shape isGeneric node (depth + 1)) with
    | some fragments =>
        constructor
        · intro line content hline hcontent
          rw [List.mem_singleton.mp hline] at hcontent
          have hinside : content ∈ fragments.filterMap Fragment.text? ++ [] := by
            rw [Line.texts, List.filterMap_cons_none rfl,
              List.filterMap_append] at hcontent
            exact hcontent
          rw [List.append_nil] at hinside
          exact texts_of_collapsed hinner hinside
        · intro line hline
          cases hline
    | none =>
        constructor
        · intro line content hline hcontent
          rcases List.mem_cons.mp hline with rfl | hline
          · cases hcontent
          · exact hasContent_of_content hline hcontent
        · intro line hline
          cases hline
          rfl

/-- Everything that a walk writes from nodes is a text of one of them. -/
theorem hasContent_of_walk (types : Registry) (profile : Profile) (arena : Arena)
    (steps : Nat) {stack : List Pending}
    (hstack : forall line, Pending.line line ∈ stack → line.texts = []) :
    forall line content, line ∈ (walk types profile arena steps stack).lines →
      content ∈ line.texts →
        exists (id : NodeId) (node : Node), arena[id]? = some node ∧
          node.HasContent content := by
  intro line content hline
  refine forall_lines_of_walk (P := fun line => content ∈ line.texts → _) ?_ steps
    ?_ line hline
  · intro id node descriptor depth hfind _
    rcases hasContent_ofElement (profile.element descriptor node).1
      descriptor.shape (profile.element descriptor node).2 node depth with
      ⟨hopening, hclosing⟩
    constructor
    · intro line hline hcontent
      exact ⟨id, node, hfind, hopening line content hline hcontent⟩
    · intro line hline hcontent
      rw [hclosing line hline] at hcontent
      cases hcontent
  · intro line hmem hcontent
    rw [hstack line hmem] at hcontent
    cases hcontent

/-- The line breaks of renderings with component calls, whatever the types in the
registry and wherever the rendering starts.  A text, an item or a table cell is
written without a line feed.  It is written with a carriage return exactly if it
has one and no line feed; then, and only then, it breaks the line it stands on.
All other breaks within a line are those of its tags and their attributes. -/
theorem contents_break_iff (r : Renderer) (forest : Forest)
    (start : List NodeId) :
    (forall s, '\n' ∉ (Dialect.jsx.escapeText s).toList ∧
      ('\r' ∈ (Dialect.jsx.escapeText s).toList ↔
        '\r' ∈ s.toList ∧ '\n' ∉ s.toList)) ∧
    forall line, line ∈ (r.draft ComponentCall.profile forest start).lines →
      (forall content, content ∈ line.texts →
        exists id node, forest.find? id = some node ∧ node.HasContent content) ∧
      ('\n' ∈ (line.write .jsx).toList ↔
        '\n' ∈ (line.hollow.write .jsx).toList) ∧
      ('\r' ∈ (line.write .jsx).toList ↔
        '\r' ∈ (line.hollow.write .jsx).toList ∨
          exists content, content ∈ line.texts ∧
            '\r' ∈ content.toList ∧ '\n' ∉ content.toList) := by
  refine ⟨fun s => ⟨Text.lineFeed_not_mem_escapeText s,
    Text.carriageReturn_mem_escapeText_iff s⟩, ?_⟩
  intro line hline
  have hstart : forall line, Pending.line line ∈ start.map (Pending.node · 0) →
      line.texts = [] := by
    intro line hmem
    rcases List.mem_map.mp hmem with ⟨id, _, heq⟩
    cases heq
  exact ⟨fun content => hasContent_of_walk _ _ _ _ hstart line content hline,
    line.breaks_iff⟩

/-- Two lines with a carriage return between them stay two lines. -/
theorem carriageReturn_kept :
    '\r' ∈ (Dialect.jsx.escapeText "one\rtwo").toList := by
  decide

end Render

end MarkupForest
