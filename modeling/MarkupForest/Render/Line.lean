import MarkupForest.Render.Element

/-!
# Lines of markup

Markup is built as data: lines of fragments, each line with its depth.  Texts
are kept as they are until a line is written, so there is one place where they
are escaped.
-/

namespace MarkupForest

inductive Fragment where
  | openTag (tag : String) (attributes : List Attribute)
  | closeTag (tag : String)
  | voidTag (tag : String) (attributes : List Attribute)
  | text (content : String)
  deriving DecidableEq

namespace Fragment

def write (dialect : Dialect) : Fragment → String
  | openTag tag attributes =>
      "<" ++ tag ++ Attribute.writeAll dialect attributes ++ ">"
  | closeTag tag => "</" ++ tag ++ ">"
  | voidTag tag attributes =>
      "<" ++ tag ++ Attribute.writeAll dialect attributes ++ " />"
  | text content => dialect.escapeText content

/-- An element without attributes around a text. -/
def wrapped (tag content : String) : List Fragment :=
  [openTag tag [], text content, closeTag tag]

end Fragment

structure Line where
  depth : Nat
  fragments : List Fragment
  deriving DecidableEq

namespace Line

/-- Two spaces for each level. -/
def indentation (depth : Nat) : String :=
  String.ofList (List.replicate (2 * depth) ' ')

theorem indentation_eq (depth : Nat) :
    indentation depth = String.join (List.replicate depth "  ") := by
  induction depth with
  | zero => rfl
  | succ depth ih =>
      rw [List.replicate_succ, String.join_cons, ← ih]
      unfold indentation
      rw [Nat.mul_succ, Nat.add_comm, ← List.replicate_append_replicate,
        String.ofList_append]
      rfl

def write (dialect : Dialect) (line : Line) : String :=
  indentation line.depth ++ String.join (line.fragments.map (·.write dialect))

def indent (levels : Nat) (line : Line) : Line :=
  { line with depth := levels + line.depth }

/-- A line of text, unless the text is empty. -/
def ofText (depth : Nat) (content : String) : List Line :=
  if content.isEmpty then [] else [⟨depth, [.text content]⟩]

def ofItems (depth : Nat) (tag : String) (items : List String) : List Line :=
  items.map fun item => ⟨depth, Fragment.wrapped tag item⟩

def ofCells (depth : Nat) (tag : String) (cells : List String) : Line :=
  ⟨depth, .openTag "tr" [] ::
    (cells.flatMap (Fragment.wrapped tag) ++ [.closeTag "tr"])⟩

/-- Lines between an opening and a closing tag of their own. -/
def enclosed (depth : Nat) (tag : String) (lines : List Line) : List Line :=
  ⟨depth, [.openTag tag []]⟩ :: (lines ++ [⟨depth, [.closeTag tag]⟩])

/-- Head and body of a table; a part without content is left out. -/
def ofTable (depth : Nat) (data : TableData) : List Line :=
  let head :=
    if data.headers.isEmpty then []
    else enclosed depth "thead" [ofCells (depth + 1) "th" data.headers]
  let body :=
    if data.rows.isEmpty then []
    else enclosed depth "tbody" (data.rows.map (ofCells (depth + 1) "td"))
  head ++ body

end Line

end MarkupForest
