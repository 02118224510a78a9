import MarkupForest.Profile.Basic

/-!
# The profile `inline-style`

HTML with a `style` attribute on each element.  The declarations of the type
come first.  Declarations derived from properties follow: each one replaces the
first declaration of the same name in place, or is added at the end.  Free
properties of any node are applied last, so that they win.
-/

namespace MarkupForest

namespace InlineStyle

/-- Set a declaration: replace the first one of its name, or add it. -/
def setDeclaration (list : List Declaration) (d : Declaration) :
    List Declaration :=
  OrderedMap.insertEntry d.1 d.2 list

def setDeclarations (list changes : List Declaration) : List Declaration :=
  changes.foldl setDeclaration list

/-! ## Declarations that follow from the type -/

def headingSize : Nat → String
  | 1 => "2.5rem"
  | 2 => "2rem"
  | 3 => "1.5rem"
  | 4 => "1.25rem"
  | 5 => "1.125rem"
  | _ => "1rem"

def headingDeclarations (node : Node) : List Declaration :=
  match node.numberProperty? "level" with
  | some level => [("font-size", headingSize (Element.headingLevel level))]
  | none => []

/-- How many columns a number asks for: its whole part, at least one. -/
def columnCount (x : Binary64) : Int :=
  max 1 x.truncate

def gridDeclarations (node : Node) : List Declaration :=
  match node.numberProperty? "columns" with
  | some columns =>
      [("grid-template-columns",
        "repeat(" ++ toString (columnCount columns) ++ ", minmax(0, 1fr))")]
  | none => []

def buttonColors (variant : String) : List Declaration :=
  if variant = "secondary" then
    [("background", "#e5e7eb"), ("color", "#111827")]
  else if variant = "outline" then
    [("background", "transparent"), ("color", "#111827"),
      ("border", "1px solid #d1d5db")]
  else if variant = "ghost" then
    [("background", "transparent"), ("color", "#111827")]
  else if variant = "destructive" then
    [("background", "#dc2626"), ("color", "#ffffff")]
  else
    [("background", "#2563eb"), ("color", "#ffffff")]

def buttonSize (size : String) : List Declaration :=
  if size = "sm" then
    [("padding", "4px 12px"), ("font-size", "0.875rem")]
  else if size = "lg" then
    [("padding", "12px 24px"), ("font-size", "1.125rem")]
  else
    []

def buttonDeclarations (node : Node) : List Declaration :=
  buttonColors ((node.textProperty? "variant").getD "primary") ++
    buttonSize ((node.textProperty? "size").getD "md") ++
    if node.hasFlag "disabled" then
      [("opacity", "0.5"), ("cursor", "not-allowed")]
    else
      []

def badgeColors (variant : String) : String × String :=
  if variant = "secondary" then ("#f3f4f6", "#111827")
  else if variant = "outline" then ("transparent", "#111827")
  else if variant = "success" then ("#dcfce7", "#166534")
  else if variant = "warning" then ("#fef9c3", "#854d0e")
  else if variant = "destructive" then ("#fee2e2", "#991b1b")
  else ("#111827", "#ffffff")

def badgeDeclarations (node : Node) : List Declaration :=
  let colors := badgeColors ((node.textProperty? "variant").getD "default")
  [("background", colors.1), ("color", colors.2)]

def alertColors (variant : String) : String × String :=
  if variant = "success" then ("#bbf7d0", "#f0fdf4")
  else if variant = "warning" then ("#fde68a", "#fffbeb")
  else if variant = "error" then ("#fecaca", "#fef2f2")
  else ("#bfdbfe", "#eff6ff")

def alertDeclarations (node : Node) : List Declaration :=
  let colors := alertColors ((node.textProperty? "variant").getD "info")
  [("border", "1px solid " ++ colors.1), ("background", colors.2)]

def typeDeclarations (node : Node) : List Declaration :=
  match node.type with
  | .heading => headingDeclarations node
  | .grid => gridDeclarations node
  | .button => buttonDeclarations node
  | .badge => badgeDeclarations node
  | .alert => alertDeclarations node
  | _ => []

/-! ## Declarations any node may ask for -/

/-- A length: numbers are pixels, other values stand as they are. -/
def lengthText : PropertyValue → String
  | .number x => x.plainText ++ "px"
  | value => value.display

def freeDeclarations (node : Node) : List Declaration :=
  [ (node.textProperty? "color").map ("color", ·),
    (node.textProperty? "background").map ("background", ·),
    (node.textProperty? "align").map ("text-align", ·),
    (node.property? "width").map fun value => ("width", lengthText value),
    (node.property? "height").map fun value => ("height", lengthText value)
  ].filterMap id

/-- The declarations of a node, from those of its type. -/
def declarations (node : Node) (base : List Declaration) : List Declaration :=
  setDeclarations base (typeDeclarations node ++ freeDeclarations node)

def styleText (list : List Declaration) : String :=
  String.intercalate "; " (list.map fun d => d.1 ++ ": " ++ d.2)

def styleAttribute? (list : List Declaration) : Option Attribute :=
  if list.isEmpty then none else some (Attribute.text "style" (styleText list))

def emit (subject : Subject) : Element :=
  let base :=
    match subject.strategy with
    | .declarations list => list
    | _ => []
  let element := Element.semantic subject.node subject.descriptor
  { element with
    attributes :=
      (styleAttribute? (declarations subject.node base)).toList ++
        element.attributes }

/-- Icons have no inline rendering. -/
def profile : Profile :=
  (Profile.bare ProfileId.inlineStyle .html).withEmitter
    (NodeType.all.filter (· ≠ .icon)) emit

end InlineStyle

end MarkupForest
