import MarkupForest.Render.Line

/-!
# Layout of one node

The lines of a node that precede its children, and the line that closes it
after them.  A node without content and children is written on a single line
and needs no closing line.
-/

namespace MarkupForest

structure Layout where
  opening : List Line
  /-- The line after the children; none if the node is already closed. -/
  closing : Option Line
  deriving DecidableEq

namespace Layout

def itemsOf (node : Node) (property : String) : List String :=
  ((node.property? property).bind PropertyValue.list?).getD []

def tableOf (node : Node) (property : String) : TableData :=
  ((node.property? property).bind PropertyValue.table?).getD ⟨[], []⟩

/--
The lines between the opening tag and the children.  Items and tables show the
text of the node only when the element is the generic one, which has no other
place for it.
-/
def content (shape : ContentShape) (isGeneric : Bool) (node : Node)
    (depth : Nat) : List Line :=
  let text := node.text?.getD ""
  let lead := if isGeneric then text else ""
  match shape with
  | .wrapper => Line.ofText depth text
  | .items property tag =>
      Line.ofText depth lead ++ Line.ofItems depth tag (itemsOf node property)
  | .table property =>
      Line.ofText depth lead ++ Line.ofTable depth (tableOf node property)
  | .selfClosing => []

/--
The fragments of a node without children on a single line, if it has one: a
wrapper with its text, or an element without any content.
-/
def collapsed? (shape : ContentShape) (node : Node) (inner : List Line) :
    Option (List Fragment) :=
  if node.hasChildren then
    none
  else
    match shape with
    | .wrapper => some [.text (node.text?.getD "")]
    | _ => if inner.isEmpty then some [] else none

def ofElement (element : Element) (shape : ContentShape) (isGeneric : Bool)
    (node : Node) (depth : Nat) : Layout :=
  match shape with
  | .selfClosing =>
      ⟨[⟨depth, [.voidTag element.tag element.attributes]⟩], none⟩
  | _ =>
      let start := Fragment.openTag element.tag element.attributes
      let finish := Fragment.closeTag element.tag
      let inner := content shape isGeneric node (depth + 1)
      match collapsed? shape node inner with
      | some fragments => ⟨[⟨depth, start :: (fragments ++ [finish])⟩], none⟩
      | none => ⟨⟨depth, [start]⟩ :: inner, some ⟨depth, [finish]⟩⟩

end Layout

end MarkupForest
