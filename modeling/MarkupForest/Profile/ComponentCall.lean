import MarkupForest.Profile.UtilityClass

/-!
# The profile `component-call`

JSX that calls a component library.  A type with a component becomes a call
with the attributes the component knows, and its module is imported.  A type
without one becomes a plain element with the class tokens of its type.
-/

namespace MarkupForest

namespace ComponentCall

/-! ## Attributes of components -/

def textAttribute? (node : Node) (name key : String) : Option Attribute :=
  (node.textProperty? key).map (Attribute.text name)

def numberAttribute? (node : Node) (key : String) : Option Attribute :=
  (node.numberProperty? key).map (Attribute.number key)

/-- A true property as an attribute; a false one is left out. -/
def flagAttribute? (node : Node) (name key : String) : Option Attribute :=
  if node.hasFlag key then some (Attribute.flag name true) else none

/-- A choice as the library names it, where one choice is the default. -/
def choice (node : Node) (key usual : String) : String :=
  match node.textProperty? key with
  | some value => if value = usual then "default" else value
  | none => "default"

def alertVariant (node : Node) : String :=
  if node.textProperty? "variant" = some "error" then "destructive"
  else "default"

def typeAttributes (node : Node) : List (Option Attribute) :=
  match node.type with
  | .button =>
      [ Attribute.text "variant" (choice node "variant" "primary"),
        Attribute.text "size" (choice node "size" "md") ]
  | .badge => [textAttribute? node "variant" "variant"]
  | .alert => [Attribute.text "variant" (alertVariant node)]
  | .input =>
      [ textAttribute? node "type" "type",
        textAttribute? node "placeholder" "placeholder" ]
  | .textarea =>
      [ textAttribute? node "placeholder" "placeholder",
        numberAttribute? node "rows" ]
  | .checkbox | .switch =>
      [ flagAttribute? node "defaultChecked" "checked",
        textAttribute? node "aria-label" "text" ]
  | .radio =>
      [ textAttribute? node "value" "text",
        flagAttribute? node "defaultChecked" "checked",
        textAttribute? node "aria-label" "text" ]
  | .avatar =>
      [textAttribute? node "src" "src", textAttribute? node "alt" "alt"]
  | .progress => [numberAttribute? node "value"]
  | .label => [textAttribute? node "for" "for"]
  | .modal => [flagAttribute? node "open" "open"]
  | .accordion =>
      [Attribute.text "type" "single", Attribute.flag "collapsible" true]
  | _ => []

def attributes (node : Node) : List Attribute :=
  (typeAttributes node ++
    [ flagAttribute? node "disabled" "disabled",
      textAttribute? node "class" "className" ]).filterMap id

/-! ## Elements and imports -/

def emit (subject : Subject) : Element :=
  match subject.strategy with
  | .component name (some module) =>
      { tag := name
        attributes := attributes subject.node
        imported := some ⟨name, module⟩ }
  | .component _ none =>
      UtilityClass.styled subject.node subject.descriptor
        (UtilityClass.baseTokens
          (subject.descriptor.strategy? ProfileId.utilityClass))
  | _ => Element.plain subject.descriptor.tag []

def importLine (entry : String × List String) : String :=
  "import \x7b " ++ String.intercalate ", " entry.2 ++ " \x7d from " ++
    Text.markupFreeLiteral entry.1 ++ ";"

def preamble : Preamble := fun imports =>
  imports.map importLine

/-- Types that the component library has nothing for. -/
def unsupported : List NodeType :=
  [.select, .slider, .table, .list, .video, .code, .blockquote, .icon]

def profile : Profile :=
  ((Profile.bare ProfileId.componentCall .jsx).withEmitter
    (NodeType.all.filter (· ∉ unsupported)) emit).withPreamble preamble

end ComponentCall

end MarkupForest
