import MarkupForest.Profile.Basic
import MarkupForest.Text.Blank

/-!
# The profile `utility-class`

HTML styled with class tokens: those of the type, those that follow from the
type and the properties of the node, one for its alignment, and those the node
carries itself.
-/

namespace MarkupForest

namespace UtilityClass

/-! ## Tokens that follow from the type -/

def headingSize : Nat → String
  | 1 => "text-4xl"
  | 2 => "text-3xl"
  | 3 => "text-2xl"
  | 4 => "text-xl"
  | 5 => "text-lg"
  | _ => "text-base"

/-- A heading without a level has that of its type's defaults. -/
def headingTokens (node : Node) (descriptor : Descriptor) : List String :=
  let level := (node.property? "level").or (descriptor.default? "level")
  match level.bind PropertyValue.number? with
  | some x => [headingSize (Element.headingLevel x)]
  | none => []

def gridTokens (node : Node) : List String :=
  match node.numberProperty? "columns" with
  | some columns => ["grid-cols-" ++ toString (max 1 columns.truncate)]
  | none => []

def listTokens (node : Node) : List String :=
  if node.hasFlag "ordered" then ["list-decimal"] else ["list-disc"]

def buttonColors (variant : String) : List String :=
  if variant = "secondary" then
    ["bg-gray-100", "text-gray-900", "hover:bg-gray-200"]
  else if variant = "outline" then
    ["border", "border-gray-300", "bg-transparent", "hover:bg-gray-50"]
  else if variant = "ghost" then
    ["bg-transparent", "hover:bg-gray-100"]
  else if variant = "destructive" then
    ["bg-red-600", "text-white", "hover:bg-red-700"]
  else
    ["bg-blue-600", "text-white", "hover:bg-blue-700"]

def buttonSize (size : String) : List String :=
  if size = "sm" then ["h-8", "px-3", "text-sm"]
  else if size = "lg" then ["h-12", "px-6", "text-lg"]
  else ["h-10", "px-4", "py-2"]

def buttonTokens (node : Node) : List String :=
  buttonColors ((node.textProperty? "variant").getD "primary") ++
    buttonSize ((node.textProperty? "size").getD "md") ++
    if node.hasFlag "disabled" then
      ["opacity-50", "cursor-not-allowed"]
    else
      []

def badgeColors (variant : String) : List String :=
  if variant = "secondary" then ["bg-gray-100", "text-gray-900"]
  else if variant = "outline" then ["border", "text-gray-900"]
  else if variant = "success" then ["bg-green-100", "text-green-800"]
  else if variant = "warning" then ["bg-yellow-100", "text-yellow-800"]
  else if variant = "destructive" then ["bg-red-100", "text-red-800"]
  else ["bg-gray-900", "text-white"]

def alertColors (variant : String) : List String :=
  if variant = "success" then
    ["border-green-200", "bg-green-50", "text-green-900"]
  else if variant = "warning" then
    ["border-yellow-200", "bg-yellow-50", "text-yellow-900"]
  else if variant = "error" then
    ["border-red-200", "bg-red-50", "text-red-900"]
  else
    ["border-blue-200", "bg-blue-50", "text-blue-900"]

def typeTokens (node : Node) (descriptor : Descriptor) : List String :=
  match node.type with
  | .heading => headingTokens node descriptor
  | .grid => gridTokens node
  | .list => listTokens node
  | .button => buttonTokens node
  | .badge => badgeColors ((node.textProperty? "variant").getD "default")
  | .alert => alertColors ((node.textProperty? "variant").getD "info")
  | _ => []

/-! ## The class list -/

/-- The tokens of a node, from those of its type. -/
def tokens (node : Node) (descriptor : Descriptor) (base : String) :
    List String :=
  Text.words base ++ typeTokens node descriptor ++
    ((node.textProperty? "align").map ("text-" ++ ·)).toList ++
    ((node.textProperty? "className").map Text.words).getD []

def classList (node : Node) (descriptor : Descriptor) (base : String) : String :=
  String.intercalate " " (tokens node descriptor base)

/-- The semantic element of a node with its class list in front. -/
def styled (node : Node) (descriptor : Descriptor) (base : String) : Element :=
  let element := Element.semantic node descriptor
  let classes := classList node descriptor base
  if classes.isEmpty then
    element
  else
    { element with
      attributes := Attribute.text "class" classes :: element.attributes }

def baseTokens : Option Strategy → String
  | some (.classes tokens) => tokens
  | _ => ""

def emit (subject : Subject) : Element :=
  styled subject.node subject.descriptor (baseTokens (some subject.strategy))

/-- The style sheet the tokens refer to. -/
def preamble : Preamble := fun _ =>
  ["<script src=\"https://cdn.tailwindcss.com\"></script>"]

/-- Videos have no class rendering. -/
def profile : Profile :=
  ((Profile.bare ProfileId.utilityClass .html).withEmitter
    (NodeType.all.filter (· ≠ .video)) emit).withPreamble preamble

end UtilityClass

end MarkupForest
