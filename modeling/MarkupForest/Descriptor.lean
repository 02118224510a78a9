import MarkupForest.NodeType
import MarkupForest.PropertyValue

/-!
# Node type descriptors

A descriptor says how nodes of one type behave: the label shown in editors,
whether nodes of the type own children, the default tag, the shape of the
content, the properties a new node starts with, and the data that each render
profile uses for the type.
-/

namespace MarkupForest

/-- The rule by which the content of an element is laid out. -/
inductive ContentShape where
  /-- The text of the node, then its children. -/
  | wrapper
  /-- One element per text of a list property, then the children. -/
  | items (property : String) (itemTag : String)
  /-- Header and body rows of a table property, then the children. -/
  | table (property : String)
  /-- No content at all; children are not rendered. -/
  | selfClosing
  deriving DecidableEq, Inhabited

/-- A style declaration: a property name and its value. -/
abbrev Declaration := String × String

/-- What a descriptor gives to a render profile. -/
inductive Strategy where
  /-- Style declarations, in output order. -/
  | declarations (list : List Declaration)
  | classes (tokens : String)
  /-- A library component, or an element of that name without a module. -/
  | component (name : String) (module? : Option String)
  | semantic
  deriving DecidableEq, Inhabited

/-! ## Profiles that are always available -/

namespace ProfileId

def inlineStyle : String := "inline-style"
def utilityClass : String := "utility-class"
def componentCall : String := "component-call"
def semantic : String := "semantic"

end ProfileId

structure Descriptor where
  type : NodeType
  label : String
  isContainer : Bool
  tag : String
  shape : ContentShape
  defaults : Properties
  strategies : OrderedMap String Strategy

namespace Descriptor

/-- A leaf type with this tag that wraps its text, and nothing else. -/
def basic (type : NodeType) (tag : String) : Descriptor where
  type := type
  label := type.title
  isContainer := false
  tag := tag
  shape := .wrapper
  defaults := ∅
  strategies := ∅

instance : Inhabited Descriptor := ⟨basic default ""⟩

def withLabel (d : Descriptor) (label : String) : Descriptor :=
  { d with label }

/-- Let nodes of the type own children. -/
def asContainer (d : Descriptor) : Descriptor :=
  { d with isContainer := true }

def withShape (d : Descriptor) (shape : ContentShape) : Descriptor :=
  { d with shape }

def withDefault (d : Descriptor) (key : String) (value : PropertyValue) :
    Descriptor :=
  { d with defaults := d.defaults.insert key value }

/-- Set the strategy for a profile, replacing an earlier one. -/
def withStrategy (d : Descriptor) (profile : String) (strategy : Strategy) :
    Descriptor :=
  { d with strategies := d.strategies.insert profile strategy }

def withStyle (d : Descriptor) (declarations : List Declaration) : Descriptor :=
  d.withStrategy ProfileId.inlineStyle (.declarations declarations)

def withClasses (d : Descriptor) (tokens : String) : Descriptor :=
  d.withStrategy ProfileId.utilityClass (.classes tokens)

def withComponent (d : Descriptor) (name : String) (module : String) :
    Descriptor :=
  d.withStrategy ProfileId.componentCall (.component name (some module))

def withElement (d : Descriptor) (name : String) : Descriptor :=
  d.withStrategy ProfileId.componentCall (.component name none)

def withSemantics (d : Descriptor) : Descriptor :=
  d.withStrategy ProfileId.semantic .semantic

def strategy? (d : Descriptor) (profile : String) : Option Strategy :=
  d.strategies.find? profile

def default? (d : Descriptor) (key : String) : Option PropertyValue :=
  d.defaults.find? key

end Descriptor

end MarkupForest
