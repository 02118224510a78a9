import MarkupForest.Descriptor
import MarkupForest.Forest.Node
import MarkupForest.Render.Attribute

/-!
# Elements

A profile turns a node into an element: a tag, attributes, and, if the tag is a
component, where it comes from.  The content of the element is laid out elsewhere,
the same way for all profiles.

This module has what profiles share: the tag and the attributes that follow
from the meaning of a node, and the generic element of nodes that a profile
does not cover.
-/

namespace MarkupForest

/-- A component and the module that exports it. -/
structure Import where
  name : String
  module : String
  deriving DecidableEq, Inhabited

structure Element where
  tag : String
  attributes : List Attribute
  imported : Option Import
  deriving DecidableEq, Inhabited

structure Subject where
  node : Node
  descriptor : Descriptor
  strategy : Strategy
  dialect : Dialect

abbrev Emitter := Subject → Element

namespace Element

def plain (tag : String) (attributes : List Attribute) : Element :=
  ⟨tag, attributes, none⟩

/-! ## Meaning -/

/-- A heading level: the whole part of a number, between one and six. -/
def headingLevel (x : Binary64) : Nat :=
  (max 1 (min 6 x.truncate)).toNat

/-- The tag of a node, where some properties choose another than the default. -/
def tagOf (node : Node) (descriptor : Descriptor) : String :=
  match node.type with
  | .heading =>
      match node.numberProperty? "level" with
      | some level => "h" ++ toString (headingLevel level)
      | none => descriptor.tag
  | .list => if node.hasFlag "ordered" then "ol" else descriptor.tag
  | _ => descriptor.tag

inductive AttributeSource where
  /-- The property of the same name, if it has a scalar value. -/
  | property (name : String)
  /-- The same text for every node of the type. -/
  | constant (name : String) (content : String)
  /-- A text property under another name. -/
  | textAs (name : String) (property : String)
  /-- The text of the node as an accessible label, unless it is empty. -/
  | caption
  deriving DecidableEq

def caption? (node : Node) : Option Attribute :=
  match node.text? with
  | some text =>
      if text.isEmpty then none else some (Attribute.text "aria-label" text)
  | none => none

def AttributeSource.read? (node : Node) : AttributeSource → Option Attribute
  | property name =>
      (node.property? name).bind (Attribute.ofProperty? name)
  | constant name content => some (Attribute.text name content)
  | textAs name key =>
      (node.textProperty? key).map (Attribute.text name)
  | caption => caption? node

/-- The attributes that belong to the meaning of a type. -/
def attributeSources : NodeType → List AttributeSource
  | .link => [.property "href"]
  | .image | .avatar => [.property "src", .property "alt"]
  | .video => [.property "src", .property "controls"]
  | .button => [.constant "type" "button", .property "disabled"]
  | .input => [.property "type", .property "placeholder", .property "disabled"]
  | .textarea =>
      [.property "placeholder", .property "rows", .property "disabled"]
  | .select => [.property "disabled"]
  | .checkbox => [.constant "type" "checkbox", .property "checked", .caption]
  | .switch =>
      [.constant "type" "checkbox", .constant "role" "switch",
        .property "checked", .caption]
  | .radio =>
      [.constant "type" "radio", .property "name", .property "checked", .caption]
  | .slider =>
      [.constant "type" "range", .property "min", .property "max",
        .property "step", .property "value"]
  | .progress => [.property "value", .property "max"]
  | .label => [.property "for"]
  | .alert => [.constant "role" "alert"]
  | .icon => [.constant "aria-hidden" "true", .textAs "data-icon" "name"]
  | .modal => [.property "open"]
  | _ => []

def semanticAttributes (node : Node) : List Attribute :=
  (attributeSources node.type).filterMap (AttributeSource.read? node)

def semantic (node : Node) (descriptor : Descriptor) : Element :=
  plain (tagOf node descriptor) (semanticAttributes node)

/--
The element of a node that its profile does not cover: the default tag alone.
An element that closes itself has no room for the text of the node, so it
carries the text as a label.
-/
def generic (node : Node) (descriptor : Descriptor) : Element :=
  plain descriptor.tag
    (match descriptor.shape with
      | .selfClosing => (caption? node).toList
      | _ => [])

end Element

end MarkupForest
