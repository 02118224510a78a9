import MarkupForest.NodeId
import MarkupForest.PropertyValue

/-!
# Nodes

A node knows its type, its properties, its parent and the identifiers of its
children in order.  A root has no parent.
-/

namespace MarkupForest

structure Node where
  id : NodeId
  type : NodeType
  properties : Properties
  parent : Option NodeId
  children : List NodeId
  deriving DecidableEq, Inhabited

namespace Node

def property? (node : Node) (key : String) : Option PropertyValue :=
  node.properties.find? key

def textProperty? (node : Node) (key : String) : Option String :=
  (node.property? key).bind PropertyValue.text?

def numberProperty? (node : Node) (key : String) : Option Binary64 :=
  (node.property? key).bind PropertyValue.number?

/-- Whether a property is the truth value true. -/
def hasFlag (node : Node) (key : String) : Bool :=
  ((node.property? key).bind PropertyValue.flag?).getD false

def text? (node : Node) : Option String :=
  node.textProperty? "text"

def hasChildren (node : Node) : Bool :=
  !node.children.isEmpty

def equal (m n : Node) : Bool :=
  decide (m.id = n.id) && decide (m.type = n.type) &&
    Properties.equal m.properties n.properties &&
    decide (m.parent = n.parent) && decide (m.children = n.children)

end Node

end MarkupForest
