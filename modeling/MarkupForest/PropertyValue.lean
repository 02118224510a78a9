import MarkupForest.Number.PlainText
import MarkupForest.OrderedMap

/-!
# Property values

A node carries named properties.  A value is a text, a number, a truth value, a
list of texts, or a table of texts.  The order of the names is the order in
which they were first set; it shows in listings but does not matter for
equality.
-/

namespace MarkupForest

/-- Rows of cells under a row of headers. -/
structure TableData where
  headers : List String
  rows : List (List String)
  deriving DecidableEq, Inhabited

inductive PropertyValue where
  | text (content : String)
  | number (content : Binary64)
  | flag (content : Bool)
  | list (items : List String)
  | table (content : TableData)
  deriving DecidableEq

instance : Inhabited PropertyValue := ⟨PropertyValue.text ""⟩

abbrev Properties := OrderedMap String PropertyValue

namespace PropertyValue

def text? : PropertyValue → Option String
  | text s => some s
  | _ => none

def number? : PropertyValue → Option Binary64
  | number x => some x
  | _ => none

def flag? : PropertyValue → Option Bool
  | flag b => some b
  | _ => none

def list? : PropertyValue → Option (List String)
  | list items => some items
  | _ => none

def table? : PropertyValue → Option TableData
  | table data => some data
  | _ => none

def kind : PropertyValue → String
  | text _ => "text"
  | number _ => "number"
  | flag _ => "bool"
  | list _ => "string-list"
  | table _ => "table"

/-- The value on one line: lists are joined, a table shows its headers. -/
def display : PropertyValue → String
  | text s => s
  | number x => x.plainText
  | flag b => if b then "true" else "false"
  | list items => String.intercalate ", " items
  | table data => String.intercalate ", " data.headers

/-- Equality of values, where numbers are compared numerically. -/
def equal : PropertyValue → PropertyValue → Bool
  | number x, number y => x.equal y
  | v, w => decide (v = w)

end PropertyValue

namespace Properties

/-- Equality of property maps; the order of the names does not matter. -/
def equal (p q : Properties) : Bool :=
  OrderedMap.equalBy PropertyValue.equal p q

end Properties

end MarkupForest
