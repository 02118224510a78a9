import MarkupForest.PropertyValue
import MarkupForest.Render.Dialect

/-!
# Attributes

An attribute is a name with a text, a number or a truth value.  How it is
written depends on the dialect; a false attribute is left out of HTML.
-/

namespace MarkupForest

inductive AttributeValue where
  | text (content : String)
  | number (content : Binary64)
  | flag (content : Bool)
  deriving DecidableEq, Inhabited

structure Attribute where
  name : String
  value : AttributeValue
  deriving DecidableEq, Inhabited

namespace Attribute

def text (name : String) (content : String) : Attribute :=
  ⟨name, .text content⟩

def number (name : String) (content : Binary64) : Attribute :=
  ⟨name, .number content⟩

def flag (name : String) (content : Bool) : Attribute :=
  ⟨name, .flag content⟩

/-- An attribute with the value of a property; lists and tables have none. -/
def ofProperty? (name : String) : PropertyValue → Option Attribute
  | .text s => some (text name s)
  | .number x => some (number name x)
  | .flag b => some (flag name b)
  | .list _ => none
  | .table _ => none

/-- What follows the name of an attribute, if the attribute is written. -/
def valueText? : Dialect → AttributeValue → Option String
  | _, .text s => some ("=\"" ++ Text.encodeQuoted s ++ "\"")
  | .html, .number x => some ("=\"" ++ x.plainText ++ "\"")
  | .jsx, .number x => some ("=\x7b" ++ x.plainText ++ "\x7d")
  | _, .flag true => some ""
  | .html, .flag false => none
  | .jsx, .flag false => some "=\x7bfalse\x7d"

/-- The attribute as written, or nothing where it is left out. -/
def write? (dialect : Dialect) (a : Attribute) : Option String :=
  (valueText? dialect a.value).map fun value =>
    dialect.attributeName a.name ++ value

/-- A list of attributes, each with a space in front. -/
def writeAll (dialect : Dialect) (attributes : List Attribute) : String :=
  String.join ((attributes.filterMap (write? dialect)).map (" " ++ ·))

end Attribute

end MarkupForest
