/-!
# Character entities

Markup text may not contain the characters that open markup.  They are written
as named entities; inside a quoted attribute the quotation mark is one of them,
and in texts where braces open expressions the braces are written as numeric
references.
-/

namespace MarkupForest
namespace Text

def replaceChars (f : Char → List Char) (s : String) : String :=
  String.ofList (s.toList.flatMap f)

/-- The entities of text between tags. -/
def textEntity (c : Char) : List Char :=
  if c = '&' then "&amp;".toList
  else if c = '<' then "&lt;".toList
  else if c = '>' then "&gt;".toList
  else [c]

/-- The entities of a value between quotation marks. -/
def quotedEntity (c : Char) : List Char :=
  if c = '"' then "&quot;".toList else textEntity c

def braceReference (c : Char) : List Char :=
  if c = '\x7b' then "&#123;".toList
  else if c = '\x7d' then "&#125;".toList
  else [c]

def encodeText (s : String) : String := replaceChars textEntity s

def encodeQuoted (s : String) : String := replaceChars quotedEntity s

def encodeBraces (s : String) : String := replaceChars braceReference s

end Text
end MarkupForest
