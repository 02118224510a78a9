import MarkupForest.Text.Entity

/-!
# String literals

A text is written between quotation marks with backslash escapes for the
quotation mark, the backslash and the control characters below `U+0020`; every
other character stands for itself.  Literals inside markup additionally write
angle brackets as escapes, so that they cannot open markup.
-/

namespace MarkupForest
namespace Text

def escapeChar (c : Char) : List Char :=
  if c = '"' then ['\\', '"']
  else if c = '\\' then ['\\', '\\']
  else if c = '\x08' then ['\\', 'b']
  else if c = '\t' then ['\\', 't']
  else if c = '\n' then ['\\', 'n']
  else if c = '\x0c' then ['\\', 'f']
  else if c = '\r' then ['\\', 'r']
  else if c.toNat < 0x20 then
    ['\\', 'u', '0', '0', Nat.digitChar (c.toNat / 16),
      Nat.digitChar (c.toNat % 16)]
  else [c]

def literal (s : String) : String :=
  "\"" ++ replaceChars escapeChar s ++ "\""

def escapeBracket (c : Char) : List Char :=
  if c = '<' then "\\u003c".toList
  else if c = '>' then "\\u003e".toList
  else [c]

/-- The text as a string literal that contains no angle bracket. -/
def markupFreeLiteral (s : String) : String :=
  replaceChars escapeBracket (literal s)

end Text
end MarkupForest
