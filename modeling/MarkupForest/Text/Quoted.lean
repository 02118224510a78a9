import MarkupForest.Text.Visible

/-!
# Quoted text for diagnostics

A text between quotation marks as diagnostics show it: with letters for the
usual controls, and with its code point for every character that is not
visible.
-/

namespace MarkupForest
namespace Text

/-- A character by its code point. -/
def codePoint (c : Char) : List Char :=
  ['\\', 'u', '\x7b'] ++ Nat.toDigits 16 c.toNat ++ ['\x7d']

def escapeQuoted (c : Char) : List Char :=
  if c = '"' then ['\\', '"']
  else if c = '\\' then ['\\', '\\']
  else if c = '\t' then ['\\', 't']
  else if c = '\n' then ['\\', 'n']
  else if c = '\r' then ['\\', 'r']
  else if c = '\x00' then ['\\', '0']
  else if isVisible c then [c]
  else codePoint c

def quoted (s : String) : String :=
  "\"" ++ String.ofList (s.toList.flatMap escapeQuoted) ++ "\""

end Text
end MarkupForest
