/-!
# Hexadecimal numerals

Numerals of a fixed width, used for bit patterns, hashes and character codes.
-/

namespace MarkupForest
namespace Text

/-- The last `width` hexadecimal digits of a number, zeros in front. -/
def hexadecimal : (width : Nat) → Nat → List Char
  | 0, _ => []
  | width + 1, n => hexadecimal width (n / 16) ++ [Nat.digitChar (n % 16)]

def hexadecimalDigit? (c : Char) : Option Nat :=
  if '0' ≤ c ∧ c ≤ '9' then some (c.toNat - 48)
  else if 'a' ≤ c ∧ c ≤ 'f' then some (c.toNat - 87)
  else if 'A' ≤ c ∧ c ≤ 'F' then some (c.toNat - 55)
  else none

def readHexadecimal? (cs : List Char) : Option Nat :=
  cs.foldlM (fun n c => (hexadecimalDigit? c).map (16 * n + ·)) 0

end Text
end MarkupForest
