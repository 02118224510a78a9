import MarkupForest.Number.Shortest

/-!
# Numbers as plain text

Numbers appear in attributes, styles and texts in positional notation, never
with an exponent.  Whole numbers of moderate size are written as integers, so
that the two zeros look alike; all others are written with the shortest digits
that read back.
-/

namespace MarkupForest

namespace Decimal

def zeros (count : Nat) : String :=
  String.ofList (List.replicate count '0')

/-- Positional notation: a point only when there are digits behind it. -/
def positional (d : Decimal) : String :=
  let sign := if d.negative then "-" else ""
  let digits := d.digitText
  let places := (-d.exponent).toNat
  if 0 ≤ d.exponent then
    sign ++ digits ++ zeros d.exponent.toNat
  else if places < digits.length then
    let whole := digits.length - places
    sign ++ String.ofList (digits.toList.take whole) ++ "." ++
      String.ofList (digits.toList.drop whole)
  else
    sign ++ "0." ++ zeros (places - digits.length) ++ digits

end Decimal

namespace Binary64

def shortestDecimal (tie : TieRule) (negative : Bool) (x : Magnitude) : Decimal :=
  let found := x.shortestDigits tie
  ⟨negative, found.1, found.2⟩

/-- Whole magnitudes below this bound are written as integers. -/
def integerBound : Nat := 10 ^ 15

def isPlainInteger : Binary64 → Bool
  | finite _ x => x.isWhole && decide (x.floor < integerBound)
  | _ => false

/-- Shortest digits in positional notation; a tie takes the larger digit. -/
def shortestText : Binary64 → String
  | nan => "NaN"
  | infinite negative => if negative then "-inf" else "inf"
  | finite negative x => (shortestDecimal TieRule.up negative x).positional

/-- The text of a number wherever a property or an attribute shows it. -/
def plainText (x : Binary64) : String :=
  if x.isPlainInteger then
    toString x.truncate
  else
    x.shortestText

end Binary64

end MarkupForest
