import MarkupForest.Json.Basic

/-!
# JSON numbers

Numbers of double precision are written with their shortest digits.  A number
of moderate size is written positionally with at least one digit behind the
point, any other with an exponent and its sign; what is no number is `null`.

The text of a decimal follows from its parts alone, and the notation is chosen
so that the parts can be read back from it.
-/

namespace MarkupForest

namespace Decimal

/-- The sign, one digit, a point if more digits follow, and the exponent. -/
def scientific (d : Decimal) : String :=
  let sign := if d.negative then "-" else ""
  let exponent := d.pointIndex - 1
  let exponentText :=
    (if exponent < 0 then "e-" else "e+") ++ toString exponent.natAbs
  match d.digitText.toList with
  | [] => sign
  | [digit] => sign ++ String.ofList [digit] ++ exponentText
  | digit :: rest =>
      sign ++ String.ofList [digit, '.'] ++ String.ofList rest ++ exponentText

def isModerate (d : Decimal) : Bool :=
  decide (d.exponent ≤ 0) && decide (-5 < d.pointIndex) &&
    decide (d.pointIndex ≤ 16)

def jsonText (d : Decimal) : String :=
  if d.isModerate then d.positional else d.scientific

/-- Add a zero behind the point of a whole number of moderate size. -/
def withFraction (d : Decimal) : Decimal :=
  if 0 ≤ d.exponent ∧ d.pointIndex ≤ 16 then
    ⟨d.negative, d.digits * 10 ^ (d.exponent.toNat + 1), -1⟩
  else
    d

end Decimal

namespace Json

def ofNumber : Binary64 → Json
  | .finite negative x =>
      number (Binary64.shortestDecimal .even negative x).withFraction
  | _ => null

/-- A number that stays finite when rounded to double precision. -/
def number? : Json → Option Binary64
  | number d =>
      let x := Binary64.ofDecimal d
      if x.isFinite then some x else none
  | _ => none

end Json

end MarkupForest
