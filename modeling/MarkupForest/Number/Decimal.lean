import MarkupForest.Number.Binary64

/-!
# Decimal numbers

A decimal is a sign, a natural number of digits and a power of ten.  This
module rounds decimals to double precision: to the nearest number, to the one
with the even significand when two are equally near.
-/

namespace MarkupForest

/-- The number `± digits * 10 ^ exponent`. -/
structure Decimal where
  negative : Bool
  digits : Nat
  exponent : Int
  deriving DecidableEq, Inhabited

namespace Decimal

def ofNat (n : Nat) : Decimal := ⟨false, n, 0⟩

def digitText (d : Decimal) : String := toString d.digits

/--
How many digits stand before the decimal point when the number is written
positionally; zero or negative when the number is below one tenth.
-/
def pointIndex (d : Decimal) : Int :=
  (d.digitText.length : Int) + d.exponent

end Decimal

/-- The quotient rounded to the nearest natural number, a half to the even one. -/
def roundQuotient (numerator denominator : Nat) : Nat :=
  let quotient := numerator / denominator
  let twice := 2 * (numerator % denominator)
  if twice < denominator ∨ twice = denominator ∧ quotient % 2 = 0 then
    quotient
  else
    quotient + 1

namespace Magnitude

/--
The magnitude nearest to `numerator / denominator` units, or none beyond the
largest one.  The shift leaves a significand of 53 bits when the quotient has
more; rounding such a significand may carry into one more bit.
-/
def nearest? (numerator denominator : Nat) : Option Magnitude :=
  let shift := (numerator / denominator).log2 - 52
  let significand := roundQuotient numerator (denominator * 2 ^ shift)
  if significand < 2 ^ 53 then
    ofParts? significand shift
  else
    ofParts? (significand / 2) (shift + 1)

/--
The magnitude nearest to `digits * 10 ^ exponent`.  The two early answers keep
the arithmetic small: above `10 ^ 400` nothing is finite, and below
`10 ^ (-400)` everything rounds to zero.
-/
def ofDigits? (digits : Nat) (exponent : Int) : Option Magnitude :=
  if digits = 0 then
    some Magnitude.zero
  else if 400 < exponent then
    none
  else if exponent + digits.log2 + 1 < -400 then
    some Magnitude.zero
  else
    nearest? (digits * unitsPerOne * 10 ^ exponent.toNat)
      (10 ^ (-exponent).toNat)

end Magnitude

namespace Binary64

/-- The nearest number; a decimal beyond the finite range gives infinity. -/
def ofDecimal (d : Decimal) : Binary64 :=
  match Magnitude.ofDigits? d.digits d.exponent with
  | some magnitude => finite d.negative magnitude
  | none => infinite d.negative

def ofNat (n : Nat) : Binary64 := ofDecimal (Decimal.ofNat n)

end Binary64

end MarkupForest
