/-!
# Double precision numbers

A finite number of the 64-bit format is a sign and a magnitude, and every
magnitude is a whole number of units of `2 ^ (-1074)`: a significand below
`2 ^ 53`, shifted left.  Only the shifted significands that need it are
written with a shift, so each magnitude has one representation and equality of
representations is equality of values.

Nothing here computes with machine floats.  Comparison, truncation and the bit
layout are arithmetic on natural numbers.
-/

namespace MarkupForest

/-- Powers are those of the core library, whatever else a proof imports. -/
@[default_instance 20000]
instance (priority := 2000) corePow {α : Type} [NatPow α] : Pow α Nat :=
  instPowNat

/-- A finite magnitude: `significand * 2 ^ shift` units of `2 ^ (-1074)`. -/
structure Magnitude where
  significand : Nat
  shift : Nat
  significand_lt : significand < 2 ^ 53
  shift_le : shift ≤ 2045
  normalized : shift = 0 ∨ 2 ^ 52 ≤ significand
  deriving DecidableEq

namespace Magnitude

def ofParts? (significand shift : Nat) : Option Magnitude :=
  if h : significand < 2 ^ 53 ∧ shift ≤ 2045 ∧
      (shift = 0 ∨ 2 ^ 52 ≤ significand) then
    some ⟨significand, shift, h.1, h.2.1, h.2.2⟩
  else
    none

protected def zero : Magnitude :=
  ⟨0, 0, by decide, by decide, Or.inl rfl⟩

/-- The magnitude in units of `2 ^ (-1074)`. -/
def units (x : Magnitude) : Nat :=
  x.significand * 2 ^ x.shift

/-- Units in the number one. -/
def unitsPerOne : Nat := 2 ^ 1074

def floor (x : Magnitude) : Nat :=
  x.units / unitsPerOne

def isWhole (x : Magnitude) : Bool :=
  x.units % unitsPerOne == 0

end Magnitude

/-- A number of the 64-bit format.  All not-a-number patterns are one value. -/
inductive Binary64 where
  | nan
  | infinite (negative : Bool)
  | finite (negative : Bool) (magnitude : Magnitude)
  deriving DecidableEq

namespace Binary64

protected def zero : Binary64 := finite false Magnitude.zero

instance : Inhabited Binary64 := ⟨Binary64.zero⟩

/--
Numeric equality: not-a-number differs from everything, itself included, and
the two zeros are equal.
-/
def equal : Binary64 → Binary64 → Bool
  | nan, _ => false
  | _, nan => false
  | infinite s, infinite t => s == t
  | finite s x, finite t y =>
      if x.significand = 0 then
        y.significand == 0
      else
        s == t && decide (x = y)
  | _, _ => false

def isFinite : Binary64 → Bool
  | finite _ _ => true
  | _ => false

/-! ## Truncation -/

def wordMax : Int := 2 ^ 63 - 1

def wordMin : Int := -2 ^ 63

/--
The number rounded toward zero as a signed 64-bit integer.  Values out of range
go to the nearer bound, and not-a-number goes to zero.
-/
def truncate : Binary64 → Int
  | nan => 0
  | infinite negative => if negative then wordMin else wordMax
  | finite negative x =>
      if negative then
        max wordMin (-(x.floor : Int))
      else
        min wordMax (x.floor : Int)

/-! ## Bit patterns -/

private def signBit (negative : Bool) : Nat :=
  if negative then 2 ^ 63 else 0

/--
The 64-bit pattern.  Adding the shift above the fraction field is right for
small and normal magnitudes alike: the leading significand bit of a normal
magnitude carries into the exponent field.
-/
def toBits : Binary64 → Nat
  | nan => 0x7ff8000000000000
  | infinite negative => signBit negative + 0x7ff0000000000000
  | finite negative x =>
      signBit negative + (x.shift * 2 ^ 52 + x.significand)

private theorem normal_parts {exponent fraction : Nat}
    (hexponent : exponent < 2047) (hfraction : fraction < 2 ^ 52) :
    2 ^ 52 + fraction < 2 ^ 53 ∧ exponent - 1 ≤ 2045 ∧
      2 ^ 52 ≤ 2 ^ 52 + fraction := by
  omega

/-- The number with this 64-bit pattern; higher bits are ignored. -/
def ofBits (word : Nat) : Binary64 :=
  let negative := word / 2 ^ 63 % 2 == 1
  let exponent := word / 2 ^ 52 % 2 ^ 11
  let fraction := word % 2 ^ 52
  have hfraction : fraction < 2 ^ 52 := Nat.mod_lt _ (by decide)
  if exponent = 0 then
    finite negative
      ⟨fraction, 0, by omega, by decide, Or.inl rfl⟩
  else if hexponent : exponent < 2047 then
    have h := normal_parts hexponent hfraction
    finite negative
      ⟨2 ^ 52 + fraction, exponent - 1, h.1, h.2.1, Or.inr h.2.2⟩
  else if fraction = 0 then
    infinite negative
  else
    nan

end Binary64

end MarkupForest
