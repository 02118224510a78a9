import MarkupForest.Number.Decimal

/-!
# Shortest decimals

The real numbers that round to a given magnitude form an interval around it.
The shortest decimal of the magnitude is taken from the coarsest decimal grid
that meets the interval, and is the point of that grid nearest to the
magnitude.  Two grid points may be equally near; the caller says which one is
taken then.

To stay in natural numbers, the interval is measured in quarters of the last
place and scaled by a power of two or of five until all three of its points are
whole multiples of a power of ten.
-/

namespace MarkupForest

/-- Which of two equally near grid points is taken. -/
inductive TieRule where
  | up
  | even
  deriving DecidableEq

/--
An interval of reals around a point, in units of `10 ^ exponent`.  The ends
belong to it when it is closed.
-/
structure RoundingInterval where
  lower : Nat
  point : Nat
  upper : Nat
  closed : Bool
  exponent : Int

namespace RoundingInterval

def contains (interval : RoundingInterval) (n : Nat) : Bool :=
  if interval.closed then
    decide (interval.lower ≤ n) && decide (n ≤ interval.upper)
  else
    decide (interval.lower < n) && decide (n < interval.upper)

/--
Of the two multiples of `10 ^ power` around the point, the one inside the
interval, or the nearer when both are; the answer is the multiplier.
-/
def multiplier? (tie : TieRule) (interval : RoundingInterval) (power : Nat) :
    Option Nat :=
  let step := 10 ^ power
  let below := interval.point / step
  let above := below + 1
  match interval.contains (below * step), interval.contains (above * step) with
  | true, true =>
      let down := interval.point - below * step
      let rise := above * step - interval.point
      if down < rise then
        some below
      else if rise < down then
        some above
      else
        match tie with
        | TieRule.up => some above
        | TieRule.even => some (if below % 2 = 0 then below else above)
  | true, false => some below
  | false, true => some above
  | false, false => none

/--
The coarsest grid with a multiple in the interval, searched from `10 ^ power`
downward.  The point itself lies on the finest grid.
-/
def coarsest (tie : TieRule) (interval : RoundingInterval) : Nat → Nat × Nat
  | 0 => ((interval.multiplier? tie 0).getD interval.point, 0)
  | power + 1 =>
      match interval.multiplier? tie (power + 1) with
      | some n => (n, power + 1)
      | none => interval.coarsest tie power

/-- A power of ten above the upper end, from which the search starts. -/
def searchStart (interval : RoundingInterval) : Nat :=
  interval.upper.log2 / 3 + 1

/-- The shortest decimal inside the interval, as digits and a power of ten. -/
def shortest (tie : TieRule) (interval : RoundingInterval) : Nat × Int :=
  let found := interval.coarsest tie interval.searchStart
  (found.1, interval.exponent + found.2)

end RoundingInterval

namespace Magnitude

/--
The reals that round to this magnitude.  A quarter of the last place is
`2 ^ (shift - 1076)`; the neighbour below a power of two is half as far away,
and the ends round here exactly when the significand is even.
-/
def roundingInterval (x : Magnitude) : RoundingInterval :=
  let quarters := 4 * x.significand
  let gap := if 0 < x.shift ∧ x.significand = 2 ^ 52 then 1 else 2
  let scale := 2 ^ (x.shift - 1076) * 5 ^ (1076 - x.shift)
  { lower := (quarters - gap) * scale
    point := quarters * scale
    upper := (quarters + 2) * scale
    closed := x.significand % 2 == 0
    exponent := -((1076 - x.shift : Nat) : Int) }

/-- The shortest decimal that rounds to this magnitude; zero is a single zero. -/
def shortestDigits (tie : TieRule) (x : Magnitude) : Nat × Int :=
  if x.significand = 0 then
    (0, 0)
  else
    x.roundingInterval.shortest tie

end Magnitude

end MarkupForest
