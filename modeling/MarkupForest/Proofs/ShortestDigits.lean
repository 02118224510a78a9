import MarkupForest.Json.Number
import MarkupForest.Proofs.NearestMagnitudes

/-!
# Shortest digits read back

The digits of a magnitude are a point of its rounding interval, whichever grid
they are taken from and whichever way a tie goes.  The interval is the one in
which decimals round to the magnitude, so a number is read back from its digits,
and also from the digits with a zero behind the point.
-/

namespace MarkupForest

namespace RoundingInterval

variable {tie : TieRule} {interval : RoundingInterval} {n power : Nat}

theorem contains_multiplier (h : interval.multiplier? tie power = some n) :
    interval.contains (n * 10 ^ power) = true := by
  unfold multiplier? at h
  simp only at h
  split at h
  · rename_i hbelow habove
    split at h
    · cases h
      exact hbelow
    · split at h
      · cases h
        exact habove
      · cases tie with
        | up =>
            cases h
            exact habove
        | even =>
            cases h
            split
            · exact hbelow
            · exact habove
  · rename_i hbelow _
    cases h
    exact hbelow
  · rename_i _ habove
    cases h
    exact habove
  · cases h

theorem contains_coarsest (hpoint : interval.contains interval.point = true)
    (tie : TieRule) (power : Nat) :
    interval.contains ((interval.coarsest tie power).1 *
      10 ^ (interval.coarsest tie power).2) = true := by
  induction power with
  | zero =>
      unfold coarsest
      cases hfound : interval.multiplier? tie 0 with
      | none => simpa using hpoint
      | some n => exact contains_multiplier hfound
  | succ power ih =>
      unfold coarsest
      split
      · rename_i n hfound
        exact contains_multiplier hfound
      · exact ih

theorem contains_iff :
    interval.contains n = true ↔
      interval.lower ≤ n ∧ n ≤ interval.upper ∧
        (interval.closed = false → interval.lower ≠ n ∧ n ≠ interval.upper) := by
  unfold contains
  cases interval.closed with
  | true =>
      rw [if_pos rfl, Bool.and_eq_true, decide_eq_true_eq, decide_eq_true_eq]
      refine ⟨fun h => ⟨h.left, h.right, ?_⟩, fun h => ⟨h.left, h.right.left⟩⟩
      intro hopen
      cases hopen
  | false =>
      rw [if_neg (by decide), Bool.and_eq_true, decide_eq_true_eq,
        decide_eq_true_eq]
      constructor
      · intro h
        exact ⟨Nat.le_of_lt h.left, Nat.le_of_lt h.right, fun _ =>
          ⟨Nat.ne_of_lt h.left, Nat.ne_of_lt h.right⟩⟩
      · intro h
        have hends := h.right.right rfl
        exact ⟨Nat.lt_of_le_of_ne h.left hends.left,
          Nat.lt_of_le_of_ne h.right.left hends.right⟩

end RoundingInterval

namespace Magnitude

variable {x : Magnitude} {n power : Nat}

/-- Units of a magnitude in a quarter of its last place, times a power of ten. -/
def scaleOf (x : Magnitude) : Nat :=
  2 ^ (x.shift - 1076) * 5 ^ (1076 - x.shift)

theorem roundingInterval_eq (x : Magnitude) :
    x.roundingInterval =
      { lower := (4 * x.significand - x.gapBelow) * x.scaleOf
        point := 4 * x.significand * x.scaleOf
        upper := (4 * x.significand + 2) * x.scaleOf
        closed := x.significand % 2 == 0
        exponent := -((1076 - x.shift : Nat) : Int) } := rfl

theorem unitsPerOne_pos : 0 < unitsPerOne := by
  unfold unitsPerOne
  generalize 1074 = bits
  exact Nat.two_pow_pos bits

theorem two_pow_mul_ten_pow {k m bits rest : Nat} (h : k + m = 2 + bits + rest) :
    2 ^ k * 10 ^ m = 4 * (2 ^ bits * (2 ^ rest * 5 ^ m)) := by
  calc
    2 ^ k * 10 ^ m = 2 ^ k * (2 ^ m * 5 ^ m) := by rw [← Nat.mul_pow]
    _ = 2 ^ (k + m) * 5 ^ m := by rw [Nat.pow_add, Nat.mul_assoc]
    _ = 2 ^ 2 * (2 ^ bits * (2 ^ rest * 5 ^ m)) := by
      rw [h, Nat.pow_add, Nat.pow_add, Nat.mul_assoc, Nat.mul_assoc]

theorem lastPlace_eq (x : Magnitude) :
    x.lastPlace (10 ^ (1076 - x.shift)) = 4 * (unitsPerOne * x.scaleOf) :=
  two_pow_mul_ten_pow (by omega)

theorem nears_iff_bounds {denominator units scale : Nat} (hunits : 0 < units)
    (hplace : x.lastPlace denominator = 4 * (units * scale)) :
    Nears x (units * n) denominator ↔
      4 * x.significand * scale ≤ n + x.gapBelow * scale ∧
        n ≤ 4 * x.significand * scale + 2 * scale ∧
        (x.significand % 2 = 1 →
          4 * x.significand * scale ≠ n + x.gapBelow * scale ∧
            n ≠ 4 * x.significand * scale + 2 * scale) := by
  have hfour : 0 < 4 * units := Nat.mul_pos (by decide) hunits
  have hpoint : 4 * (x.significand * x.lastPlace denominator) =
      4 * units * (4 * x.significand * scale) := by
    rw [hplace]
    ac_rfl
  have hbelow : 4 * (units * n) + x.gapBelow * x.lastPlace denominator =
      4 * units * (n + x.gapBelow * scale) := by
    rw [hplace, Nat.mul_add, Nat.mul_assoc]
    congr 1
    ac_rfl
  have habove : 4 * units * (4 * x.significand * scale) +
      2 * x.lastPlace denominator =
        4 * units * (4 * x.significand * scale + 2 * scale) := by
    rw [hplace, Nat.mul_add]
    congr 1
    ac_rfl
  have hassoc : 4 * (units * n) = 4 * units * n := (Nat.mul_assoc _ _ _).symm
  constructor
  · rintro ⟨hlower, hupper, hodd⟩
    rw [hbelow, hpoint] at hlower hodd
    rw [habove, hassoc] at hodd
    rw [hpoint, habove, hassoc] at hupper
    refine ⟨Nat.le_of_mul_le_mul_left hlower hfour,
      Nat.le_of_mul_le_mul_left hupper hfour, fun hone => ?_⟩
    exact (hodd hone).imp (fun hne heq => hne (congrArg _ heq))
      fun hne heq => hne (congrArg _ heq)
  · rintro ⟨hlower, hupper, hodd⟩
    constructor
    · rw [hpoint, hbelow]
      exact Nat.mul_le_mul_left _ hlower
    · rw [hpoint, habove, hassoc]
      exact Nat.mul_le_mul_left _ hupper
    · intro hone
      rw [hbelow, hpoint, habove, hassoc]
      exact (hodd hone).imp
        (fun hne heq => hne (Nat.eq_of_mul_eq_mul_left hfour heq))
        fun hne heq => hne (Nat.eq_of_mul_eq_mul_left hfour heq)

theorem nears_iff_contains (hne : x.significand ≠ 0) :
    Nears x (unitsPerOne * n) (10 ^ (1076 - x.shift)) ↔
      x.roundingInterval.contains n = true := by
  have hgap := x.gapBelow_le
  have hlow : (4 * x.significand - x.gapBelow) * x.scaleOf +
      x.gapBelow * x.scaleOf = 4 * x.significand * x.scaleOf := by
    rw [← Nat.add_mul, Nat.sub_add_cancel (by omega)]
  have hhigh : (4 * x.significand + 2) * x.scaleOf =
      4 * x.significand * x.scaleOf + 2 * x.scaleOf := Nat.add_mul _ _ _
  have hopen : (x.significand % 2 == 0) = false ↔ x.significand % 2 = 1 := by
    rw [beq_eq_false_iff_ne]
    omega
  rw [nears_iff_bounds unitsPerOne_pos x.lastPlace_eq,
    RoundingInterval.contains_iff, roundingInterval_eq]
  simp only [hopen]
  omega

theorem contains_point (hne : x.significand ≠ 0) :
    x.roundingInterval.contains x.roundingInterval.point = true := by
  have hgap : 0 < x.gapBelow := by
    unfold gapBelow
    split <;> decide
  have hscale : 0 < x.scaleOf :=
    Nat.mul_pos (Nat.two_pow_pos _) (Nat.pow_pos (by decide))
  have hlower : (4 * x.significand - x.gapBelow) * x.scaleOf <
      4 * x.significand * x.scaleOf :=
    Nat.mul_lt_mul_of_pos_right (by omega) hscale
  have hupper : 4 * x.significand * x.scaleOf <
      (4 * x.significand + 2) * x.scaleOf :=
    Nat.mul_lt_mul_of_pos_right (by omega) hscale
  rw [roundingInterval_eq]
  unfold RoundingInterval.contains
  simp only
  split
  · rw [Bool.and_eq_true, decide_eq_true_eq, decide_eq_true_eq]
    exact ⟨Nat.le_of_lt hlower, Nat.le_of_lt hupper⟩
  · rw [Bool.and_eq_true, decide_eq_true_eq, decide_eq_true_eq]
    exact ⟨hlower, hupper⟩

theorem nearsDigits_zeros_iff (x : Magnitude) (digits zeros : Nat)
    (exponent : Int) :
    NearsDigits x (digits * 10 ^ zeros) (exponent - zeros) ↔
      NearsDigits x digits exponent := by
  have hten : forall k, 0 < 10 ^ k := fun k => Nat.pow_pos (by decide)
  unfold NearsDigits
  generalize hup : exponent.toNat = up
  generalize hdown : (-exponent).toNat = down
  generalize hupper : (exponent - zeros).toNat = upper
  generalize hlower : (-(exponent - zeros)).toNat = lower
  have hsum : down + (zeros + upper) = lower + up := by omega
  have hnumerator : 10 ^ down * (digits * 10 ^ zeros * unitsPerOne * 10 ^ upper) =
      10 ^ lower * (digits * unitsPerOne * 10 ^ up) := by
    calc
      10 ^ down * (digits * 10 ^ zeros * unitsPerOne * 10 ^ upper) =
          digits * unitsPerOne * 10 ^ (down + (zeros + upper)) := by
        rw [Nat.pow_add, Nat.pow_add]
        generalize unitsPerOne = units
        ac_rfl
      _ = 10 ^ lower * (digits * unitsPerOne * 10 ^ up) := by
        rw [hsum, Nat.pow_add, Nat.mul_left_comm]
  rw [← nears_scale_iff (hten down), hnumerator, Nat.mul_comm (10 ^ down),
    nears_scale_iff (hten lower)]

/-- The whole numbers in the rounding interval, as digits on its grid. -/
theorem nearsDigits_iff_contains (hne : x.significand ≠ 0) :
    NearsDigits x n x.roundingInterval.exponent ↔
      x.roundingInterval.contains n = true := by
  have hexponent : x.roundingInterval.exponent =
      -((1076 - x.shift : Nat) : Int) := rfl
  have hup : (-((1076 - x.shift : Nat) : Int)).toNat = 0 := by omega
  have hdown : (-(-((1076 - x.shift : Nat) : Int))).toNat = 1076 - x.shift := by
    omega
  rw [← nears_iff_contains hne, hexponent]
  unfold NearsDigits
  rw [hup, hdown, Nat.pow_zero, Nat.mul_one, Nat.mul_comm n]

theorem nearsDigits_shortestDigits (hne : x.significand ≠ 0) (tie : TieRule) :
    NearsDigits x (x.shortestDigits tie).1 (x.shortestDigits tie).2 := by
  unfold shortestDigits RoundingInterval.shortest
  rw [if_neg hne]
  simp only
  have hcontains := RoundingInterval.contains_coarsest (contains_point hne) tie
    x.roundingInterval.searchStart
  generalize (x.roundingInterval.coarsest tie
    x.roundingInterval.searchStart).1 = digits at hcontains ⊢
  generalize (x.roundingInterval.coarsest tie
    x.roundingInterval.searchStart).2 = power at hcontains ⊢
  rw [← nearsDigits_zeros_iff x digits power, Int.add_sub_cancel]
  exact (nearsDigits_iff_contains hne).mpr hcontains

theorem NearsDigits.withFraction {digits : Nat} {exponent : Int}
    (h : NearsDigits x digits exponent) (hwhole : 0 ≤ exponent) :
    NearsDigits x (digits * 10 ^ (exponent.toNat + 1)) (-1) := by
  have hzeros := (nearsDigits_zeros_iff x digits (exponent.toNat + 1) exponent).mpr h
  have hexponent : exponent - ((exponent.toNat + 1 : Nat) : Int) = -1 := by omega
  rw [hexponent] at hzeros
  exact hzeros

theorem eq_zero_of_significand (h : x.significand = 0) : x = Magnitude.zero := by
  have hshift : x.shift = 0 := x.normalized.resolve_right (by rw [h]; decide)
  cases x
  cases h
  cases hshift
  rfl

end Magnitude

namespace Binary64

variable {x : Magnitude}

theorem ofDecimal_of_nears {d : Decimal} (hne : x.significand ≠ 0)
    (h : x.NearsDigits d.digits d.exponent) :
    ofDecimal d = finite d.negative x := by
  unfold ofDecimal
  rw [h.ofDigits?_eq hne]

theorem ofDecimal_of_zero {d : Decimal} (h : d.digits = 0) :
    ofDecimal d = finite d.negative Magnitude.zero := by
  unfold ofDecimal Magnitude.ofDigits?
  rw [if_pos h]

/-- A number is read back from its shortest digits, the sign of zero included. -/
theorem ofDecimal_shortestDecimal (tie : TieRule) (negative : Bool)
    (x : Magnitude) :
    ofDecimal (shortestDecimal tie negative x) = finite negative x := by
  by_cases hzero : x.significand = 0
  · rw [x.eq_zero_of_significand hzero]
    exact ofDecimal_of_zero rfl
  · exact ofDecimal_of_nears hzero
      (Magnitude.nearsDigits_shortestDigits hzero tie)

theorem ofDecimal_withFraction (tie : TieRule) (negative : Bool) (x : Magnitude) :
    ofDecimal (shortestDecimal tie negative x).withFraction = finite negative x := by
  unfold Decimal.withFraction
  split
  · rename_i hwhole
    by_cases hzero : x.significand = 0
    · rw [x.eq_zero_of_significand hzero]
      refine ofDecimal_of_zero ?_
      exact Nat.zero_mul _
    · exact ofDecimal_of_nears hzero
        ((Magnitude.nearsDigits_shortestDigits hzero tie).withFraction hwhole.left)
  · exact ofDecimal_shortestDecimal tie negative x

end Binary64

theorem Json.number?_ofNumber {x : Binary64} (h : x.isFinite = true) :
    (Json.ofNumber x).number? = some x := by
  cases x with
  | nan => cases h
  | infinite negative => cases h
  | finite negative magnitude =>
      unfold Json.ofNumber Json.number?
      simp only [Binary64.ofDecimal_withFraction]
      rfl

end MarkupForest
