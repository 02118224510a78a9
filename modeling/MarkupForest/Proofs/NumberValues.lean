import Mathlib.Algebra.Order.Field.Power
import Mathlib.Algebra.Order.Field.Rat
import Mathlib.Tactic.FieldSimp
import Mathlib.Tactic.Linarith
import Mathlib.Tactic.Positivity
import MarkupForest.Proofs.FewestDigits

/-!
# Exact values

Numbers and decimals have exact values, and the number to which a decimal is
rounded is nearest to it: no finite number is nearer, and one that is as near has
to give way to an even significand.
-/

namespace MarkupForest

/-- A value with a sign in front. -/
def signed (negative : Bool) (value : ℚ) : ℚ :=
  if negative then -value else value

theorem abs_signed_sub (negative : Bool) (v w : ℚ) :
    |signed negative v - signed negative w| = |v - w| := by
  cases negative with
  | false => rfl
  | true =>
      show |-v - -w| = |v - w|
      rw [neg_sub_neg, abs_sub_comm]

theorem abs_signed_sub_not (negative : Bool) {v w : ℚ} (hv : 0 ≤ v)
    (hw : 0 ≤ w) : |signed negative v - signed (!negative) w| = v + w := by
  cases negative with
  | false =>
      show |v - -w| = v + w
      rw [sub_neg_eq_add, abs_of_nonneg (add_nonneg hv hw)]
  | true =>
      show |-v - w| = v + w
      rw [← neg_add', abs_neg, abs_of_nonneg (add_nonneg hv hw)]

theorem abs_sub_lt_of_midpoint_lt {v low high : ℚ} (hlt : low < high)
    (h : low + high < 2 * v) : |v - high| < |v - low| := by
  rw [abs_of_pos (by linarith : 0 < v - low), abs_lt]
  constructor <;> linarith

theorem abs_sub_lt_of_lt_midpoint {v low high : ℚ} (hlt : low < high)
    (h : 2 * v < low + high) : |v - low| < |v - high| := by
  rw [abs_of_neg (by linarith : v - high < 0), abs_lt]
  constructor <;> linarith

theorem abs_sub_eq_of_midpoint {v low high : ℚ} (h : 2 * v = low + high) :
    |v - low| = |v - high| := by
  have hmirror : v - low = -(v - high) := by linarith
  rw [hmirror, abs_neg]

namespace Decimal

/-- The exact value of a decimal. -/
def value (d : Decimal) : ℚ :=
  signed d.negative (d.digits * 10 ^ d.exponent)

end Decimal

namespace Magnitude

/-- The exact value of a magnitude. -/
def value (x : Magnitude) : ℚ :=
  x.units / unitsPerOne

variable {x y : Magnitude} {numerator denominator : Nat}

/-!
# Neighbours
-/

theorem units_lt (x : Magnitude) : x.units < 2 ^ (53 + x.shift) := by
  unfold units
  rw [Nat.pow_add]
  exact Nat.mul_lt_mul_of_pos_right x.significand_lt (Nat.two_pow_pos _)

theorem le_units (x : Magnitude) (hshift : x.shift ≠ 0) :
    2 ^ (52 + x.shift) ≤ x.units := by
  unfold units
  rw [Nat.pow_add]
  exact Nat.mul_le_mul_right _ (x.normalized.resolve_left hshift)

theorem add_le_of_dvd {a b step : Nat} (ha : step ∣ a) (hb : step ∣ b)
    (hlt : a < b) : a + step ≤ b := by
  rcases ha with ⟨m, rfl⟩
  rcases hb with ⟨n, rfl⟩
  have hlt' := Nat.lt_of_mul_lt_mul_left hlt
  rw [← Nat.mul_succ]
  exact Nat.mul_le_mul_left step hlt'

theorem two_pow_dvd_units {shift : Nat} (hle : shift ≤ x.shift) :
    2 ^ shift ∣ x.units :=
  Nat.dvd_trans (Nat.pow_dvd_pow 2 hle) (Nat.dvd_mul_left _ _)

theorem units_add_le (h : x.units < y.units) :
    x.units + 2 ^ x.shift ≤ y.units := by
  have hshift : x.shift ≤ y.shift := by
    apply Nat.le_of_not_lt
    intro hlt
    have hlow := x.le_units (by omega)
    have hhigh := y.units_lt
    have hpow : 2 ^ (53 + y.shift) ≤ 2 ^ (52 + x.shift) :=
      Nat.pow_le_pow_right (by decide) (by omega)
    omega
  exact add_le_of_dvd (two_pow_dvd_units (Nat.le_refl _))
    (two_pow_dvd_units hshift) h

theorem units_add_gap_le (h : y.units < x.units) :
    2 * y.units + x.gapBelow * 2 ^ x.shift ≤ 2 * x.units := by
  by_cases hshift : x.shift ≤ y.shift
  · have hle := add_le_of_dvd (two_pow_dvd_units hshift)
      (two_pow_dvd_units (Nat.le_refl _)) h
    have hgap := Nat.mul_le_mul_right (2 ^ x.shift) x.gapBelow_le
    omega
  · obtain ⟨shift, hsucc⟩ : exists shift, x.shift = shift + 1 :=
      Nat.exists_eq_succ_of_ne_zero (by omega)
    have hlow := x.normalized.resolve_left (by omega)
    -- everything below is at most the largest magnitude of the next smaller shift
    have hlargest : y.units ≤ (2 ^ 53 - 1) * 2 ^ shift :=
      Nat.mul_le_mul (Nat.le_sub_one_of_lt y.significand_lt)
        (Nat.pow_le_pow_right (by decide) (by omega))
    have hdouble : 2 ^ x.shift = 2 ^ shift * 2 := by rw [hsucc, Nat.pow_succ]
    have hunits : x.units = x.significand * (2 ^ shift * 2) := by
      rw [units, hdouble]
    rw [hunits, hdouble]
    unfold gapBelow
    generalize 2 ^ shift = step at hlargest ⊢
    split
    · rename_i hpower
      rw [hpower.right]
      omega
    · rename_i hpower
      have hnext : 2 ^ 52 + 1 ≤ x.significand := by omega
      have hmul := Nat.mul_le_mul_right (step * 2) hnext
      omega

/-!
# Halfway points
-/

theorem Nears.midpoint_le (h : Nears x numerator denominator)
    (hlt : y.units < x.units) :
    (y.units + x.units) * denominator ≤ 2 * numerator ∧
      (x.significand % 2 = 1 →
        (y.units + x.units) * denominator ≠ 2 * numerator) := by
  have hlower := h.lower
  have hodd := h.odd
  have hgap := Nat.mul_le_mul_right denominator (units_add_gap_le hlt)
  have hpoint : x.significand * x.lastPlace denominator = x.units * denominator :=
    (Nat.mul_assoc _ _ _).symm
  rw [Nat.add_mul, Nat.mul_assoc 2, Nat.mul_assoc 2, Nat.mul_assoc x.gapBelow]
    at hgap
  rw [hpoint] at hlower hodd
  change _ + x.gapBelow * x.lastPlace denominator ≤ _ at hgap
  rw [Nat.add_mul]
  exact ⟨by omega, fun hone => by have hends := (hodd hone).left; omega⟩

theorem Nears.le_midpoint (h : Nears x numerator denominator)
    (hlt : x.units < y.units) :
    2 * numerator ≤ (x.units + y.units) * denominator ∧
      (x.significand % 2 = 1 →
        2 * numerator ≠ (x.units + y.units) * denominator) := by
  have hupper := h.upper
  have hodd := h.odd
  have hgap := Nat.mul_le_mul_right denominator (units_add_le hlt)
  have hpoint : x.significand * x.lastPlace denominator = x.units * denominator :=
    (Nat.mul_assoc _ _ _).symm
  rw [Nat.add_mul] at hgap
  rw [hpoint] at hupper hodd
  change _ + x.lastPlace denominator ≤ _ at hgap
  rw [Nat.add_mul]
  exact ⟨by omega, fun hone => by have hends := (hodd hone).right; omega⟩

/-!
# The nearest value
-/

theorem value_nonneg (x : Magnitude) : 0 ≤ x.value :=
  div_nonneg (Nat.cast_nonneg _) (Nat.cast_nonneg _)

theorem units_zero : Magnitude.zero.units = 0 := Nat.zero_mul _

theorem value_zero : Magnitude.zero.value = 0 := by
  rw [Magnitude.value, units_zero, Nat.cast_zero, zero_div]

theorem units_ne_zero (hne : x.significand ≠ 0) : x.units ≠ 0 :=
  Nat.mul_ne_zero hne (Nat.ne_of_gt (Nat.two_pow_pos x.shift))

theorem ten_zpow_eq (exponent : Int) :
    (10 : ℚ) ^ exponent =
      ((10 ^ exponent.toNat : Nat) : ℚ) / ((10 ^ (-exponent).toNat : Nat) : ℚ) := by
  rcases Int.le_total 0 exponent with hle | hle
  · lift exponent to ℕ using hle
    simp
  · obtain ⟨n, rfl⟩ := Int.exists_eq_neg_ofNat hle
    simp

variable {digits : Nat} {exponent : Int}

/-- A decimal compared with the point halfway between two magnitudes, as
quotients and as whole numbers. -/
theorem midpoint_compare (low high : Magnitude) (digits : Nat) (exponent : Int) :
    (low.value + high.value < 2 * (digits * 10 ^ exponent) ↔
        (low.units + high.units) * 10 ^ (-exponent).toNat <
          2 * (digits * unitsPerOne * 10 ^ exponent.toNat)) ∧
      (2 * (digits * 10 ^ exponent) < low.value + high.value ↔
        2 * (digits * unitsPerOne * 10 ^ exponent.toNat) <
          (low.units + high.units) * 10 ^ (-exponent).toNat) := by
  have hunits : (0 : ℚ) < unitsPerOne := Nat.cast_pos.mpr unitsPerOne_pos
  have hten : (0 : ℚ) < (10 ^ (-exponent).toNat : Nat) :=
    Nat.cast_pos.mpr (Nat.pow_pos (by decide))
  have hdecimal : 2 * (digits * 10 ^ exponent : ℚ) =
      ((2 * (digits * unitsPerOne * 10 ^ exponent.toNat) : Nat) : ℚ) /
        (unitsPerOne * (10 ^ (-exponent).toNat : Nat)) := by
    rw [ten_zpow_eq]
    simp only [Nat.cast_mul]
    generalize ((10 ^ (-exponent).toNat : Nat) : ℚ) = below at hten ⊢
    push_cast
    field_simp
  have hmidpoint : low.value + high.value =
      (((low.units + high.units) * 10 ^ (-exponent).toNat : Nat) : ℚ) /
        (unitsPerOne * (10 ^ (-exponent).toNat : Nat)) := by
    rw [value, value, ← add_div, ← Nat.cast_add, Nat.cast_mul,
      mul_div_mul_right _ _ (ne_of_gt hten)]
  have hscale := mul_pos hunits hten
  rw [hdecimal, hmidpoint, div_lt_div_iff_of_pos_right hscale,
    div_lt_div_iff_of_pos_right hscale, Nat.cast_lt, Nat.cast_lt]
  exact ⟨Iff.rfl, Iff.rfl⟩

theorem value_lt_iff : x.value < y.value ↔ x.units < y.units := by
  unfold value
  rw [div_lt_div_iff_of_pos_right (Nat.cast_pos.mpr unitsPerOne_pos), Nat.cast_lt]

theorem NearsDigits.closer_or_tie (h : NearsDigits x digits exponent)
    (hne : y.units ≠ x.units) :
    |digits * 10 ^ exponent - x.value| < |digits * 10 ^ exponent - y.value| ∨
      |digits * 10 ^ exponent - x.value| = |digits * 10 ^ exponent - y.value| ∧
        x.significand % 2 = 0 := by
  have hparity := Nat.mod_two_eq_zero_or_one x.significand
  rcases Nat.lt_or_gt_of_ne hne with hlt | hlt
  · rcases Nears.midpoint_le h hlt with ⟨hle, hodd⟩
    rcases midpoint_compare y x digits exponent with ⟨hbelow, habove⟩
    rcases Nat.eq_or_lt_of_le hle with heq | hfar
    · right
      have htie : 2 * (digits * 10 ^ exponent : ℚ) = y.value + x.value :=
        le_antisymm (not_lt.mp (mt hbelow.mp (by omega)))
          (not_lt.mp (mt habove.mp (by omega)))
      exact ⟨(abs_sub_eq_of_midpoint htie).symm,
        hparity.resolve_right fun hone => hodd hone heq⟩
    · exact Or.inl (abs_sub_lt_of_midpoint_lt (value_lt_iff.mpr hlt)
        (hbelow.mpr hfar))
  · rcases Nears.le_midpoint h hlt with ⟨hle, hodd⟩
    rcases midpoint_compare x y digits exponent with ⟨hbelow, habove⟩
    rcases Nat.eq_or_lt_of_le hle with heq | hfar
    · right
      have htie : 2 * (digits * 10 ^ exponent : ℚ) = x.value + y.value :=
        le_antisymm (not_lt.mp (mt hbelow.mp (by omega)))
          (not_lt.mp (mt habove.mp (by omega)))
      exact ⟨abs_sub_eq_of_midpoint htie,
        hparity.resolve_right fun hone => hodd hone heq⟩
    · exact Or.inl (abs_sub_lt_of_lt_midpoint (value_lt_iff.mpr hlt)
        (habove.mpr hfar))

end Magnitude

namespace Binary64

/-- No finite number is nearer to a value than this one, and another value is as
near only if this one's significand is even. -/
structure Nearest (v : ℚ) (negative : Bool) (x : Magnitude) : Prop where
  least : forall (other : Bool) (y : Magnitude),
    |v - signed negative x.value| ≤ |v - signed other y.value|
  tie : forall (other : Bool) (y : Magnitude),
    |v - signed negative x.value| = |v - signed other y.value| →
      signed other y.value = signed negative x.value ∨ x.significand % 2 = 0

theorem negative_of_ofDecimal {d : Decimal} {negative : Bool} {x : Magnitude}
    (h : ofDecimal d = finite negative x) : d.negative = negative := by
  unfold ofDecimal at h
  split at h
  · cases h
    rfl
  · cases h

theorem closer_or_tie {d : Decimal} {negative : Bool} {x : Magnitude}
    (h : ofDecimal d = finite negative x) (hne : x.significand ≠ 0)
    (other : Bool) (y : Magnitude) :
    signed other y.value = signed negative x.value ∨
      |d.value - signed negative x.value| < |d.value - signed other y.value| ∨
      |d.value - signed negative x.value| = |d.value - signed other y.value| ∧
        x.significand % 2 = 0 := by
  have hnears := nearsDigits_of_ofDecimal hne h
  have hsign : d.negative = negative := negative_of_ofDecimal h
  have hnonneg : (0 : ℚ) ≤ d.digits * 10 ^ d.exponent := by positivity
  rw [Decimal.value, hsign, abs_signed_sub]
  rcases Bool.eq_or_eq_not other negative with rfl | rfl
  · rw [abs_signed_sub]
    by_cases hunits : y.units = x.units
    · left
      rw [Magnitude.value, Magnitude.value, hunits]
    · exact Or.inr (hnears.closer_or_tie hunits)
  · right
    rw [abs_signed_sub_not negative hnonneg y.value_nonneg]
    have hzero := hnears.closer_or_tie (y := Magnitude.zero)
      (Magnitude.units_ne_zero hne).symm
    rw [Magnitude.value_zero, sub_zero, abs_of_nonneg hnonneg] at hzero
    have hfar := le_add_of_nonneg_right (a := (d.digits * 10 ^ d.exponent : ℚ))
      y.value_nonneg
    rcases hzero with hlt | ⟨heq, heven⟩
    · exact Or.inl (lt_of_lt_of_le hlt hfar)
    · rw [heq]
      rcases lt_or_eq_of_le hfar with hlt | hsame
      · exact Or.inl hlt
      · exact Or.inr ⟨hsame, heven⟩

/-- A decimal is rounded to the nearest number. -/
theorem nearest_of_ofDecimal {d : Decimal} {negative : Bool} {x : Magnitude}
    (h : ofDecimal d = finite negative x) (hne : x.significand ≠ 0) :
    Nearest d.value negative x := by
  constructor
  · intro other y
    rcases closer_or_tie h hne other y with hsame | hlt | ⟨heq, _⟩
    · rw [hsame]
    · exact le_of_lt hlt
    · exact le_of_eq heq
  · intro other y hequal
    rcases closer_or_tie h hne other y with hsame | hlt | ⟨_, heven⟩
    · exact Or.inl hsame
    · exact absurd hequal (ne_of_lt hlt)
    · exact Or.inr heven

end Binary64

end MarkupForest
