import MarkupForest.Number.PlainText
import MarkupForest.Proofs.ShortestDigits

/-!
# Fewest digits

The search for the shortest digits ends at the coarsest grid that has a point in
the rounding interval.  Hence no decimal with fewer digits is rounded to the same
magnitude: such a decimal would lie on a coarser grid, or leave a power of ten
between itself and the digits found.  For the same reason the digits found do not
end in a zero.
-/

namespace MarkupForest

/-!
# The coarsest grid
-/

namespace RoundingInterval

variable {tie : TieRule} {interval : RoundingInterval} {a b n power start : Nat}

theorem contains_of_between (ha : interval.contains a = true)
    (hb : interval.contains b = true) (hle : a ≤ n) (hge : n ≤ b) :
    interval.contains n = true := by
  rw [contains_iff] at *
  refine ⟨by omega, by omega, fun hopen => ?_⟩
  have hleft := (ha.right.right hopen).left
  have hright := (hb.right.right hopen).right
  omega

theorem multiplier?_eq_none_iff :
    interval.multiplier? tie power = none ↔
      interval.contains (interval.point / 10 ^ power * 10 ^ power) = false ∧
        interval.contains ((interval.point / 10 ^ power + 1) * 10 ^ power) =
          false := by
  unfold multiplier?
  simp only
  split
  · rename_i hbelow habove
    rw [hbelow]
    split
    · simp
    · split
      · simp
      · cases tie <;> simp
  · rename_i hbelow _
    rw [hbelow]
    simp
  · rename_i _ habove
    rw [habove]
    simp
  · rename_i hbelow habove
    rw [hbelow, habove]
    simp

theorem multiplier?_isSome (hpoint : interval.contains interval.point = true)
    (h : interval.contains (n * 10 ^ power) = true) (tie : TieRule) :
    (interval.multiplier? tie power).isSome = true := by
  have hstep : 0 < 10 ^ power := Nat.pow_pos (by decide)
  rw [Option.isSome_iff_ne_none]
  intro hnone
  rcases multiplier?_eq_none_iff.mp hnone with ⟨hbelow, habove⟩
  by_cases hside : n * 10 ^ power ≤ interval.point
  · have hle : n ≤ interval.point / 10 ^ power :=
      (Nat.le_div_iff_mul_le hstep).mpr hside
    rw [contains_of_between h hpoint (Nat.mul_le_mul_right _ hle)
      (Nat.div_mul_le_self _ _)] at hbelow
    cases hbelow
  · have hlt : interval.point / 10 ^ power < n :=
      (Nat.div_lt_iff_lt_mul hstep).mpr (Nat.lt_of_not_le hside)
    have hpast : interval.point ≤
        (interval.point / 10 ^ power + 1) * 10 ^ power :=
      Nat.le_of_lt ((Nat.div_lt_iff_lt_mul hstep).mp (Nat.lt_succ_self _))
    rw [contains_of_between hpoint h hpast
      (Nat.mul_le_mul_right _ (Nat.succ_le_of_lt hlt))] at habove
    cases habove

theorem le_coarsest (hpoint : interval.contains interval.point = true)
    (h : interval.contains (n * 10 ^ power) = true) (hstart : power ≤ start)
    (tie : TieRule) : power ≤ (interval.coarsest tie start).2 := by
  induction start with
  | zero => omega
  | succ start ih =>
      unfold coarsest
      split
      · exact hstart
      · rename_i hnone
        apply ih
        apply Nat.le_of_lt_succ
        apply Nat.lt_of_le_of_ne hstart
        rintro rfl
        have hsome := multiplier?_isSome hpoint h tie
        rw [hnone] at hsome
        cases hsome

theorem lt_ten_pow (n : Nat) : n < 10 ^ (n.log2 / 3 + 1) := by
  calc
    n < 2 ^ (n.log2 + 1) := Nat.lt_log2_self
    _ ≤ 2 ^ (3 * (n.log2 / 3 + 1)) :=
      Nat.pow_le_pow_right (by decide) (by omega)
    _ ≤ 10 ^ (n.log2 / 3 + 1) := Magnitude.two_pow_three_mul_le _

theorem lt_searchStart (h : interval.contains (n * 10 ^ power) = true)
    (hne : n ≠ 0) : power < interval.searchStart := by
  have hupper := (contains_iff.mp h).right.left
  have hle : 10 ^ power ≤ n * 10 ^ power :=
    Nat.le_mul_of_pos_left _ (Nat.pos_of_ne_zero hne)
  have hlt : 10 ^ power < 10 ^ interval.searchStart :=
    Nat.lt_of_le_of_lt (Nat.le_trans hle hupper) (lt_ten_pow _)
  exact (Nat.pow_lt_pow_iff_right (by decide)).mp hlt

/-- No grid that is coarser than the one found has a point in the interval. -/
theorem le_coarsest_searchStart
    (hpoint : interval.contains interval.point = true)
    (h : interval.contains (n * 10 ^ power) = true) (hne : n ≠ 0)
    (tie : TieRule) : power ≤ (interval.coarsest tie interval.searchStart).2 :=
  le_coarsest hpoint h (Nat.le_of_lt (lt_searchStart h hne)) tie

end RoundingInterval

/-!
# Decimals of few digits
-/

namespace Magnitude

variable {x : Magnitude} {tie : TieRule} {n digits power : Nat} {exponent : Int}

theorem NearsDigits.between {few many : Nat} (hfew : NearsDigits x few exponent)
    (hmany : NearsDigits x many exponent) (hle : few ≤ n) (hge : n ≤ many) :
    NearsDigits x n exponent := by
  unfold NearsDigits at *
  generalize 10 ^ exponent.toNat = scale at *
  generalize 10 ^ (-exponent).toNat = denominator at *
  have hlower := hfew.lower
  have hupper := hmany.upper
  have hlow : few * unitsPerOne * scale ≤ n * unitsPerOne * scale :=
    Nat.mul_le_mul_right _ (Nat.mul_le_mul_right _ hle)
  have hhigh : n * unitsPerOne * scale ≤ many * unitsPerOne * scale :=
    Nat.mul_le_mul_right _ (Nat.mul_le_mul_right _ hge)
  refine ⟨by omega, by omega, fun hone => ?_⟩
  have hleft := (hfew.odd hone).left
  have hright := (hmany.odd hone).right
  omega

/-- A decimal near a magnitude lies on the grid of the shortest digits or on a
finer one. -/
theorem NearsDigits.le_shortest (h : NearsDigits x digits exponent)
    (hne : x.significand ≠ 0) (tie : TieRule) :
    exponent ≤ (x.shortestDigits tie).2 := by
  have hpoint := contains_point hne
  have hdigits := h.digits_ne_zero hne
  unfold shortestDigits RoundingInterval.shortest
  rw [if_neg hne]
  show exponent ≤ x.roundingInterval.exponent + _
  by_cases hfine : exponent < x.roundingInterval.exponent
  · omega
  · obtain ⟨power, hpower⟩ :=
      Int.le.dest (Int.not_lt.mp hfine)
    rw [← nearsDigits_zeros_iff x digits power, ← hpower, Int.add_sub_cancel] at h
    have hle := RoundingInterval.le_coarsest_searchStart hpoint
      ((nearsDigits_iff_contains hne).mp h) hdigits tie
    omega

/-- Digits near a magnitude on the coarsest grid that has any. -/
structure Coarsest (x : Magnitude) (digits : Nat) (exponent : Int) : Prop where
  nears : NearsDigits x digits exponent
  finer : forall {others : Nat} {grid : Int},
    NearsDigits x others grid → grid ≤ exponent

theorem coarsest_shortestDigits (hne : x.significand ≠ 0) (tie : TieRule) :
    Coarsest x (x.shortestDigits tie).1 (x.shortestDigits tie).2 :=
  ⟨nearsDigits_shortestDigits hne tie, fun h => h.le_shortest hne tie⟩

theorem Coarsest.mod_ten_ne_zero (h : Coarsest x digits exponent) :
    digits % 10 ≠ 0 := by
  intro hzero
  have hnears := h.nears
  have hsplit : digits = digits / 10 * 10 ^ 1 := by omega
  have hexponent : exponent = exponent + 1 - ((1 : Nat) : Int) := by omega
  rw [hsplit, hexponent, nearsDigits_zeros_iff] at hnears
  have hle := h.finer hnears
  omega

theorem Coarsest.lt_pow {found count : Nat} {grid : Int}
    (hfound : Coarsest x found grid) (h : NearsDigits x digits exponent)
    (hcount : count ≠ 0) (hlt : digits < 10 ^ count) : found < 10 ^ count := by
  apply Nat.lt_of_not_le
  intro hle
  have hnears := hfound.nears
  obtain ⟨zeros, hzeros⟩ := Int.le.dest (hfound.finer h)
  -- the power of ten, on the grid of the other decimal, lies between the two
  have hexponent : exponent = grid - (zeros : Int) := by omega
  rw [hexponent] at h
  rw [← nearsDigits_zeros_iff x found zeros] at hnears
  have hlow : digits ≤ 10 ^ count * 10 ^ zeros :=
    Nat.le_trans (Nat.le_of_lt hlt)
      (Nat.le_mul_of_pos_right _ (Nat.pow_pos (by decide)))
  have hpower := h.between hnears hlow (Nat.mul_le_mul_right _ hle)
  have hshift : grid = grid + count - (count : Int) := by omega
  rw [nearsDigits_zeros_iff, ← Nat.one_mul (10 ^ count), hshift,
    nearsDigits_zeros_iff] at hpower
  have hbound := hfound.finer hpower
  omega

end Magnitude

namespace Binary64

theorem nearsDigits_of_ofDecimal {d : Decimal} {other : Bool} {x : Magnitude}
    (hne : x.significand ≠ 0) (hread : ofDecimal d = finite other x) :
    x.NearsDigits d.digits d.exponent := by
  rw [← Magnitude.ofDigits?_eq_some_iff hne]
  unfold ofDecimal at hread
  split at hread
  · rename_i found hfound
    cases hread
    exact hfound
  · cases hread

theorem length_shortestDecimal_le {d : Decimal} {negative other : Bool}
    {x : Magnitude} (hread : ofDecimal d = finite other x) (tie : TieRule) :
    (shortestDecimal tie negative x).digitText.length ≤ d.digitText.length := by
  have hpos : 0 < d.digitText.length := Nat.length_repr_pos
  refine (Nat.length_repr_le_iff hpos).mpr ?_
  by_cases hzero : x.significand = 0
  · show (x.shortestDigits tie).1 < _
    unfold Magnitude.shortestDigits
    rw [if_pos hzero]
    exact Nat.pow_pos (by decide)
  · have hlt := (Nat.length_repr_le_iff hpos).mp (Nat.le_refl _)
    exact (Magnitude.coarsest_shortestDigits hzero tie).lt_pow
      (nearsDigits_of_ofDecimal hzero hread) (Nat.ne_of_gt hpos) hlt

end Binary64

end MarkupForest
