import MarkupForest.Number.Shortest

/-!
# The nearest magnitude

The numbers that round to a magnitude lie between the halfway points to its
neighbours.  `Magnitude.Nears` says so of a quotient, by cross products: the
bounds are measured in quarters of the last place, because the neighbour below a
power of two is only half as far away.  Rounding a quotient, and a decimal, gives
the magnitude that it nears, and only what nears a magnitude is rounded to it.
-/

namespace MarkupForest

/-!
# Rounding a quotient
-/

/-- A quotient less than a half away from a whole number is rounded to it, and so
is one that is a half away from an even number. -/
theorem roundQuotient_eq {numerator denominator n : Nat} (hpos : 0 < denominator)
    (hlower : 2 * (n * denominator) ≤ 2 * numerator + denominator)
    (hupper : 2 * numerator ≤ 2 * (n * denominator) + denominator)
    (hodd : n % 2 = 1 →
      2 * (n * denominator) ≠ 2 * numerator + denominator ∧
        2 * numerator ≠ 2 * (n * denominator) + denominator) :
    roundQuotient numerator denominator = n := by
  have hdivision := Nat.div_add_mod' numerator denominator
  have hrest := Nat.mod_lt numerator hpos
  unfold roundQuotient
  simp only
  generalize numerator / denominator = quotient at hdivision ⊢
  generalize numerator % denominator = rest at hdivision hrest ⊢
  subst hdivision
  have hle : quotient ≤ n := by
    apply Nat.le_of_not_lt
    intro hlt
    have hmul := Nat.mul_le_mul_right denominator (Nat.succ_le_of_lt hlt)
    rw [Nat.succ_mul] at hmul
    omega
  have hge : n ≤ quotient + 1 := by
    apply Nat.le_of_not_lt
    intro hlt
    have hmul := Nat.mul_le_mul_right denominator (Nat.succ_le_of_lt hlt)
    rw [Nat.succ_mul, Nat.succ_mul] at hmul
    omega
  rcases Nat.eq_or_lt_of_le hle with rfl | hlt
  · -- rounded down: the rest is at most a half
    rw [if_pos]
    omega
  · have hsucc : n = quotient + 1 := by omega
    subst hsucc
    have hmul : (quotient + 1) * denominator =
        quotient * denominator + denominator := Nat.succ_mul quotient denominator
    rw [hmul] at hlower hupper hodd
    rw [if_neg]
    omega

theorem roundQuotient_bounds (numerator : Nat) {denominator : Nat}
    (hpos : 0 < denominator) :
    2 * (roundQuotient numerator denominator * denominator) ≤
        2 * numerator + denominator ∧
      2 * numerator ≤
        2 * (roundQuotient numerator denominator * denominator) + denominator ∧
      (roundQuotient numerator denominator % 2 = 1 →
        2 * (roundQuotient numerator denominator * denominator) ≠
            2 * numerator + denominator ∧
          2 * numerator ≠
            2 * (roundQuotient numerator denominator * denominator) +
              denominator) := by
  have hdivision := Nat.div_add_mod' numerator denominator
  have hrest := Nat.mod_lt numerator hpos
  unfold roundQuotient
  simp only
  generalize numerator / denominator = quotient at hdivision ⊢
  generalize numerator % denominator = rest at hdivision hrest ⊢
  subst hdivision
  have hsucc : (quotient + 1) * denominator =
      quotient * denominator + denominator := Nat.succ_mul quotient denominator
  split
  · omega
  · rw [hsucc]
    omega

namespace Magnitude

/-- How far the magnitude below is away, in halves of the last place: at a power
of two only half as far as the magnitude above. -/
def gapBelow (x : Magnitude) : Nat :=
  if 0 < x.shift ∧ x.significand = 2 ^ 52 then 1 else 2

/-- The last place, where the number one is the denominator. -/
def lastPlace (x : Magnitude) (denominator : Nat) : Nat :=
  2 ^ x.shift * denominator

/-- The quotient lies between the halfway points below and above a magnitude, and
on neither of them if the significand is odd. -/
structure Nears (x : Magnitude) (numerator denominator : Nat) : Prop where
  lower : 4 * (x.significand * x.lastPlace denominator) ≤
    4 * numerator + x.gapBelow * x.lastPlace denominator
  upper : 4 * numerator ≤
    4 * (x.significand * x.lastPlace denominator) + 2 * x.lastPlace denominator
  odd : x.significand % 2 = 1 →
    4 * (x.significand * x.lastPlace denominator) ≠
        4 * numerator + x.gapBelow * x.lastPlace denominator ∧
      4 * numerator ≠
        4 * (x.significand * x.lastPlace denominator) +
          2 * x.lastPlace denominator

variable {x : Magnitude} {numerator denominator : Nat}

theorem gapBelow_le (x : Magnitude) : x.gapBelow ≤ 2 := by
  unfold gapBelow
  split
  · decide
  · exact Nat.le_refl 2

theorem ofParts?_self (x : Magnitude) :
    ofParts? x.significand x.shift = some x :=
  dif_pos ⟨x.significand_lt, x.shift_le, x.normalized⟩

theorem parts_of_ofParts? {significand shift : Nat}
    (h : ofParts? significand shift = some x) :
    x.significand = significand ∧ x.shift = shift := by
  unfold ofParts? at h
  split at h
  · cases h
    exact ⟨rfl, rfl⟩
  · cases h

theorem Nears.significand_eq (h : Nears x numerator denominator)
    (hpos : 0 < denominator) :
    roundQuotient numerator (x.lastPlace denominator) = x.significand := by
  have hplace : 0 < x.lastPlace denominator :=
    Nat.mul_pos (Nat.two_pow_pos x.shift) hpos
  have hgap := Nat.mul_le_mul_right (x.lastPlace denominator) x.gapBelow_le
  have hlower := h.lower
  have hupper := h.upper
  have hodd := h.odd
  refine roundQuotient_eq hplace (by omega) (by omega) ?_
  intro hone
  have hends := hodd hone
  omega

theorem log2_sub_eq {n shift : Nat} (hlower : shift = 0 ∨ 2 ^ (52 + shift) ≤ n)
    (hupper : n < 2 ^ (53 + shift)) : n.log2 - 52 = shift := by
  by_cases hn : n = 0
  · subst hn
    rcases hlower with rfl | hlower
    · rfl
    · exact absurd hlower (Nat.not_le.mpr (Nat.two_pow_pos _))
  · have hlt := (Nat.log2_lt hn).mpr hupper
    rcases hlower with rfl | hlower
    · omega
    · have hle := (Nat.le_log2 hn).mpr hlower
      omega

/-- A quotient below a magnitude, but with a larger last place than those below
have, nears a power of two. -/
theorem Nears.eq_two_pow (h : Nears x numerator denominator)
    (hpos : 0 < denominator) (hshift : x.shift ≠ 0)
    (hbelow : numerator < 2 ^ 52 * x.lastPlace denominator) :
    x.significand = 2 ^ 52 := by
  have hplace : 0 < x.lastPlace denominator :=
    Nat.mul_pos (Nat.two_pow_pos x.shift) hpos
  have hlower := h.lower
  have hgap := Nat.mul_le_mul_right (x.lastPlace denominator) x.gapBelow_le
  apply Nat.le_antisymm _ (x.normalized.resolve_left hshift)
  apply Nat.le_of_not_lt
  intro hlt
  have hmul := Nat.mul_le_mul_right (x.lastPlace denominator)
    (Nat.succ_le_of_lt hlt)
  rw [Nat.succ_mul] at hmul
  omega

/-- Such a quotient gets a shift that is one less, and a significand that carries
into one more bit. -/
theorem Nears.nearest?_below (h : Nears x numerator denominator)
    (hpos : 0 < denominator) {shift : Nat} (hshift : x.shift = shift + 1)
    (hbelow : numerator < 2 ^ 52 * x.lastPlace denominator) :
    nearest? numerator denominator = some x := by
  have hpower := h.eq_two_pow hpos (by omega) hbelow
  have hgap : x.gapBelow = 1 := if_pos ⟨by omega, hpower⟩
  have hplace : x.lastPlace denominator = 2 * (2 ^ shift * denominator) := by
    unfold lastPlace
    rw [hshift, Nat.pow_succ, Nat.mul_comm (2 ^ shift), Nat.mul_assoc]
  have hlower := h.lower
  rw [hplace] at hbelow hlower
  rw [hgap, hpower] at hlower
  have hhalf : 0 < 2 ^ shift * denominator :=
    Nat.mul_pos (Nat.two_pow_pos shift) hpos
  have hlog : (numerator / denominator).log2 - 52 = shift := by
    apply log2_sub_eq
    · rw [Nat.le_div_iff_mul_le hpos, Nat.pow_add, Nat.mul_assoc]
      omega
    · rw [Nat.div_lt_iff_lt_mul hpos, Nat.pow_add, Nat.mul_assoc]
      omega
  have hround : roundQuotient numerator (denominator * 2 ^ shift) = 2 ^ 53 := by
    rw [Nat.mul_comm denominator]
    refine roundQuotient_eq hhalf (by omega) (by omega) ?_
    intro hodd
    exact absurd hodd (by decide)
  unfold nearest?
  simp only [hlog, hround]
  rw [if_neg (Nat.lt_irrefl _), ← hshift, ← ofParts?_self x, hpower]
  rfl

theorem Nears.nearest?_eq (h : Nears x numerator denominator)
    (hpos : 0 < denominator) : nearest? numerator denominator = some x := by
  have hsmall := x.significand_lt
  have hupper := h.upper
  have hlower := h.lower
  have hplace : 0 < x.lastPlace denominator :=
    Nat.mul_pos (Nat.two_pow_pos x.shift) hpos
  have hbits : numerator < 2 ^ 53 * x.lastPlace denominator := by
    have hmul := Nat.mul_le_mul_right (x.lastPlace denominator)
      (Nat.succ_le_of_lt hsmall)
    rw [Nat.succ_mul] at hmul
    omega
  by_cases hlast : x.shift = 0 ∨ 2 ^ 52 * x.lastPlace denominator ≤ numerator
  · have hshift : (numerator / denominator).log2 - 52 = x.shift := by
      apply log2_sub_eq
      · refine hlast.imp_right fun hle => ?_
        rw [Nat.le_div_iff_mul_le hpos, Nat.pow_add, Nat.mul_assoc]
        exact hle
      · rw [Nat.div_lt_iff_lt_mul hpos, Nat.pow_add, Nat.mul_assoc]
        exact hbits
    unfold nearest?
    simp only [hshift]
    rw [Nat.mul_comm denominator, show 2 ^ x.shift * denominator =
      x.lastPlace denominator from rfl, h.significand_eq hpos, if_pos hsmall,
      ofParts?_self]
  · rw [not_or, Nat.not_le] at hlast
    rcases hlast with ⟨hshift, hbelow⟩
    rcases Nat.exists_eq_succ_of_ne_zero hshift with ⟨shift, hsucc⟩
    exact h.nearest?_below hpos hsucc hbelow

theorem nears_scale_iff {factor : Nat} (hpos : 0 < factor) :
    Nears x (factor * numerator) (factor * denominator) ↔
      Nears x numerator denominator := by
  have hplace : x.lastPlace (factor * denominator) =
      factor * x.lastPlace denominator := Nat.mul_left_comm _ _ _
  have hpoint : 4 * (x.significand * x.lastPlace (factor * denominator)) =
      factor * (4 * (x.significand * x.lastPlace denominator)) := by
    rw [hplace, Nat.mul_left_comm x.significand, Nat.mul_left_comm 4]
  have hbelow : 4 * (factor * numerator) +
      x.gapBelow * x.lastPlace (factor * denominator) =
        factor * (4 * numerator + x.gapBelow * x.lastPlace denominator) := by
    rw [hplace, Nat.mul_left_comm 4, Nat.mul_left_comm x.gapBelow, Nat.mul_add]
  have habove : 4 * (x.significand * x.lastPlace (factor * denominator)) +
      2 * x.lastPlace (factor * denominator) =
        factor * (4 * (x.significand * x.lastPlace denominator) +
          2 * x.lastPlace denominator) := by
    rw [hpoint, hplace, Nat.mul_left_comm 2, Nat.mul_add]
  have hfour := Nat.mul_left_comm 4 factor numerator
  constructor
  · intro h
    refine ⟨?_, ?_, ?_⟩
    · exact Nat.le_of_mul_le_mul_left (hpoint ▸ hbelow ▸ h.lower) hpos
    · exact Nat.le_of_mul_le_mul_left (hfour ▸ habove ▸ h.upper) hpos
    · intro hone
      have hodd := h.odd hone
      rw [hbelow, habove, hpoint, hfour] at hodd
      exact hodd.imp (fun hne heq => hne (congrArg (factor * ·) heq))
        fun hne heq => hne (congrArg (factor * ·) heq)
  · intro h
    refine ⟨?_, ?_, ?_⟩
    · rw [hpoint, hbelow]
      exact Nat.mul_le_mul_left factor h.lower
    · rw [habove, hfour]
      exact Nat.mul_le_mul_left factor h.upper
    · intro hone
      rw [hbelow, habove, hpoint, hfour]
      exact (h.odd hone).imp
        (fun hne heq => hne (Nat.eq_of_mul_eq_mul_left hpos heq))
        fun hne heq => hne (Nat.eq_of_mul_eq_mul_left hpos heq)

/-!
# What is rounded to a magnitude

Only quotients near a magnitude are rounded to it.  A rounded significand either
fits in 53 bits or is a power of two, one bit too long.
-/

theorem lt_place (numerator : Nat) (hpos : 0 < denominator) :
    numerator < 2 ^ 53 *
      (2 ^ ((numerator / denominator).log2 - 52) * denominator) := by
  rw [← Nat.mul_assoc, ← Nat.pow_add, ← Nat.div_lt_iff_lt_mul hpos]
  exact Nat.lt_of_lt_of_le Nat.lt_log2_self
    (Nat.pow_le_pow_right (by decide) (by omega))

theorem place_le (numerator : Nat) (hpos : 0 < denominator)
    (hshift : (numerator / denominator).log2 - 52 ≠ 0) :
    2 ^ 52 * (2 ^ ((numerator / denominator).log2 - 52) * denominator) ≤
      numerator := by
  have hne : numerator / denominator ≠ 0 := by
    intro hzero
    rw [hzero] at hshift
    exact hshift rfl
  have hsum : 52 + ((numerator / denominator).log2 - 52) =
      (numerator / denominator).log2 := by omega
  rw [← Nat.mul_assoc, ← Nat.pow_add, ← Nat.le_div_iff_mul_le hpos, hsum]
  exact Nat.log2_self_le hne

theorem nears_of_roundQuotient (hpos : 0 < denominator)
    (hround : roundQuotient numerator (x.lastPlace denominator) = x.significand)
    (hbits : x.shift ≠ 0 → 2 ^ 52 * x.lastPlace denominator ≤ numerator) :
    Nears x numerator denominator := by
  have hplace : 0 < x.lastPlace denominator :=
    Nat.mul_pos (Nat.two_pow_pos x.shift) hpos
  rcases roundQuotient_bounds numerator hplace with ⟨hlower, hupper, hodd⟩
  rw [hround] at hlower hupper hodd
  -- a power of two is reached only from above: below it the shift is smaller
  have hbelow : 4 * (x.significand * x.lastPlace denominator) ≤
        4 * numerator + x.gapBelow * x.lastPlace denominator ∧
      (x.significand % 2 = 1 →
        4 * (x.significand * x.lastPlace denominator) ≠
          4 * numerator + x.gapBelow * x.lastPlace denominator) := by
    unfold gapBelow
    split
    · rename_i hpower
      have hle := hbits (Nat.ne_of_gt hpower.left)
      rw [hpower.right]
      omega
    · omega
  refine ⟨hbelow.left, by omega, fun hone => ⟨hbelow.right hone, ?_⟩⟩
  have hends := (hodd hone).right
  omega

theorem nears_of_carry {shift : Nat} (hpos : 0 < denominator)
    (hround : 2 ^ 53 ≤ roundQuotient numerator (2 ^ shift * denominator))
    (hbits : numerator < 2 ^ 53 * (2 ^ shift * denominator))
    (hparts : x.significand =
        roundQuotient numerator (2 ^ shift * denominator) / 2 ∧
      x.shift = shift + 1) : Nears x numerator denominator := by
  have hplace : 0 < 2 ^ shift * denominator :=
    Nat.mul_pos (Nat.two_pow_pos shift) hpos
  rcases roundQuotient_bounds numerator hplace with ⟨hlower, _, _⟩
  generalize roundQuotient numerator (2 ^ shift * denominator) = rounded
    at hround hparts hlower
  have hle : rounded ≤ 2 ^ 53 := by
    apply Nat.le_of_not_lt
    intro hlt
    have hmul := Nat.mul_le_mul_right (2 ^ shift * denominator)
      (Nat.succ_le_of_lt hlt)
    rw [Nat.succ_mul] at hmul
    omega
  rw [Nat.le_antisymm hle hround] at hparts hlower
  have hsignificand : x.significand = 2 ^ 52 := hparts.left
  have hlast : x.lastPlace denominator = 2 * (2 ^ shift * denominator) := by
    rw [lastPlace, hparts.right, Nat.pow_succ, Nat.mul_comm (2 ^ shift),
      Nat.mul_assoc]
  have hgap : x.gapBelow = 1 :=
    if_pos ⟨by rw [hparts.right]; exact Nat.succ_pos shift, hsignificand⟩
  constructor
  · rw [hlast, hsignificand, hgap]
    omega
  · rw [hlast, hsignificand]
    omega
  · rw [hsignificand]
    intro hone
    exact absurd hone (by decide)

theorem nears_of_nearest? (hpos : 0 < denominator)
    (h : nearest? numerator denominator = some x) :
    Nears x numerator denominator := by
  have hlarge := lt_place numerator hpos
  have hsmall := place_le numerator hpos
  unfold nearest? at h
  simp only at h
  generalize (numerator / denominator).log2 - 52 = shift at h hlarge hsmall
  rw [Nat.mul_comm denominator] at h
  split at h
  · rcases parts_of_ofParts? h with ⟨hsignificand, hshift⟩
    subst hshift
    exact nears_of_roundQuotient hpos hsignificand.symm hsmall
  · rename_i hcarry
    exact nears_of_carry hpos (Nat.le_of_not_lt hcarry) hlarge
      (parts_of_ofParts? h)

/-!
# Rounding a decimal
-/

/-- The decimal lies near a magnitude, both in units of the smallest one. -/
def NearsDigits (x : Magnitude) (digits : Nat) (exponent : Int) : Prop :=
  Nears x (digits * unitsPerOne * 10 ^ exponent.toNat) (10 ^ (-exponent).toNat)

variable {digits : Nat} {exponent : Int}

theorem Nears.le_numerator (h : Nears x numerator denominator)
    (hne : x.significand ≠ 0) : denominator ≤ 2 * numerator := by
  have hplace : denominator ≤ x.lastPlace denominator :=
    Nat.le_mul_of_pos_left denominator (Nat.two_pow_pos x.shift)
  have hlower := h.lower
  have hgap := Nat.mul_le_mul_right (x.lastPlace denominator) x.gapBelow_le
  have hmul := Nat.mul_le_mul_right (x.lastPlace denominator)
    (Nat.one_le_iff_ne_zero.mpr hne)
  omega

theorem NearsDigits.digits_ne_zero (h : NearsDigits x digits exponent)
    (hne : x.significand ≠ 0) : digits ≠ 0 := by
  rintro rfl
  have hle := Nears.le_numerator h hne
  rw [Nat.zero_mul, Nat.zero_mul] at hle
  exact absurd (Nat.pow_pos (by decide : 0 < 10)) (Nat.not_lt.mpr hle)

theorem two_pow_three_mul_le (n : Nat) : 2 ^ (3 * n) ≤ 10 ^ n := by
  rw [Nat.pow_mul]
  exact Nat.pow_le_pow_left (by decide) n

theorem NearsDigits.exponent_le (h : NearsDigits x digits exponent)
    (hdigits : digits ≠ 0) : exponent ≤ 400 := by
  apply Int.le_of_not_gt
  intro hlarge
  have hden : (10 : Nat) ^ (-exponent).toNat = 1 := by
    rw [Int.toNat_of_nonpos (by omega), Nat.pow_zero]
  have hupper := h.upper
  unfold lastPlace unitsPerOne at hupper
  rw [hden, Nat.mul_one] at hupper
  -- the number is compared by powers of two, which stay unevaluated
  generalize hbits : 1074 = bits at hupper
  have hnumerator : 2 ^ (bits + 3 * exponent.toNat) ≤
      digits * 2 ^ bits * 10 ^ exponent.toNat := by
    rw [Nat.pow_add]
    exact Nat.mul_le_mul
      (Nat.le_mul_of_pos_left _ (Nat.pos_of_ne_zero hdigits))
      (two_pow_three_mul_le exponent.toNat)
  have hpoint : (x.significand + 1) * 2 ^ x.shift ≤ 2 ^ (53 + x.shift) := by
    rw [Nat.pow_add]
    exact Nat.mul_le_mul_right _ (Nat.succ_le_of_lt x.significand_lt)
  rw [Nat.succ_mul] at hpoint
  have hle : 2 ^ (bits + 3 * exponent.toNat) ≤ 2 ^ (53 + x.shift) := by omega
  rw [Nat.pow_le_pow_iff_right (by decide)] at hle
  have hshift := x.shift_le
  omega

theorem NearsDigits.le_exponent (h : NearsDigits x digits exponent)
    (hne : x.significand ≠ 0) : -400 ≤ exponent + digits.log2 + 1 := by
  apply Int.le_of_not_gt
  intro hsmall
  have hnum : (10 : Nat) ^ exponent.toNat = 1 := by
    rw [Int.toNat_of_nonpos (by omega), Nat.pow_zero]
  have hle := Nears.le_numerator h hne
  unfold unitsPerOne at hle
  rw [hnum, Nat.mul_one] at hle
  generalize hbits : 1074 = bits at hle
  have hbound : 2 * (digits * 2 ^ bits) < 2 ^ (digits.log2 + 1 + bits + 1) := by
    rw [Nat.pow_succ, Nat.mul_comm 2, Nat.pow_add]
    exact Nat.mul_lt_mul_of_pos_right (Nat.mul_lt_mul_of_pos_right Nat.lt_log2_self
      (Nat.two_pow_pos bits)) (by decide)
  have hlt := Nat.lt_of_le_of_lt (Nat.le_trans (two_pow_three_mul_le _) hle) hbound
  rw [Nat.pow_lt_pow_iff_right (by decide)] at hlt
  omega

theorem NearsDigits.ofDigits?_eq (h : NearsDigits x digits exponent)
    (hne : x.significand ≠ 0) : ofDigits? digits exponent = some x := by
  have hdigits := h.digits_ne_zero hne
  have htop := h.exponent_le hdigits
  have hbottom := h.le_exponent hne
  unfold ofDigits?
  rw [if_neg hdigits, if_neg (by omega), if_neg (by omega)]
  exact Nears.nearest?_eq h (Nat.pow_pos (by decide))

/-- A decimal is rounded to exactly the magnitude that it lies near, as long as
that is not zero. -/
theorem ofDigits?_eq_some_iff (hne : x.significand ≠ 0) :
    ofDigits? digits exponent = some x ↔ NearsDigits x digits exponent := by
  constructor
  · intro h
    have hzero : some Magnitude.zero ≠ some x := by
      intro heq
      cases heq
      exact hne rfl
    unfold ofDigits? at h
    split at h
    · exact absurd h hzero
    split at h
    · cases h
    split at h
    · exact absurd h hzero
    · exact nears_of_nearest? (Nat.pow_pos (by decide)) h
  · intro h
    exact h.ofDigits?_eq hne

end Magnitude

end MarkupForest
