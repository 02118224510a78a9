import MarkupForest.Proofs.NumberLiterals
import MarkupForest.Proofs.NumberValues
import MarkupForest.Proofs.ZeroSigns

/-!
# Plain numbers

Numbers are shown without an exponent in two ways, as integers and with their
shortest digits.  The two agree wherever the first is used, but for the sign of
zero: the shortest digits of a whole number are its own digits without the zeros
at the end, and positional notation puts these back.
-/

namespace MarkupForest

/-!
# Positional notation
-/

namespace Decimal

variable {d : Decimal}

theorem toDigits_zeros {n : Nat} (hpos : 0 < n) (count : Nat) :
    Nat.toDigits 10 (n * 10 ^ count) =
      Nat.toDigits 10 n ++ List.replicate count '0' := by
  induction count with
  | zero => simp
  | succ count ih =>
      have hten : 0 < n * 10 ^ count := Nat.mul_pos hpos (Nat.pow_pos (by decide))
      have hsplit : n * 10 ^ (count + 1) = 10 * (n * 10 ^ count) + 0 := by
        rw [Nat.pow_succ, ← Nat.mul_assoc, Nat.mul_comm _ 10, Nat.add_zero]
      rw [hsplit, ← Nat.toDigits_append_toDigits (by decide) hten (by decide), ih,
        Nat.toDigits_zero, List.append_assoc, List.replicate_succ']

/-- The decimal whose digits positional notation shows: zeros that stand behind
the digits belong to them. -/
def spread (d : Decimal) : Decimal :=
  ⟨d.negative, d.digits * 10 ^ d.exponent.toNat, min d.exponent 0⟩

theorem spread_of_nonneg (h : 0 ≤ d.exponent) :
    d.spread = ⟨d.negative, d.digits * 10 ^ d.exponent.toNat, 0⟩ := by
  unfold spread
  rw [Int.min_eq_right h]

theorem spread_of_neg (h : d.exponent < 0) : d.spread = d := by
  unfold spread
  rw [Int.min_eq_left (by omega), Int.toNat_of_nonpos (by omega), Nat.pow_zero,
    Nat.mul_one]

theorem positional_of_nonneg (hdigits : d.digits ≠ 0) (h : 0 ≤ d.exponent) :
    d.positional = (if d.negative then "-" else "") ++
      toString (d.digits * 10 ^ d.exponent.toNat) := by
  unfold positional
  simp only
  rw [if_pos h]
  apply String.toList_injective
  simp [zeros, digitText, toDigits_zeros (Nat.pos_of_ne_zero hdigits)]

theorem positional_spread (hdigits : d.digits ≠ 0) :
    d.spread.positional = d.positional := by
  by_cases hwhole : 0 ≤ d.exponent
  · have hne : d.digits * 10 ^ d.exponent.toNat ≠ 0 :=
      Nat.mul_ne_zero hdigits (Nat.ne_of_gt (Nat.pow_pos (by decide)))
    rw [spread_of_nonneg hwhole, positional_of_nonneg hdigits hwhole,
      positional_of_nonneg hne (Int.le_refl 0)]
    simp
  · rw [spread_of_neg (by omega)]

theorem value_spread (d : Decimal) : d.spread.value = d.value := by
  by_cases hwhole : 0 ≤ d.exponent
  · have hcast : (10 : ℚ) ^ d.exponent = ((10 ^ d.exponent.toNat : Nat) : ℚ) := by
      rw [Magnitude.ten_zpow_eq, Int.toNat_of_nonpos (by omega : -d.exponent ≤ 0)]
      simp
    rw [spread_of_nonneg hwhole]
    unfold value
    rw [hcast]
    simp
  · rw [spread_of_neg (by omega)]

end Decimal

/-!
# Whole numbers
-/

namespace Magnitude

variable {x : Magnitude}

theorem NearsDigits.spread {digits : Nat} {exponent : Int}
    (h : NearsDigits x digits exponent) :
    NearsDigits x (digits * 10 ^ exponent.toNat) (min exponent 0) := by
  rw [← nearsDigits_zeros_iff x digits exponent.toNat] at h
  have hexponent : exponent - (exponent.toNat : Int) = min exponent 0 := by omega
  rw [hexponent] at h
  exact h

theorem units_of_isWhole (h : x.isWhole = true) :
    x.units = x.floor * unitsPerOne := by
  have hrest : x.units % unitsPerOne = 0 := eq_of_beq h
  exact (Nat.div_mul_cancel (Nat.dvd_of_mod_eq_zero hrest)).symm

theorem lt_of_two_pow_le {a b n bits : Nat} (h : 2 ^ a ≤ n * 2 ^ bits)
    (hn : n < 2 ^ b) : a < b + bits := by
  have hlt : n * 2 ^ bits < 2 ^ (b + bits) := by
    rw [Nat.pow_add]
    exact Nat.mul_lt_mul_of_pos_right hn (Nat.two_pow_pos bits)
  exact (Nat.pow_lt_pow_iff_right (by decide)).mp (Nat.lt_of_le_of_lt h hlt)

theorem two_mul_place_lt (hwhole : x.isWhole = true)
    (hmoderate : x.floor < Binary64.integerBound) :
    2 * 2 ^ x.shift < unitsPerOne := by
  have hshift : x.shift + 1 < 1074 := by
    by_cases hzero : x.shift = 0
    · omega
    · have hbound : Binary64.integerBound ≤ 2 ^ 50 := by decide
      have hlow := x.le_units hzero
      rw [units_of_isWhole hwhole] at hlow
      have hlt := lt_of_two_pow_le hlow (Nat.lt_of_lt_of_le hmoderate hbound)
      omega
  unfold unitsPerOne
  generalize 1074 = bits at hshift ⊢
  rw [Nat.mul_comm, ← Nat.pow_succ]
  exact Nat.pow_lt_pow_right (by decide) hshift

theorem nearsDigits_whole_iff {n : Nat} :
    NearsDigits x n 0 ↔
      4 * x.units ≤ 4 * (n * unitsPerOne) + x.gapBelow * 2 ^ x.shift ∧
        4 * (n * unitsPerOne) ≤ 4 * x.units + 2 * 2 ^ x.shift ∧
        (x.significand % 2 = 1 →
          4 * x.units ≠ 4 * (n * unitsPerOne) + x.gapBelow * 2 ^ x.shift ∧
            4 * (n * unitsPerOne) ≠ 4 * x.units + 2 * 2 ^ x.shift) := by
  have hplace : x.lastPlace 1 = 2 ^ x.shift := Nat.mul_one _
  have hunits : x.significand * 2 ^ x.shift = x.units := rfl
  show Nears x (n * unitsPerOne * 1) 1 ↔ _
  rw [Nat.mul_one]
  constructor
  · rintro ⟨hlower, hupper, hodd⟩
    rw [hplace, hunits] at hlower hupper hodd
    exact ⟨hlower, hupper, hodd⟩
  · rintro ⟨hlower, hupper, hodd⟩
    constructor
    · rw [hplace, hunits]
      exact hlower
    · rw [hplace, hunits]
      exact hupper
    · rw [hplace, hunits]
      exact hodd

theorem nearsDigits_floor (hwhole : x.isWhole = true) :
    NearsDigits x x.floor 0 := by
  have hgap : 0 < x.gapBelow := by
    unfold gapBelow
    split <;> decide
  have hplace := Nat.two_pow_pos x.shift
  have hbelow := Nat.mul_pos hgap hplace
  rw [nearsDigits_whole_iff, ← units_of_isWhole hwhole]
  omega

theorem NearsDigits.eq_floor {n : Nat} (h : NearsDigits x n 0)
    (hwhole : x.isWhole = true) (hmoderate : x.floor < Binary64.integerBound) :
    n = x.floor := by
  have hplace := two_mul_place_lt hwhole hmoderate
  have hgap := Nat.mul_le_mul_right (2 ^ x.shift) x.gapBelow_le
  rcases nearsDigits_whole_iff.mp h with ⟨hlower, hupper, _⟩
  rw [units_of_isWhole hwhole] at hlower hupper
  generalize unitsPerOne = units at hplace hlower hupper
  apply Nat.le_antisymm
  · apply Nat.le_of_lt_succ
    apply Nat.lt_of_mul_lt_mul_right (a := units)
    rw [Nat.succ_mul]
    omega
  · apply Nat.le_of_lt_succ
    apply Nat.lt_of_mul_lt_mul_right (a := units)
    rw [Nat.succ_mul]
    omega

theorem shortestDigits_floor (hne : x.significand ≠ 0) (tie : TieRule)
    (hwhole : x.isWhole = true) (hmoderate : x.floor < Binary64.integerBound) :
    0 ≤ (x.shortestDigits tie).2 ∧
      (x.shortestDigits tie).1 * 10 ^ (x.shortestDigits tie).2.toNat = x.floor := by
  have hcoarsest := coarsest_shortestDigits hne tie
  have hexponent := hcoarsest.finer (nearsDigits_floor hwhole)
  have hspread := hcoarsest.nears.spread
  rw [Int.min_eq_right hexponent] at hspread
  exact ⟨hexponent, hspread.eq_floor hwhole hmoderate⟩

end Magnitude

/-!
# Integers and shortest digits
-/

namespace Binary64

variable {x y : Magnitude}

theorem shortestText_of_ne (hne : x.significand ≠ 0) (negative : Bool) :
    (finite negative x).shortestText =
      (shortestDecimal .up negative x).spread.positional := by
  have hdigits : (shortestDecimal .up negative x).digits ≠ 0 := by
    intro hzero
    have hlast := (Magnitude.coarsest_shortestDigits hne .up).mod_ten_ne_zero
    change (x.shortestDigits .up).1 = 0 at hzero
    omega
  exact (Decimal.positional_spread hdigits).symm

theorem truncate_of_moderate (hmoderate : x.floor < integerBound)
    (negative : Bool) :
    (finite negative x).truncate = if negative then -(x.floor : Int) else x.floor := by
  have hbound : integerBound ≤ 2 ^ 50 := by decide
  unfold truncate wordMin wordMax
  cases negative with
  | true =>
      show max _ _ = -(x.floor : Int)
      omega
  | false =>
      show min _ _ = (x.floor : Int)
      omega

theorem toString_signed {n : Nat} (hne : n ≠ 0) (negative : Bool) :
    toString (if negative then -(n : Int) else n) =
      (if negative then "-" else "") ++ toString n := by
  obtain ⟨k, rfl⟩ := Nat.exists_eq_succ_of_ne_zero hne
  cases negative with
  | true => rfl
  | false => exact (String.empty_append).symm

theorem plainText_of_ne (hne : x.significand ≠ 0) (negative : Bool) :
    (finite negative x).plainText = (finite negative x).shortestText := by
  unfold plainText
  split
  · rename_i hplain
    have hparts : x.isWhole = true ∧ x.floor < integerBound := by
      change (x.isWhole && decide (x.floor < integerBound)) = true at hplain
      rw [Bool.and_eq_true, decide_eq_true_eq] at hplain
      exact hplain
    have hfloor : x.floor ≠ 0 := by
      intro hzero
      have hunits := Magnitude.units_of_isWhole hparts.left
      rw [hzero, Nat.zero_mul] at hunits
      exact Magnitude.units_ne_zero hne hunits
    rcases Magnitude.shortestDigits_floor hne .up hparts.left
      hparts.right with ⟨hexponent, hdigits⟩
    have hspread : (shortestDecimal .up negative x).spread =
        ⟨negative, x.floor, 0⟩ := by
      rw [Decimal.spread_of_nonneg hexponent]
      exact congrArg (Decimal.mk negative · 0) hdigits
    rw [truncate_of_moderate hparts.right, toString_signed hfloor,
      shortestText_of_ne hne, hspread,
      Decimal.positional_of_nonneg hfloor (Int.le_refl 0)]
    simp
  · rfl

/-- The sign of zero is the only difference between the two notations. -/
theorem plainText_eq_shortestText (x : Binary64) :
    x.plainText =
      if x = finite true Magnitude.zero then "0" else x.shortestText := by
  cases x with
  | nan => rfl
  | infinite negative => rfl
  | finite negative x =>
      by_cases hzero : x.significand = 0
      · rw [x.eq_zero_of_significand hzero, plainText_of_zero rfl]
        cases negative with
        | true => rw [if_pos rfl]; rfl
        | false => rw [if_neg (by decide)]; rfl
      · rw [if_neg, plainText_of_ne hzero]
        intro heq
        cases heq
        exact hzero rfl

theorem equal_iff_dropZeroSign {negative other : Bool} :
    (finite negative x).equal (finite other y) = true ↔
      (finite negative x).dropZeroSign = (finite other y).dropZeroSign := by
  refine ⟨dropZeroSign_eq_of_equal, fun h => ?_⟩
  show (if x.significand = 0 then y.significand == 0
    else negative == other && decide (x = y)) = true
  by_cases hx : x.significand = 0
  · rw [if_pos hx, beq_iff_eq]
    by_cases hy : y.significand = 0
    · exact hy
    · rw [dropZeroSign_of_zero hx, dropZeroSign_of_ne hy] at h
      cases h
      rfl
  · rw [if_neg hx]
    rw [dropZeroSign_of_ne hx] at h
    by_cases hy : y.significand = 0
    · rw [dropZeroSign_of_zero hy] at h
      cases h
      exact absurd rfl hx
    · rw [dropZeroSign_of_ne hy] at h
      cases h
      simp

theorem eq_of_equal_of_ne {z : Binary64} {negative : Bool}
    (hne : x.significand ≠ 0) (h : z.equal (finite negative x) = true) :
    z = finite negative x := by
  cases z with
  | nan => cases h
  | infinite other => cases h
  | finite other y =>
      have hdropped := dropZeroSign_eq_of_equal h
      rw [dropZeroSign_of_ne hne] at hdropped
      by_cases hy : y.significand = 0
      · rw [dropZeroSign_of_zero hy] at hdropped
        cases hdropped
        exact absurd rfl hne
      · rw [dropZeroSign_of_ne hy] at hdropped
        exact hdropped

end Binary64

/-!
# What a number shows
-/

/-- A number as it is shown: a sign, digits, and possibly a point and more
digits, the last of which is not a zero. -/
structure Numeral where
  negative : Bool
  whole : List Char
  fraction : List Char
  front : Json.Whole whole
  behind : Json.Digits fraction
  trimmed : fraction.getLast? ≠ some '0'

namespace Numeral

def text (n : Numeral) : String :=
  String.ofList (Json.signText n.negative ++
    (n.whole ++ Json.fractionText n.fraction))

/-- The digits of a numeral as a number, with a place for each behind the point. -/
def decimal (n : Numeral) : Decimal :=
  ⟨n.negative, Nat.ofDigitChars 10 (n.whole ++ n.fraction) 0,
    -(n.fraction.length : Int)⟩

theorem spells (n : Numeral) : Json.Spells n.decimal n.text := by
  refine ⟨n.whole, n.fraction, [], 0, n.front, n.behind, .none, ?_, rfl, ?_⟩
  · rw [List.append_nil]
    exact String.toList_ofList
  · exact Int.zero_sub _

theorem decimal_eq_of_text {m n : Numeral} (h : m.text = n.text) :
    m.decimal = n.decimal := by
  have hends : Json.EndsNumber [] := fun c rest heq => by cases heq
  have hm := m.spells.read hends
  rw [h, n.spells.read hends] at hm
  exact (congrArg Prod.fst (Option.some.inj hm)).symm

theorem exists_of_positional {d : Decimal} (h : d.exponent ≤ 0)
    (htrimmed : d.exponent < 0 → d.digits % 10 ≠ 0) :
    exists n : Numeral, n.text = d.positional ∧ n.decimal = d := by
  rcases Json.spellsPlainly_positional h with ⟨whole, fraction, hplain⟩
  have hlast : fraction.getLast? ≠ some '0' := by
    intro hzero
    obtain ⟨init, rfl⟩ := List.getLast?_eq_some_iff.mp hzero
    have hdigits := hplain.digits
    rw [← List.append_assoc, Nat.ofDigitChars_append] at hdigits
    have hplaces := hplain.places
    rw [List.length_append, List.length_singleton] at hplaces
    apply htrimmed (by omega)
    rw [← hdigits]
    exact Nat.mul_mod_right 10 _
  refine ⟨⟨d.negative, whole, fraction, hplain.front, hplain.behind, hlast⟩, ?_, ?_⟩
  · apply String.toList_injective
    rw [hplain.parts]
    exact String.toList_ofList
  · exact congr (congrArg (Decimal.mk d.negative) hplain.digits) hplain.places.symm

/-- A numeral shows a number if it reads back up to the sign of zero, if no number
is nearer to its value, and if its value has a decimal of the fewest digits among
all that read back. -/
structure Shows (n : Numeral) (negative : Bool) (x : Magnitude) : Prop where
  reads : Binary64.ofDecimal n.decimal =
    (Binary64.finite negative x).dropZeroSign
  nearest : Binary64.Nearest n.decimal.value negative x
  shortest : exists d : Decimal, d.value = n.decimal.value ∧
    (Binary64.ofDecimal d).equal (.finite negative x) = true ∧
    forall other : Decimal,
      (Binary64.ofDecimal other).equal (.finite negative x) = true →
        d.digitText.length ≤ other.digitText.length

theorem Shows.of_ne {n : Numeral} {negative : Bool} {x : Magnitude}
    (hne : x.significand ≠ 0)
    (h : n.decimal = (Binary64.shortestDecimal .up negative x).spread) :
    n.Shows negative x := by
  have hnears := (Magnitude.nearsDigits_shortestDigits hne .up).spread
  have hreads : Binary64.ofDecimal n.decimal = .finite negative x := by
    rw [h]
    exact Binary64.ofDecimal_of_nears hne hnears
  refine ⟨?_, Binary64.nearest_of_ofDecimal hreads hne,
    Binary64.shortestDecimal .up negative x, ?_, ?_, ?_⟩
  · rw [hreads, Binary64.dropZeroSign_of_ne hne]
  · rw [h, Decimal.value_spread]
  · rw [Binary64.ofDecimal_shortestDecimal, Binary64.equal_iff_dropZeroSign]
  · intro other hequal
    exact Binary64.length_shortestDecimal_le
      (Binary64.eq_of_equal_of_ne hne hequal) .up

theorem Shows.of_zero {n : Numeral} (negative : Bool) {x : Magnitude}
    (hzero : x.significand = 0) (h : n.decimal = ⟨false, 0, 0⟩) :
    n.Shows negative x := by
  have hvalue : n.decimal.value = 0 := by
    rw [h]
    simp [Decimal.value, signed]
  have hzeroValue : signed negative x.value = 0 := by
    rw [x.eq_zero_of_significand hzero, Magnitude.value_zero]
    cases negative <;> simp [signed]
  refine ⟨?_, ⟨?_, ?_⟩, ⟨⟨false, 0, 0⟩, ?_, ?_, ?_⟩⟩
  · rw [h, Binary64.dropZeroSign_of_zero hzero]
    exact Binary64.ofDecimal_of_zero rfl
  · intro other y
    rw [hvalue, hzeroValue, sub_zero, abs_zero]
    exact abs_nonneg _
  · intro other y _
    right
    rw [hzero]
  · rw [h]
  · rw [Binary64.ofDecimal_of_zero rfl, Binary64.equal_iff_dropZeroSign,
      Binary64.dropZeroSign_of_zero hzero]
    rfl
  · intro other _
    exact Nat.length_repr_pos

end Numeral

namespace Binary64

theorem exists_shown (negative : Bool) (x : Magnitude) :
    exists n : Numeral, (finite negative x).plainText = n.text ∧
      n.Shows negative x := by
  by_cases hzero : x.significand = 0
  · obtain ⟨n, htext, hdecimal⟩ := Numeral.exists_of_positional
      (d := ⟨false, 0, 0⟩) (Int.le_refl 0) (fun hlt => absurd hlt (Int.lt_irrefl 0))
    refine ⟨n, ?_, .of_zero negative hzero hdecimal⟩
    rw [plainText_of_zero hzero, htext]
    rfl
  · have hlast := (Magnitude.coarsest_shortestDigits hzero .up).mod_ten_ne_zero
    obtain ⟨n, htext, hdecimal⟩ := Numeral.exists_of_positional
      (d := (shortestDecimal .up negative x).spread) (Int.min_le_right _ 0) (by
        intro hfraction
        have hneg : (shortestDecimal .up negative x).exponent < 0 := by
          change min _ 0 < 0 at hfraction
          omega
        rw [Decimal.spread_of_neg hneg]
        exact hlast)
    refine ⟨n, ?_, .of_ne hzero hdecimal⟩
    rw [plainText_of_ne hzero, shortestText_of_ne hzero, htext]

/-- Every finite number is shown by a numeral without an exponent. -/
theorem plainText_shows :
    (forall x : Binary64, x.plainText =
      if x = finite true Magnitude.zero then "0" else x.shortestText) ∧
    (forall (negative : Bool) (x : Magnitude), exists n : Numeral,
      (finite negative x).plainText = n.text ∧ n.Shows negative x) ∧
    forall (negative other : Bool) (x y : Magnitude),
      (finite negative x).plainText = (finite other y).plainText ↔
        (finite negative x).equal (finite other y) = true := by
  refine ⟨plainText_eq_shortestText, exists_shown, ?_⟩
  intro negative other x y
  rw [equal_iff_dropZeroSign]
  obtain ⟨m, hm, hshown⟩ := exists_shown negative x
  obtain ⟨n, hn, hother⟩ := exists_shown other y
  constructor
  · intro h
    rw [hm, hn] at h
    rw [← hshown.reads, ← hother.reads, Numeral.decimal_eq_of_text h]
  · intro h
    rw [← plainText_dropZeroSign, h, plainText_dropZeroSign]

end Binary64

end MarkupForest
