import Std.Data.String.ToNat
import MarkupForest.Json.Number
import MarkupForest.Json.Parser
import MarkupForest.Text.Blank

/-!
# Numbers read back

A decimal is written so that its parts can be told apart: the digits in front of
the point, those behind it, and an exponent.  Whichever notation is taken, the
reader finds the same sign, the same digits and the same power of ten, up to a
character that cannot go on with a number.
-/

namespace MarkupForest

namespace Json

/-- Nothing ahead goes on with a number. -/
def EndsNumber (cs : List Char) : Prop :=
  forall c rest, cs = c :: rest →
    c.isDigit = false ∧ c ≠ '.' ∧ c ≠ 'e' ∧ c ≠ 'E'

/-- A run of digits. -/
def Digits (cs : List Char) : Prop := forall c, c ∈ cs → c.isDigit = true

/-- Digits in front of a point: at least one, and no zero in front of others. -/
structure Whole (cs : List Char) : Prop where
  digits : Digits cs
  nonempty : cs ≠ []
  plain : forall rest, cs = '0' :: rest → rest = []

variable {digits whole fraction cs rest : List Char} {exponent : Int}

/-!
# Digits
-/

theorem readDigits?_append (hdigits : Digits digits) (hne : digits ≠ [])
    (hrest : forall c tail, rest = c :: tail → c.isDigit = false) :
    readDigits? (digits ++ rest) = some (digits, rest) := by
  unfold readDigits?
  rw [Text.takeWhile_run hdigits hrest, Text.dropWhile_run hdigits hrest]
  cases digits with
  | nil => exact absurd rfl hne
  | cons c tail => rfl

theorem readWhole?_append (h : Whole whole)
    (hrest : forall c tail, rest = c :: tail → c.isDigit = false) :
    readWhole? (whole ++ rest) = some (whole, rest) := by
  unfold readWhole?
  rw [readDigits?_append h.digits h.nonempty hrest]
  split
  · rename_i heq
    cases heq
    cases h.plain _ rfl
  · rfl

theorem toDigits_plain (n : Nat) :
    forall rest, Nat.toDigits 10 n = '0' :: rest → rest = [] := by
  induction n using Nat.strongRecOn with
  | ind n ih =>
      intro rest h
      by_cases hsmall : n < 10
      · rw [Nat.toDigits_of_lt_base hsmall] at h
        exact (List.cons.inj h).right.symm
      · rw [Nat.toDigits_of_base_le (by decide) (by omega)] at h
        cases hfront : Nat.toDigits 10 (n / 10) with
        | nil => exact absurd hfront Nat.toDigits_ne_nil
        | cons c tail =>
            rw [hfront, List.cons_append] at h
            have hc : c = '0' := (List.cons.inj h).left
            rw [hc] at hfront
            -- a single zero in front would be the number zero
            have hvalue : Nat.ofDigitChars 10 (Nat.toDigits 10 (n / 10)) 0 =
                n / 10 := Nat.ofDigitChars_ten_toDigits
            rw [hfront, ih (n / 10) (by omega) tail hfront] at hvalue
            have hzero : n / 10 = 0 := hvalue.symm
            omega

theorem whole_take {count : Nat} (hwhole : Whole digits) (hcount : count ≠ 0) :
    Whole (digits.take count) := by
  refine ⟨fun c hc => hwhole.digits c (List.mem_of_mem_take hc), ?_, ?_⟩
  · intro hnil
    rcases List.take_eq_nil_iff.mp hnil with hzero | hempty
    · exact hcount hzero
    · exact hwhole.nonempty hempty
  · intro rest htake
    have hfront : digits = '0' :: (rest ++ digits.drop count) := by
      rw [← List.cons_append, ← htake, List.take_append_drop]
    exact (List.append_eq_nil_iff.mp (hwhole.plain _ hfront)).left

theorem toList_toString (n : Nat) : (toString n).toList = Nat.toDigits 10 n := by
  simp [toString]

theorem digits_toDigits (n : Nat) : Digits (Nat.toDigits 10 n) :=
  fun _ hc => Nat.isDigit_of_mem_toDigits (by decide) (by decide) hc

theorem whole_toDigits (n : Nat) : Whole (Nat.toDigits 10 n) :=
  ⟨digits_toDigits n, Nat.toDigits_ne_nil, toDigits_plain n⟩

/-!
# Fractions and exponents
-/

/-- The digits behind a point, if there are any. -/
def fractionText (fraction : List Char) : List Char :=
  if fraction.isEmpty then [] else '.' :: fraction

theorem readFraction?_append (hfraction : Digits fraction)
    (hrest : forall c tail, rest = c :: tail → c.isDigit = false ∧ c ≠ '.') :
    readFraction? (fractionText fraction ++ rest) = some (fraction, rest) := by
  unfold fractionText
  cases fraction with
  | nil =>
      cases rest with
      | nil => rfl
      | cons c tail =>
          have hpoint := (hrest c tail rfl).right
          show readFraction? (c :: tail) = _
          unfold readFraction?
          split
          · rename_i heq
            cases heq
            exact absurd rfl hpoint
          · rfl
  | cons c tail =>
      exact readDigits?_append hfraction (List.cons_ne_nil c tail)
        fun d others heq => (hrest d others heq).left

/-- An exponent with its sign; zero may be left out. -/
inductive ExponentText : Int → List Char → Prop where
  | none : ExponentText 0 []
  | written {exponent : Int} :
      ExponentText exponent
        ('e' :: (if exponent < 0 then '-' else '+') ::
          Nat.toDigits 10 exponent.natAbs)

theorem readExponent?_append (h : ExponentText exponent cs)
    (hrest : EndsNumber rest) :
    readExponent? (cs ++ rest) = some (exponent, rest) := by
  cases h with
  | none =>
      cases rest with
      | nil => rfl
      | cons c tail =>
          rcases hrest c tail rfl with ⟨_, _, hlower, hupper⟩
          exact if_neg (not_or.mpr ⟨hlower, hupper⟩)
  | written =>
      have hdigits : readDigits? (Nat.toDigits 10 exponent.natAbs ++ rest) =
          some (Nat.toDigits 10 exponent.natAbs, rest) :=
        readDigits?_append (digits_toDigits _) Nat.toDigits_ne_nil
          fun c tail heq => (hrest c tail heq).left
      have hvalue : Nat.ofDigitChars 10 (Nat.toDigits 10 exponent.natAbs) 0 =
          exponent.natAbs := Nat.ofDigitChars_ten_toDigits
      rw [List.cons_append, List.cons_append]
      unfold readExponent?
      simp only [true_or, if_true]
      by_cases hnegative : exponent < 0
      · simp only [if_pos hnegative, readExponentSign, hdigits, Option.map_some,
          hvalue]
        have hsign : -(exponent.natAbs : Int) = exponent := by omega
        rw [if_pos trivial, hsign]
      · simp only [if_neg hnegative, readExponentSign, hdigits, Option.map_some,
          hvalue]
        have hsign : (exponent.natAbs : Int) = exponent := by omega
        rw [if_neg (by decide), hsign]

theorem ExponentText.stops (h : ExponentText exponent cs) (hrest : EndsNumber rest)
    (c : Char) (tail : List Char) (heq : cs ++ rest = c :: tail) :
    c.isDigit = false ∧ c ≠ '.' := by
  cases h with
  | none =>
      rcases hrest c tail heq with ⟨hdigit, hpoint, _, _⟩
      exact ⟨hdigit, hpoint⟩
  | written =>
      cases heq
      decide

theorem readMagnitude?_append (hwhole : Whole whole) (hfraction : Digits fraction)
    (hexponent : ExponentText exponent cs) (hrest : EndsNumber rest)
    (negative : Bool) :
    readMagnitude? negative (whole ++ (fractionText fraction ++ (cs ++ rest))) =
      some (⟨negative, Nat.ofDigitChars 10 (whole ++ fraction) 0,
        exponent - fraction.length⟩, rest) := by
  have hpoint : forall c tail, fractionText fraction ++ (cs ++ rest) = c :: tail →
      c.isDigit = false := by
    intro c tail heq
    unfold fractionText at heq
    split at heq
    · exact (hexponent.stops hrest c tail heq).left
    · cases heq
      decide
  unfold readMagnitude?
  rw [readWhole?_append hwhole hpoint]
  simp only [Option.bind_eq_bind, Option.bind_some]
  rw [readFraction?_append hfraction (hexponent.stops hrest)]
  simp only [Option.bind_some]
  rw [readExponent?_append hexponent hrest]
  rfl

/-!
# The two notations
-/

def signText (negative : Bool) : List Char := if negative then ['-'] else []

/-- A text that has the parts of a decimal. -/
def Spells (d : Decimal) (text : String) : Prop :=
  exists whole fraction cs exponent,
    Whole whole ∧ Digits fraction ∧ ExponentText exponent cs ∧
      text.toList =
        signText d.negative ++ (whole ++ (fractionText fraction ++ cs)) ∧
      Nat.ofDigitChars 10 (whole ++ fraction) 0 = d.digits ∧
      exponent - fraction.length = d.exponent

variable {d : Decimal}

theorem toList_sign (negative : Bool) :
    (if negative then "-" else "").toList = signText negative := by
  cases negative <;> rfl

theorem toList_digitText (d : Decimal) :
    d.digitText.toList = Nat.toDigits 10 d.digits :=
  toList_toString d.digits

theorem length_digitText (d : Decimal) :
    d.digitText.length = (Nat.toDigits 10 d.digits).length := by
  rw [← toList_digitText, String.length_toList]

/-- A text that has the parts of a decimal and no exponent. -/
structure SpellsPlainly (d : Decimal) (text : String)
    (whole fraction : List Char) : Prop where
  front : Whole whole
  behind : Digits fraction
  parts : text.toList = signText d.negative ++ (whole ++ fractionText fraction)
  digits : Nat.ofDigitChars 10 (whole ++ fraction) 0 = d.digits
  places : d.exponent = -(fraction.length : Int)

theorem SpellsPlainly.spells {text : String}
    (h : SpellsPlainly d text whole fraction) : Spells d text := by
  refine ⟨whole, fraction, [], 0, h.front, h.behind, .none, ?_,
    h.digits, ?_⟩
  · rw [List.append_nil]
    exact h.parts
  · rw [h.places, Int.zero_sub]

theorem spellsPlainly_whole (h : d.exponent = 0) :
    SpellsPlainly d d.positional (Nat.toDigits 10 d.digits) [] := by
  refine ⟨whole_toDigits _, ?_, ?_, ?_, h⟩
  · intro c hc
    cases hc
  · unfold Decimal.positional
    simp [h, Decimal.zeros, toList_sign, toList_digitText, fractionText]
  · rw [List.append_nil, Nat.ofDigitChars_ten_toDigits]

theorem ofDigitChars_zeros (count : Nat) (digits : List Char) :
    Nat.ofDigitChars 10 (List.replicate count '0' ++ digits) 0 =
      Nat.ofDigitChars 10 digits 0 := by
  induction count with
  | zero => rfl
  | succ count ih =>
      rw [List.replicate_succ, List.cons_append, Nat.ofDigitChars_cons]
      exact ih

theorem fractionText_of_ne (h : fraction ≠ []) :
    fractionText fraction = '.' :: fraction :=
  if_neg (by simpa using h)

theorem spellsPlainly_within (h : d.exponent < 0)
    (hplaces : (-d.exponent).toNat < d.digitText.length) :
    SpellsPlainly d d.positional
      ((Nat.toDigits 10 d.digits).take
        (d.digitText.length - (-d.exponent).toNat))
      ((Nat.toDigits 10 d.digits).drop
        (d.digitText.length - (-d.exponent).toNat)) := by
  have hlength := length_digitText d
  have hfraction : (Nat.toDigits 10 d.digits).drop
      (d.digitText.length - (-d.exponent).toNat) ≠ [] := by
    intro hnil
    have hle := List.drop_eq_nil_iff.mp hnil
    omega
  refine ⟨whole_take (whole_toDigits _) (by omega), ?_, ?_, ?_, ?_⟩
  · exact fun c hc => digits_toDigits _ c (List.mem_of_mem_drop hc)
  · rw [fractionText_of_ne hfraction]
    unfold Decimal.positional
    simp only
    rw [if_neg (by omega), if_pos hplaces]
    simp [toList_sign, toList_digitText]
  · rw [List.take_append_drop, Nat.ofDigitChars_ten_toDigits]
  · rw [List.length_drop, ← hlength]
    omega

theorem spellsPlainly_below (h : d.exponent < 0)
    (hplaces : ¬ (-d.exponent).toNat < d.digitText.length) :
    SpellsPlainly d d.positional ['0']
      (List.replicate ((-d.exponent).toNat - d.digitText.length) '0' ++
        Nat.toDigits 10 d.digits) := by
  have hlength := length_digitText d
  have hfraction : List.replicate ((-d.exponent).toNat - d.digitText.length) '0' ++
      Nat.toDigits 10 d.digits ≠ [] := by
    intro hnil
    exact Nat.toDigits_ne_nil (List.append_eq_nil_iff.mp hnil).right
  have hzero : Whole ['0'] := whole_toDigits 0
  refine ⟨hzero, ?_, ?_, ?_, ?_⟩
  · intro c hc
    rcases List.mem_append.mp hc with hc | hc
    · rw [List.eq_of_mem_replicate hc]
      decide
    · exact digits_toDigits _ c hc
  · rw [fractionText_of_ne hfraction]
    unfold Decimal.positional
    simp only
    rw [if_neg (by omega), if_neg hplaces]
    simp [toList_sign, toList_digitText, Decimal.zeros]
  · rw [← List.append_assoc]
    show Nat.ofDigitChars 10 (List.replicate (_ + 1) '0' ++ _) 0 = _
    rw [ofDigitChars_zeros, Nat.ofDigitChars_ten_toDigits]
  · rw [List.length_append, List.length_replicate, ← hlength]
    omega

theorem spellsPlainly_positional (h : d.exponent ≤ 0) :
    exists whole fraction, SpellsPlainly d d.positional whole fraction := by
  rcases Int.lt_or_eq_of_le h with hfraction | hwhole
  · by_cases hplaces : (-d.exponent).toNat < d.digitText.length
    · exact ⟨_, _, spellsPlainly_within hfraction hplaces⟩
    · exact ⟨_, _, spellsPlainly_below hfraction hplaces⟩
  · exact ⟨_, _, spellsPlainly_whole hwhole⟩

theorem spells_scientific (d : Decimal) : Spells d d.scientific := by
  have hlength := length_digitText d
  have hdigits := digits_toDigits d.digits
  have hvalue : Nat.ofDigitChars 10 (Nat.toDigits 10 d.digits) 0 = d.digits :=
    Nat.ofDigitChars_ten_toDigits
  have hexponent : (((if d.pointIndex - 1 < 0 then "e-" else "e+") ++
      toString (d.pointIndex - 1).natAbs : String)).toList =
        'e' :: (if d.pointIndex - 1 < 0 then '-' else '+') ::
          Nat.toDigits 10 (d.pointIndex - 1).natAbs := by
    rw [String.toList_append, toList_toString]
    split <;> rfl
  have hindex : d.pointIndex = d.digitText.length + d.exponent := rfl
  unfold Decimal.scientific
  simp only
  rw [toList_digitText]
  cases hfront : Nat.toDigits 10 d.digits with
  | nil => exact absurd hfront Nat.toDigits_ne_nil
  | cons c tail =>
      rw [hfront] at hlength hdigits hvalue
      rw [List.length_cons] at hlength
      have hone : Whole [c] := by
        refine ⟨?_, List.cons_ne_nil c [], fun rest heq => ?_⟩
        · intro d hd
          exact hdigits d (List.mem_cons.mpr (Or.inl (List.mem_singleton.mp hd)))
        · exact (List.cons.inj heq).right.symm
      refine ⟨[c], tail, _, d.pointIndex - 1, hone,
        fun d hd => hdigits d (List.mem_cons_of_mem c hd), .written, ?_, hvalue, ?_⟩
      · rw [← hexponent]
        cases tail with
        | nil => simp [toList_sign, fractionText]
        | cons d others => simp [toList_sign, fractionText]
      · omega

theorem spells_jsonText (d : Decimal) : Spells d d.jsonText := by
  unfold Decimal.jsonText
  split
  · rename_i hmoderate
    have hexponent : d.exponent ≤ 0 := by
      unfold Decimal.isModerate at hmoderate
      simp only [Bool.and_eq_true, decide_eq_true_eq] at hmoderate
      exact hmoderate.left.left
    rcases spellsPlainly_positional hexponent with ⟨_, _, hplain⟩
    exact hplain.spells
  · exact spells_scientific d

theorem readNumber?_of_ne {c : Char} (h : c ≠ '-') (rest : List Char) :
    readNumber? (c :: rest) = readMagnitude? false (c :: rest) := by
  unfold readNumber?
  split
  · rename_i heq
    cases heq
    exact absurd rfl h
  · rfl

/-- A decimal is read back from its text, whatever follows. -/
theorem Spells.read {text : String} (h : Spells d text)
    (hrest : EndsNumber rest) :
    readNumber? (text.toList ++ rest) = some (d, rest) := by
  rcases h with ⟨whole, fraction, cs, exponent, hwhole, hfraction, hexponent,
    htext, hdigits, hvalue⟩
  have hread := readMagnitude?_append hwhole hfraction hexponent hrest d.negative
  rw [hdigits, hvalue] at hread
  rw [htext, List.append_assoc, List.append_assoc, List.append_assoc]
  refine Eq.trans ?_ hread
  cases d.negative with
  | true => rfl
  | false =>
      cases whole with
      | nil => exact absurd rfl hwhole.nonempty
      | cons c tail =>
          refine readNumber?_of_ne ?_ _
          rintro rfl
          exact absurd (hwhole.digits '-' List.mem_cons_self) (by decide)

end Json

end MarkupForest
