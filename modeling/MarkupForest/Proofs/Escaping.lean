import MarkupForest.Render.Line
import Std.Data.String.ToNat

/-!
# Text without angle brackets

Whatever a user writes reaches the markup through one of a few encodings: as
text between tags, as a quoted attribute, or as a number.  None of them leaves
an angle bracket in place.
-/

namespace MarkupForest

namespace Text

/-- A run of characters without angle brackets. -/
def Bracketless (cs : List Char) : Prop :=
  forall c, c ∈ cs → c ≠ '<' ∧ c ≠ '>'

instance (cs : List Char) : Decidable (Bracketless cs) :=
  List.decidableBAll (fun c => c ≠ '<' ∧ c ≠ '>') cs

variable {cs ds : List Char} {c : Char} {f : Char → List Char}

theorem bracketless_nil : Bracketless [] := by
  intro c hc
  cases hc

theorem bracketless_append :
    Bracketless (cs ++ ds) ↔ Bracketless cs ∧ Bracketless ds :=
  List.forall_mem_append

theorem bracketless_cons :
    Bracketless (c :: cs) ↔ (c ≠ '<' ∧ c ≠ '>') ∧ Bracketless cs :=
  List.forall_mem_cons

theorem Bracketless.of_subset (h : Bracketless cs)
    (hsub : forall d, d ∈ ds → d ∈ cs) : Bracketless ds :=
  fun d hd => h d (hsub d hd)

theorem Bracketless.flatMap (hf : forall d, d ∈ cs → Bracketless (f d)) :
    Bracketless (cs.flatMap f) := by
  intro c hc
  rcases List.mem_flatMap.mp hc with ⟨d, hd, hc⟩
  exact hf d hd c hc

theorem flatMap_unchanged (h : forall d, d ∈ cs → f d = [d]) :
    cs.flatMap f = cs := by
  induction cs with
  | nil => rfl
  | cons d cs ih =>
      rw [List.flatMap_cons, h d List.mem_cons_self,
        ih fun e he => h e (List.mem_cons_of_mem d he)]
      rfl

theorem append_eq_around {before behind : List Char}
    (h : cs ++ ds = before ++ c :: behind) :
    (exists middle, cs = before ++ c :: middle ∧ behind = middle ++ ds) ∨
      exists middle, before = cs ++ middle ∧ ds = middle ++ c :: behind := by
  rcases List.append_eq_append_iff.mp h with
    ⟨middle, hbefore, hds⟩ | ⟨middle, hcs, hbehind⟩
  · exact Or.inr ⟨middle, hbefore, hds⟩
  · cases middle with
    | nil => exact Or.inr ⟨[], by rw [hcs, List.append_nil, List.append_nil],
        hbehind.symm⟩
    | cons d middle =>
        cases hbehind
        exact Or.inl ⟨middle, hcs, rfl⟩

theorem toList_replaceChars (f : Char → List Char) (s : String) :
    (replaceChars f s).toList = s.toList.flatMap f :=
  String.toList_ofList

/-!
# Encodings
-/

theorem bracketless_textEntity (c : Char) : Bracketless (textEntity c) := by
  unfold textEntity
  split
  · decide
  · split
    · decide
    · split
      · decide
      · rename_i hlt hgt
        intro d hd
        rw [List.mem_singleton] at hd
        exact hd ▸ ⟨hlt, hgt⟩

theorem bracketless_quotedEntity (c : Char) : Bracketless (quotedEntity c) := by
  unfold quotedEntity
  split
  · decide
  · exact bracketless_textEntity c

theorem bracketless_braceReference (h : c ≠ '<' ∧ c ≠ '>') :
    Bracketless (braceReference c) := by
  unfold braceReference
  split
  · decide
  · split
    · decide
    · intro d hd
      rw [List.mem_singleton] at hd
      exact hd ▸ h

theorem bracketless_escapeBracket (c : Char) :
    Bracketless (escapeBracket c) := by
  unfold escapeBracket
  split
  · decide
  · split
    · decide
    · rename_i hlt hgt
      intro d hd
      rw [List.mem_singleton] at hd
      exact hd ▸ ⟨hlt, hgt⟩

theorem bracketless_encodeText (s : String) :
    Bracketless (encodeText s).toList := by
  unfold encodeText
  rw [toList_replaceChars]
  exact Bracketless.flatMap fun c _ => bracketless_textEntity c

theorem bracketless_encodeQuoted (s : String) :
    Bracketless (encodeQuoted s).toList := by
  unfold encodeQuoted
  rw [toList_replaceChars]
  exact Bracketless.flatMap fun c _ => bracketless_quotedEntity c

theorem bracketless_encodeBraces {s : String} (h : Bracketless s.toList) :
    Bracketless (encodeBraces s).toList := by
  unfold encodeBraces
  rw [toList_replaceChars]
  exact Bracketless.flatMap fun c hc => bracketless_braceReference (h c hc)

theorem bracketless_markupFreeLiteral (s : String) :
    Bracketless (markupFreeLiteral s).toList := by
  unfold markupFreeLiteral
  rw [toList_replaceChars]
  exact Bracketless.flatMap fun c _ => bracketless_escapeBracket c

/-- No text between tags has an angle bracket, in either dialect. -/
theorem bracketless_escapeText (dialect : Dialect) (s : String) :
    Bracketless (dialect.escapeText s).toList := by
  cases dialect with
  | html => exact bracketless_encodeText s
  | jsx =>
      show Bracketless (if '\n' ∈ s.toList then
        "\x7b" ++ markupFreeLiteral s ++ "\x7d"
      else
        encodeBraces (encodeText s)).toList
      split
      · rw [String.toList_append, String.toList_append, bracketless_append,
          bracketless_append]
        exact ⟨⟨by decide, bracketless_markupFreeLiteral s⟩, by decide⟩
      · exact bracketless_encodeBraces (bracketless_encodeText s)

/-!
# Numbers
-/

/-- The characters of numbers: digits and letters, a sign and a point. -/
def Numeral (cs : List Char) : Prop :=
  forall c, c ∈ cs → c.isAlphanum = true ∨ c = '-' ∨ c = '.'

instance (cs : List Char) : Decidable (Numeral cs) :=
  List.decidableBAll (fun c : Char => c.isAlphanum = true ∨ c = '-' ∨ c = '.') cs

theorem numeral_append : Numeral (cs ++ ds) ↔ Numeral cs ∧ Numeral ds :=
  List.forall_mem_append

theorem Numeral.of_subset (h : Numeral cs) (hsub : forall d, d ∈ ds → d ∈ cs) :
    Numeral ds :=
  fun d hd => h d (hsub d hd)

theorem Numeral.not_mem (h : Numeral cs)
    (hc : c.isAlphanum = false ∧ c ≠ '-' ∧ c ≠ '.') : c ∉ cs := by
  intro hmem
  rcases h c hmem with hletter | hsign | hpoint
  · rw [hc.left] at hletter
    cases hletter
  · exact hc.right.left hsign
  · exact hc.right.right hpoint

theorem numeral_toString_nat (n : Nat) : Numeral (toString n).toList := by
  intro c hc
  have hdigit : c.isDigit = true :=
    Nat.isDigit_of_mem_toDigits (by decide) (by decide)
      (by simpa [toString] using hc : c ∈ Nat.toDigits 10 n)
  left
  unfold Char.isAlphanum
  rw [hdigit, Bool.or_true]

theorem numeral_toString_int (n : Int) : Numeral (toString n).toList := by
  cases n with
  | ofNat n => exact numeral_toString_nat n
  | negSucc n =>
      show Numeral ("-" ++ toString (n + 1)).toList
      rw [String.toList_append, numeral_append]
      exact ⟨by decide, numeral_toString_nat (n + 1)⟩

theorem numeral_zeros (count : Nat) : Numeral (Decimal.zeros count).toList := by
  unfold Decimal.zeros
  rw [String.toList_ofList]
  intro c hc
  rw [List.eq_of_mem_replicate hc]
  decide

theorem numeral_positional (d : Decimal) : Numeral d.positional.toList := by
  have hsign : Numeral (if d.negative then "-" else "").toList := by
    split
    · decide
    · decide
  have hdigits : Numeral d.digitText.toList := numeral_toString_nat d.digits
  unfold Decimal.positional
  simp only
  split
  · simp only [String.toList_append, numeral_append]
    exact ⟨⟨hsign, hdigits⟩, numeral_zeros _⟩
  · split
    · simp only [String.toList_append, String.toList_ofList, numeral_append]
      refine ⟨⟨⟨hsign, ?_⟩, by decide⟩, ?_⟩
      · exact hdigits.of_subset fun c hc => List.mem_of_mem_take hc
      · exact hdigits.of_subset fun c hc => List.mem_of_mem_drop hc
    · simp only [String.toList_append, numeral_append]
      exact ⟨⟨⟨hsign, by decide⟩, numeral_zeros _⟩, hdigits⟩

theorem numeral_plainText (x : Binary64) : Numeral x.plainText.toList := by
  unfold Binary64.plainText
  split
  · exact numeral_toString_int _
  · cases x with
    | nan => decide
    | infinite negative => cases negative <;> decide
    | finite negative x => exact numeral_positional _

theorem bracketless_plainText (x : Binary64) :
    Bracketless x.plainText.toList := by
  intro c hc
  constructor
  · rintro rfl
    exact (numeral_plainText x).not_mem (by decide) hc
  · rintro rfl
    exact (numeral_plainText x).not_mem (by decide) hc

end Text

end MarkupForest
