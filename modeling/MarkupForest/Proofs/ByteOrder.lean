import Mathlib.Data.String.Basic
import Mathlib.Tactic.SplitIfs

/-!
# Byte order

Texts are compared by their code points.  The bytes of their encodings compare
the same way, since a greater code point has the greater encoding, whatever
follows it.
-/

namespace MarkupForest

namespace Text

/-- The bytes of a text in UTF-8. -/
def bytes (s : String) : List UInt8 := s.toByteArray.data.toList

theorem bytes_eq_flatMap (s : String) :
    bytes s = s.toList.flatMap String.utf8EncodeChar := by
  unfold bytes
  rw [← String.utf8Encode_toList]
  simp [List.utf8Encode]

/-!
# Single code points
-/

theorem ofNat_lt_ofNat_iff {m n : Nat} (hm : m < 256) (hn : n < 256) :
    UInt8.ofNat m < UInt8.ofNat n ↔ m < n :=
  UInt8.ofNat_lt_iff_lt hm hn

theorem ofNat_inj {m n : Nat} (hm : m < 256) (hn : n < 256) :
    UInt8.ofNat m = UInt8.ofNat n ↔ m = n := by
  rw [← UInt8.toNat_inj, UInt8.toNat_ofNat_of_lt' hm, UInt8.toNat_ofNat_of_lt' hn]

theorem digits_of_lt {m n : Nat} (h : m < n) :
    m / 64 < n / 64 ∨ (m / 64 = n / 64 ∧ m % 64 < n % 64) := by
  omega

theorem utf8EncodeChar_lt {c d : Char} (h : c < d) (x y : List UInt8) :
    String.utf8EncodeChar c ++ x < String.utf8EncodeChar d ++ y := by
  have hlt : c.val.toNat < d.val.toNat := h
  have hbound : d.val.toNat < 0x110000 := by
    rcases d.valid with hlow | ⟨_, hhigh⟩
    · exact Nat.lt_trans hlow (by decide)
    · exact hhigh
  unfold String.utf8EncodeChar
  generalize c.val.toNat = m at *
  generalize d.val.toNat = n at *
  have hlow := digits_of_lt hlt
  have hmid : m / 64 < n / 64 → _ := digits_of_lt
  have hhigh : m / 64 / 64 < n / 64 / 64 → _ := digits_of_lt
  simp only [Nat.div_div_eq_div_mul, Nat.reduceMul] at hmid hhigh
  have hm : m / 262144 % 8 = m / 262144 := Nat.mod_eq_of_lt (by omega)
  have hn : n / 262144 % 8 = n / 262144 := Nat.mod_eq_of_lt (by omega)
  dsimp only
  rw [hm, hn]
  split_ifs <;>
    simp (disch := omega) only [List.cons_append, List.nil_append,
      List.cons_lt_cons_iff, ofNat_lt_ofNat_iff, ofNat_inj] <;>
    omega

/-!
# Texts
-/

theorem append_lt_append_iff {first x y : List UInt8} :
    first ++ x < first ++ y ↔ x < y := by
  induction first with
  | nil => rfl
  | cons byte rest ih =>
      rw [List.cons_append, List.cons_append, List.cons_lt_cons_iff, ih]
      simp

theorem flatMap_utf8EncodeChar_lt_iff {cs ds : List Char} :
    cs.flatMap String.utf8EncodeChar < ds.flatMap String.utf8EncodeChar ↔
      cs < ds := by
  induction cs generalizing ds with
  | nil =>
      cases ds with
      | nil => exact iff_of_false (List.not_lt_nil _) (List.not_lt_nil _)
      | cons d ds =>
          refine iff_of_true ?_ (List.nil_lt_cons d ds)
          cases hd : String.utf8EncodeChar d with
          | nil => exact absurd hd String.utf8EncodeChar_ne_nil
          | cons byte rest =>
              rw [List.flatMap_cons, hd]
              exact List.nil_lt_cons _ _
  | cons c cs ih =>
      cases ds with
      | nil => exact iff_of_false (List.not_lt_nil _) (List.not_lt_nil _)
      | cons d ds =>
          rw [List.flatMap_cons, List.flatMap_cons, List.cons_lt_cons_iff]
          rcases lt_trichotomy c d with hlt | rfl | hgt
          · exact iff_of_true (utf8EncodeChar_lt hlt _ _) (Or.inl hlt)
          · rw [append_lt_append_iff, ih]
            simp
          · refine iff_of_false (List.lt_asymm (utf8EncodeChar_lt hgt _ _)) ?_
            rintro (hlt | ⟨rfl, _⟩)
            · exact lt_asymm hlt hgt
            · exact lt_irrefl _ hgt

/-- Texts and their bytes are in the same order. -/
theorem bytes_lt_iff {s t : String} : bytes s < bytes t ↔ s < t := by
  rw [bytes_eq_flatMap, bytes_eq_flatMap, flatMap_utf8EncodeChar_lt_iff,
    String.lt_iff_toList_lt]

end Text

end MarkupForest
