import MarkupForest.Json.Parser
import MarkupForest.Proofs.Escaping

/-!
# String literals read back

A literal is read piece by piece: most characters are one piece each as they
stand, some are a letter behind a backslash, and the others are code units.  No
such unit is half of a surrogate pair, so the pieces join to the text that was
written, whatever follows the literal.
-/

namespace MarkupForest

namespace Json

open Text (escapeChar readHexadecimal?)

/-- The ways to write a character in a literal: as it stands, as a letter behind
a backslash, or as a code unit by its four digits. -/
inductive Spelling : Char → List Char → Prop where
  | plain {c : Char} (hquote : c ≠ '"') (hslash : c ≠ '\\')
      (hprintable : 0x20 ≤ c.toNat) : Spelling c [c]
  | letter {c letter : Char} (h : letterEscape? letter = some c) :
      Spelling c ['\\', letter]
  | unit {c a₁ a₂ a₃ a₄ : Char}
      (h : readHexadecimal? [a₁, a₂, a₃, a₄] = some c.toNat)
      (hlow : c.toNat < 0xD800) : Spelling c ['\\', 'u', a₁, a₂, a₃, a₄]

/-- The piece stands for a character, whatever the pieces behind it are. -/
inductive Piece.Denotes : Piece → Char → Prop where
  | char (c : Char) : Denotes (.char c) c
  | unit {c : Char} (hlow : c.toNat < 0xD800) : Denotes (.unit c.toNat) c

variable {c : Char} {cs rest : List Char}

/-!
# Spelling
-/

theorem readHexadecimal?_control (n : Nat) (h : n < 0x20) :
    readHexadecimal? ['0', '0', Nat.digitChar (n / 16), Nat.digitChar (n % 16)] =
      some n := by
  revert n
  decide

theorem spelling_escapeChar (c : Char) : Spelling c (escapeChar c) := by
  unfold escapeChar
  by_cases hletter : c ∈ ['"', '\\', '\x08', '\t', '\n', '\x0c', '\r']
  · simp only [List.mem_cons, List.not_mem_nil, or_false] at hletter
    rcases hletter with rfl | rfl | rfl | rfl | rfl | rfl | rfl <;>
      exact Spelling.letter rfl
  · simp only [List.mem_cons, List.not_mem_nil, or_false, not_or] at hletter
    rcases hletter with ⟨h₁, h₂, h₃, h₄, h₅, h₆, h₇⟩
    rw [if_neg h₁, if_neg h₂, if_neg h₃, if_neg h₄, if_neg h₅, if_neg h₆,
      if_neg h₇]
    split
    · rename_i hcontrol
      exact Spelling.unit (readHexadecimal?_control c.toNat hcontrol) (by omega)
    · rename_i hcontrol
      exact Spelling.plain h₁ h₂ (by omega)

/-!
# Pieces
-/

theorem readPieces?_plain (hquote : c ≠ '"') (hslash : c ≠ '\\')
    (hprintable : 0x20 ≤ c.toNat) (rest : List Char) :
    readPieces? (c :: rest) =
      (readPieces? rest).map fun answer => (.char c :: answer.1, answer.2) := by
  rw [readPieces?.eq_def]
  split
  · rename_i heq
    cases heq
  · rename_i heq
    cases heq
    exact absurd rfl hquote
  · rename_i heq
    cases heq
    exact absurd rfl hslash
  · rename_i heq
    cases heq
    exact absurd rfl hslash
  · rename_i heq
    cases heq
    rw [if_neg (by omega)]
    cases readPieces? rest <;> rfl

theorem readPieces?_letter {letter : Char} (h : letterEscape? letter = some c)
    (rest : List Char) :
    readPieces? ('\\' :: letter :: rest) =
      (readPieces? rest).map fun answer => (.char c :: answer.1, answer.2) := by
  have hletter : letter ≠ 'u' := by
    rintro rfl
    cases h
  rw [readPieces?.eq_def]
  split
  · rename_i heq
    cases heq
  · rename_i heq
    cases heq
  · rename_i heq
    cases heq
    exact absurd rfl hletter
  · rename_i heq
    cases heq
    rw [h]
    cases readPieces? rest <;> rfl
  · rename_i hnone heq
    cases heq
    exact (hnone letter rest rfl rfl).elim

theorem readPieces?_unit {a₁ a₂ a₃ a₄ : Char} {n : Nat}
    (h : readHexadecimal? [a₁, a₂, a₃, a₄] = some n) (rest : List Char) :
    readPieces? ('\\' :: 'u' :: a₁ :: a₂ :: a₃ :: a₄ :: rest) =
      (readPieces? rest).map fun answer => (.unit n :: answer.1, answer.2) := by
  rw [readPieces?, h]
  cases readPieces? rest <;> rfl

/-- However a character is spelled, it is read as one piece. -/
theorem Spelling.readPieces? (h : Spelling c cs) :
    exists piece, piece.Denotes c ∧ forall rest, readPieces? (cs ++ rest) =
      (readPieces? rest).map fun answer => (piece :: answer.1, answer.2) := by
  cases h with
  | plain hquote hslash hprintable =>
      exact ⟨_, .char c, readPieces?_plain hquote hslash hprintable⟩
  | letter h => exact ⟨_, .char c, readPieces?_letter h⟩
  | unit h hlow => exact ⟨_, .unit hlow, readPieces?_unit h⟩

/-!
# Joining the pieces
-/

theorem joinPieces?_unit {n : Nat} (h : n < 0xD800) (pieces : List Piece) :
    joinPieces? (.unit n :: pieces) =
      (joinPieces? pieces).map (Char.ofNat n :: ·) := by
  have hhigh : isHighSurrogate n = false := by
    unfold isHighSurrogate
    rw [decide_eq_false (by omega), Bool.false_and]
  have hlow : isLowSurrogate n = false := by
    unfold isLowSurrogate
    rw [decide_eq_false (by omega), Bool.false_and]
  cases pieces with
  | nil => simp [joinPieces?, hhigh, hlow]
  | cons piece rest =>
      cases piece with
      | char c => simp [joinPieces?, hhigh, hlow]
      | unit m => simp [joinPieces?, hhigh, hlow]

theorem Piece.Denotes.joinPieces? {piece : Piece} (h : piece.Denotes c)
    (pieces : List Piece) :
    joinPieces? (piece :: pieces) = (joinPieces? pieces).map (c :: ·) := by
  cases h with
  | char => rw [Json.joinPieces?]
  | unit hlow => rw [joinPieces?_unit hlow, Char.ofNat_toNat]

/-!
# Literals
-/

theorem readPieces?_spelled {write : Char → List Char}
    (h : forall c, Spelling c (write c)) (cs rest : List Char) :
    exists pieces,
      readPieces? (cs.flatMap write ++ '"' :: rest) = some (pieces, rest) ∧
        joinPieces? pieces = some cs := by
  induction cs with
  | nil =>
      rw [List.flatMap_nil, List.nil_append, readPieces?]
      exact ⟨[], rfl, by rw [joinPieces?]⟩
  | cons c cs ih =>
      rcases ih with ⟨pieces, hread, hjoin⟩
      rcases (h c).readPieces? with ⟨piece, hpiece, hfirst⟩
      refine ⟨piece :: pieces, ?_, ?_⟩
      · rw [List.flatMap_cons, List.append_assoc, hfirst, hread]
        rfl
      · rw [hpiece.joinPieces?, hjoin]
        rfl

theorem readString?_spelled {write : Char → List Char}
    (h : forall c, Spelling c (write c)) (s : String) (rest : List Char) :
    readString? (s.toList.flatMap write ++ '"' :: rest) = some (some s, rest) := by
  rcases readPieces?_spelled h s.toList rest with ⟨pieces, hread, hjoin⟩
  unfold readString?
  rw [hread, Option.map_some, hjoin, Option.map_some, String.ofList_toList]

/-- A text is read back from its literal, whatever follows. -/
theorem readString?_literal (s : String) (rest : List Char) :
    exists inner, (Text.literal s).toList ++ rest = '"' :: inner ∧
      readString? inner = some (some s, rest) := by
  refine ⟨s.toList.flatMap escapeChar ++ '"' :: rest, ?_,
    readString?_spelled spelling_escapeChar s rest⟩
  unfold Text.literal
  rw [String.toList_append, String.toList_append, Text.toList_replaceChars]
  simp

end Json

end MarkupForest
