import MarkupForest.Proofs.StringLiterals

/-!
# Literals in scripts

A script reads more escapes than JSON does: other letters, two digits behind `x`,
any number of digits between braces, and a backslash in front of a line end, which
stands for nothing.  Digits behind a backslash are refused, apart from a single
zero.  However a text is spelled for JSON, a script reads the same text.
-/

namespace MarkupForest

namespace Script

open Json (Piece)
open Text (readHexadecimal?)

def isLineEnd (c : Char) : Bool :=
  c == '\n' || c == '\r' || c == '\u2028' || c == '\u2029'

/-- What a letter behind a backslash stands for; any other one is itself. -/
def escapedLetter (c : Char) : Char :=
  match c with
  | 'b' => '\x08'
  | 't' => '\t'
  | 'n' => '\n'
  | 'v' => '\x0b'
  | 'f' => '\x0c'
  | 'r' => '\r'
  | c => c

def codePoint? (digits : List Char) : Option Piece :=
  if digits = [] then
    none
  else
    (readHexadecimal? digits).bind fun n =>
      if n < 0x10000 then some (.unit n)
      else if n < 0x110000 then some (.char (Char.ofNat n))
      else none

/-- The escape behind a backslash: the pieces it stands for and what follows it. -/
def readEscape? : List Char → Option (List Piece × List Char)
  | [] => none
  | 'u' :: '\x7b' :: rest =>
      match rest.dropWhile (· ≠ '\x7d') with
      | [] => none
      | _ :: behind =>
          (codePoint? (rest.takeWhile (· ≠ '\x7d'))).map fun piece =>
            ([piece], behind)
  | 'u' :: a₁ :: a₂ :: a₃ :: a₄ :: rest =>
      (readHexadecimal? [a₁, a₂, a₃, a₄]).map fun n => ([.unit n], rest)
  | 'x' :: a₁ :: a₂ :: rest =>
      (readHexadecimal? [a₁, a₂]).map fun n => ([.unit n], rest)
  | '0' :: rest =>
      if rest.head?.any Char.isDigit then none else some ([.unit 0], rest)
  | '\r' :: '\n' :: rest => some ([], rest)
  | c :: rest =>
      if isLineEnd c then some ([], rest)
      else if c = 'u' ∨ c = 'x' ∨ c.isDigit = true then none
      else some ([.char (escapedLetter c)], rest)

theorem length_readEscape?_lt {cs rest : List Char} {pieces : List Piece}
    (h : readEscape? cs = some (pieces, rest)) : rest.length < cs.length := by
  unfold readEscape? at h
  split at h
  · cases h
  · split at h
    · cases h
    · rename_i inner _ _ behind hbehind
      rcases Option.map_eq_some_iff.mp h with ⟨piece, _, heq⟩
      cases heq
      have hle := (List.dropWhile_suffix (fun c => decide (c ≠ '\x7d'))
        (l := inner)).length_le
      rw [hbehind] at hle
      simp only [List.length_cons] at hle ⊢
      omega
  · rcases Option.map_eq_some_iff.mp h with ⟨n, _, heq⟩
    cases heq
    simp only [List.length_cons]
    omega
  · rcases Option.map_eq_some_iff.mp h with ⟨n, _, heq⟩
    cases heq
    simp only [List.length_cons]
    omega
  · split at h
    · cases h
    · cases h
      exact Nat.lt_succ_self _
  · cases h
    simp only [List.length_cons]
    omega
  · split at h
    · cases h
      exact Nat.lt_succ_self _
    · split at h
      · cases h
      · cases h
        exact Nat.lt_succ_self _

/-- The pieces of a literal up to the quotation mark that ends it; nothing may
follow. -/
def readPieces? : List Char → Option (List Piece)
  | [] => none
  | c :: rest =>
      if c = '"' then
        if rest = [] then some [] else none
      else if c = '\\' then
        match _h : readEscape? rest with
        | none => none
        | some (pieces, behind) => (readPieces? behind).map (pieces ++ ·)
      else if c = '\n' ∨ c = '\r' then
        none
      else
        (readPieces? rest).map (.char c :: ·)
termination_by cs => cs.length
decreasing_by
  · have hlt := length_readEscape?_lt _h
    exact Nat.lt_succ_of_lt hlt
  · exact Nat.lt_succ_self _

theorem readPieces?_escape {cs rest : List Char} {pieces : List Piece}
    (h : readEscape? cs = some (pieces, rest)) :
    readPieces? ('\\' :: cs) = (readPieces? rest).map (pieces ++ ·) := by
  rw [readPieces?, if_neg (by decide), if_pos rfl]
  split
  · rename_i hnone
    rw [h] at hnone
    cases hnone
  · rename_i heq
    rw [h] at heq
    cases heq
    rfl

/-- The text that a literal between quotation marks stands for. -/
def evaluate? (literal : String) : Option String :=
  match literal.toList with
  | '"' :: inner =>
      (readPieces? inner).bind fun pieces =>
        (Json.joinPieces? pieces).map String.ofList
  | _ => none

example : evaluate? "\"\\x41\\v\\'\\u\x7b1f600\x7d\\ud83d\\ude00\\\n\\0\"" =
    some "A\x0b'😀😀\x00" := by cbv

end Script

/-!
# Spelled texts in scripts
-/

namespace Json

open Text (readHexadecimal?)

variable {c : Char} {cs : List Char}

theorem isAlphanum_iff : c.isAlphanum = true ↔
    ('A' ≤ c ∧ c ≤ 'Z' ∨ 'a' ≤ c ∧ c ≤ 'z') ∨ '0' ≤ c ∧ c ≤ '9' := by
  change ((decide ('A'.val ≤ c.val ∧ c.val ≤ 'Z'.val) ||
      (decide ('a'.val ≤ c.val) && decide (c.val ≤ 'z'.val))) ||
    (decide ('0'.val ≤ c.val) && decide (c.val ≤ '9'.val))) = true ↔ _
  simp only [Bool.or_eq_true, Bool.and_eq_true, decide_eq_true_eq, Char.le_def]

theorem isAlphanum_of_hexadecimalDigit? {digit : Char} {n : Nat}
    (h : Text.hexadecimalDigit? digit = some n) : digit.isAlphanum = true := by
  unfold Text.hexadecimalDigit? at h
  rw [isAlphanum_iff]
  split at h
  · rename_i hrange
    exact Or.inr hrange
  · split at h
    · rename_i hrange
      exact Or.inl (Or.inr ⟨hrange.left, UInt32.le_trans hrange.right (by decide)⟩)
    · split at h
      · rename_i hrange
        exact Or.inl (Or.inl ⟨hrange.left, UInt32.le_trans hrange.right (by decide)⟩)
      · cases h

theorem isAlphanum_of_readHexadecimal? {digits : List Char} {n : Nat}
    (h : readHexadecimal? digits = some n) :
    forall d, d ∈ digits → d.isAlphanum = true := by
  unfold readHexadecimal? at h
  -- the digits in front only change the number that the others start from
  generalize 0 = start at h
  induction digits generalizing start with
  | nil =>
      intro d hd
      cases hd
  | cons digit digits ih =>
      rw [List.foldlM_cons, Option.bind_eq_bind] at h
      rcases Option.bind_eq_some_iff.mp h with ⟨value, hvalue, hrest⟩
      rcases Option.map_eq_some_iff.mp hvalue with ⟨m, hdigit, _⟩
      intro d hd
      rcases List.mem_cons.mp hd with rfl | hd
      · exact isAlphanum_of_hexadecimalDigit? hdigit
      · exact ih value hrest d hd

theorem readEscape?_letter {letter : Char} (h : letterEscape? letter = some c)
    (rest : List Char) :
    Script.readEscape? (letter :: rest) = some ([.char c], rest) := by
  unfold letterEscape? at h
  split at h
  all_goals first | (cases h; rfl) | cases h

theorem readEscape?_unit {a₁ a₂ a₃ a₄ : Char} {n : Nat}
    (h : readHexadecimal? [a₁, a₂, a₃, a₄] = some n) (rest : List Char) :
    Script.readEscape? ('u' :: a₁ :: a₂ :: a₃ :: a₄ :: rest) =
      some ([.unit n], rest) := by
  have hbrace : a₁ ≠ '\x7b' := by
    rintro rfl
    have hletter := isAlphanum_of_readHexadecimal? h '\x7b' List.mem_cons_self
    revert hletter
    decide
  unfold Script.readEscape?
  split
  · rename_i heq
    cases heq
  · rename_i heq
    cases heq
    exact absurd rfl hbrace
  · rename_i heq
    cases heq
    rw [h]
    rfl
  · rename_i heq
    cases heq
  · rename_i heq
    cases heq
  · rename_i heq
    cases heq
  · rename_i hnone _ _ _ heq
    cases heq
    exact (hnone a₁ a₂ a₃ a₄ rest rfl rfl).elim

/-- A script reads a spelled character as one piece, too. -/
theorem Spelling.script_readPieces? (h : Spelling c cs) :
    exists piece, piece.Denotes c ∧ forall rest,
      Script.readPieces? (cs ++ rest) =
        (Script.readPieces? rest).map (piece :: ·) := by
  cases h with
  | plain hquote hslash hprintable =>
      refine ⟨_, .char c, fun rest => ?_⟩
      have hend : ¬ (c = '\n' ∨ c = '\r') := by
        rintro (rfl | rfl)
        · revert hprintable
          decide
        · revert hprintable
          decide
      rw [List.singleton_append, Script.readPieces?, if_neg hquote,
        if_neg hslash, if_neg hend]
  | letter h =>
      exact ⟨_, .char c, fun rest =>
        Script.readPieces?_escape (readEscape?_letter h rest)⟩
  | unit h hlow =>
      exact ⟨_, .unit hlow, fun rest =>
        Script.readPieces?_escape (readEscape?_unit h rest)⟩

theorem script_readPieces?_spelled {write : Char → List Char}
    (h : forall c, Spelling c (write c)) (cs : List Char) :
    exists pieces,
      Script.readPieces? (cs.flatMap write ++ ['"']) = some pieces ∧
        joinPieces? pieces = some cs := by
  induction cs with
  | nil =>
      rw [List.flatMap_nil, List.nil_append, Script.readPieces?]
      exact ⟨[], rfl, by rw [joinPieces?]⟩
  | cons c cs ih =>
      rcases ih with ⟨pieces, hread, hjoin⟩
      rcases (h c).script_readPieces? with ⟨piece, hpiece, hfirst⟩
      refine ⟨piece :: pieces, ?_, ?_⟩
      · rw [List.flatMap_cons, List.append_assoc, hfirst, hread]
        rfl
      · rw [hpiece.joinPieces?, hjoin]
        rfl

end Json

end MarkupForest
