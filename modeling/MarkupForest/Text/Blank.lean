/-!
# Blanks and words

A blank is a character with the Unicode property `White_Space`; the table below
lists all of them.  A word is a longest run of other characters.
-/

namespace MarkupForest
namespace Text

/-- The characters with the property `White_Space`. -/
def isBlank (c : Char) : Bool :=
  let n := c.toNat
  (9 ≤ n && n ≤ 13) || n == 0x20 || n == 0x85 || n == 0xA0 || n == 0x1680 ||
    (0x2000 ≤ n && n ≤ 0x200A) || n == 0x2028 || n == 0x2029 || n == 0x202F ||
    n == 0x205F || n == 0x3000

def isInk (c : Char) : Bool := !isBlank c

section

variable {p : Char → Bool} {cs rest : List Char}

theorem takeWhile_run (hrun : forall c, c ∈ cs → p c = true)
    (hstop : forall c tail, rest = c :: tail → p c = false) :
    (cs ++ rest).takeWhile p = cs := by
  rw [List.takeWhile_append_of_pos hrun]
  cases rest with
  | nil => exact List.append_nil cs
  | cons c rest =>
      rw [List.takeWhile_cons_of_neg (by rw [hstop c rest rfl]; decide),
        List.append_nil]

theorem dropWhile_run (hrun : forall c, c ∈ cs → p c = true)
    (hstop : forall c tail, rest = c :: tail → p c = false) :
    (cs ++ rest).dropWhile p = rest := by
  rw [List.dropWhile_append_of_pos hrun]
  cases rest with
  | nil => rfl
  | cons c rest =>
      rw [List.dropWhile_cons_of_neg (by rw [hstop c rest rfl]; decide)]

end

/-- The words of a text, in order. -/
def wordsOf : List Char → List (List Char)
  | [] => []
  | c :: rest =>
      if isBlank c then
        wordsOf rest
      else
        (c :: rest.takeWhile isInk) :: wordsOf (rest.dropWhile isInk)
  termination_by cs => cs.length
  decreasing_by
    · simp
    · exact Nat.lt_succ_of_le (List.dropWhile_suffix isInk).length_le

def words (s : String) : List String :=
  (wordsOf s.toList).map String.ofList

end Text
end MarkupForest
