import MarkupForest.Proofs.JsonText
import MarkupForest.Proofs.ScriptLiterals

/-!
# String literals inside markup

A literal that may stand inside markup writes angle brackets as code units.  This
is done to the finished literal, so it has to leave alone what was escaped
before: the digits of other code units, and runs of backslashes, behind which an
escape may or may not begin.  Character by character it comes to one more way of
spelling, hence JSON reads the text back, and so does a script.
-/

namespace MarkupForest

/-!
# Quotation marks and backslashes
-/

namespace Text

/-- The length of the run of backslashes at the end of a text. -/
def trailingSlashes (cs : List Char) : Nat :=
  (cs.reverse.takeWhile (· = '\\')).length

/-- Backslashes come in pairs or escape what follows: behind an odd number of them
a quotation mark is escaped.  Every one inside is, the one behind the text is not. -/
structure Contained (cs : List Char) : Prop where
  inside : forall before behind, cs = before ++ '"' :: behind →
    trailingSlashes before % 2 = 1
  behind : trailingSlashes cs % 2 = 0

variable {cs ds : List Char} {c : Char}

theorem trailingSlashes_append (h : trailingSlashes cs % 2 = 0) (ds : List Char) :
    trailingSlashes (cs ++ ds) % 2 = trailingSlashes ds % 2 := by
  unfold trailingSlashes at h ⊢
  rw [List.reverse_append, List.takeWhile_append]
  split
  · rename_i hall
    rw [List.length_append, ← hall]
    omega
  · rfl

theorem Contained.append (hcs : Contained cs) (hds : Contained ds) :
    Contained (cs ++ ds) := by
  constructor
  · intro before behind heq
    rcases append_eq_around heq with ⟨middle, hleft, _⟩ | ⟨middle, rfl, hright⟩
    · exact hcs.inside before middle hleft
    · rw [trailingSlashes_append hcs.behind]
      exact hds.inside middle behind hright
  · rw [trailingSlashes_append hcs.behind]
    exact hds.behind

theorem contained_nil : Contained [] := by
  refine ⟨?_, rfl⟩
  intro before behind heq
  cases before with
  | nil => cases heq
  | cons d before => cases heq

theorem Contained.flatMap {write : Char → List Char}
    (h : forall c, Contained (write c)) (cs : List Char) :
    Contained (cs.flatMap write) := by
  induction cs with
  | nil => exact contained_nil
  | cons c cs ih =>
      rw [List.flatMap_cons]
      exact (h c).append ih

theorem contained_pair (c : Char) : Contained ['\\', c] := by
  constructor
  · intro before behind heq
    cases before with
    | nil => cases heq
    | cons d before =>
        cases before with
        | nil =>
            cases heq
            rfl
        | cons e before =>
            have hlength := congrArg List.length heq
            simp at hlength
  · unfold trailingSlashes
    by_cases hc : c = '\\'
    · subst hc
      rfl
    · show ([c, '\\'].takeWhile _).length % 2 = 0
      rw [List.takeWhile_cons_of_neg (by simpa using hc)]
      rfl

theorem contained_of_not_mem (hquote : '"' ∉ cs)
    (hlast : cs.getLast? ≠ some '\\') : Contained cs := by
  constructor
  · rintro before behind rfl
    exact absurd (List.mem_append_right before List.mem_cons_self) hquote
  · unfold trailingSlashes
    cases hreverse : cs.reverse with
    | nil => rfl
    | cons d others =>
        have hd : d ≠ '\\' := by
          rintro rfl
          rw [← List.head?_reverse, hreverse] at hlast
          exact hlast rfl
        rw [List.takeWhile_cons_of_neg (by simpa using hd)]
        rfl

end Text

namespace Json

open Text (Bracketless Contained)

variable {c : Char} {cs : List Char}

theorem Spelling.contained (h : Spelling c cs) : Contained cs := by
  cases h with
  | plain hquote hslash hprintable =>
      refine Text.contained_of_not_mem ?_ ?_
      · simpa using Ne.symm hquote
      · simpa using hslash
  | letter h => exact Text.contained_pair _
  | unit h hlow =>
      have hdigits := isAlphanum_of_readHexadecimal? h
      refine (Text.contained_pair 'u').append (Text.contained_of_not_mem ?_ ?_)
      · exact fun hquote => absurd (hdigits _ hquote) (by decide)
      · exact fun hlast =>
          absurd (hdigits _ (List.mem_of_getLast? hlast)) (by decide)

theorem visible_of_isAlphanum (h : c.isAlphanum = true) :
    0x20 ≤ c.toNat ∧ c ≠ '<' ∧ c ≠ '>' := by
  refine ⟨?_, ?_, ?_⟩
  · rw [isAlphanum_iff] at h
    simp only [Char.le_def, UInt32.le_iff_toNat_le] at h
    change (65 ≤ c.toNat ∧ c.toNat ≤ 90 ∨ 97 ≤ c.toNat ∧ c.toNat ≤ 122) ∨
      48 ≤ c.toNat ∧ c.toNat ≤ 57 at h
    omega
  · rintro rfl
    exact absurd h (by decide)
  · rintro rfl
    exact absurd h (by decide)

theorem visible_of_letterEscape? {letter : Char} (h : letterEscape? letter = some c) :
    0x20 ≤ letter.toNat ∧ letter ≠ '<' ∧ letter ≠ '>' := by
  unfold letterEscape? at h
  split at h
  all_goals cases h
  all_goals decide

/-- No spelling has a control character, and none has an angle bracket unless it
is the one of an angle bracket. -/
theorem Spelling.visible (h : Spelling c cs) :
    forall d, d ∈ cs → 0x20 ≤ d.toNat ∧ (c ≠ '<' ∧ c ≠ '>' → d ≠ '<' ∧ d ≠ '>') := by
  cases h with
  | plain hquote hslash hprintable =>
      intro d hd
      rw [List.mem_singleton] at hd
      subst hd
      exact ⟨hprintable, id⟩
  | letter h =>
      intro d hd
      have hletter := visible_of_letterEscape? h
      rcases List.mem_cons.mp hd with rfl | hd
      · exact ⟨by decide, fun _ => by decide⟩
      · rw [List.mem_singleton] at hd
        subst hd
        exact ⟨hletter.left, fun _ => hletter.right⟩
  | unit h hlow =>
      intro d hd
      rcases List.mem_cons.mp hd with rfl | hd
      · exact ⟨by decide, fun _ => by decide⟩
      · rcases List.mem_cons.mp hd with rfl | hd
        · exact ⟨by decide, fun _ => by decide⟩
        · have hvisible :=
            visible_of_isAlphanum (isAlphanum_of_readHexadecimal? h d hd)
          exact ⟨hvisible.left, fun _ => hvisible.right⟩

end Json

/-!
# Literals without angle brackets
-/

namespace Text

open Json (Spelling)

variable {c : Char}

/-- A character as a literal inside markup has it. -/
def markupChar (c : Char) : List Char :=
  (escapeChar c).flatMap escapeBracket

theorem toList_markupFreeLiteral (s : String) :
    (markupFreeLiteral s).toList = '"' :: (s.toList.flatMap markupChar ++ ['"']) := by
  unfold markupFreeLiteral literal
  simp only [toList_replaceChars, String.toList_append, List.flatMap_append,
    List.flatMap_assoc]
  rfl

theorem escapeBracket_of_ne (h : c ≠ '<' ∧ c ≠ '>') : escapeBracket c = [c] := by
  unfold escapeBracket
  rw [if_neg h.left, if_neg h.right]

/-- A character that stands for itself in a literal inside markup. -/
def StandsForItself (c : Char) : Prop :=
  c ≠ '"' ∧ c ≠ '\\' ∧ c ≠ '<' ∧ c ≠ '>' ∧ 0x20 ≤ c.toNat

theorem markupChar_of_standsForItself (h : StandsForItself c) : markupChar c = [c] := by
  rcases h with ⟨hquote, hslash, hlt, hgt, hprintable⟩
  have hcontrol : forall d : Char, d.toNat < 0x20 → c ≠ d := by
    rintro d hd rfl
    exact Nat.not_lt.mpr hprintable hd
  have hescape : escapeChar c = [c] := by
    unfold escapeChar
    rw [if_neg hquote, if_neg hslash, if_neg (hcontrol _ (by decide)),
      if_neg (hcontrol _ (by decide)), if_neg (hcontrol _ (by decide)),
      if_neg (hcontrol _ (by decide)), if_neg (hcontrol _ (by decide)),
      if_neg (Nat.not_lt.mpr hprintable)]
  unfold markupChar
  rw [hescape, List.flatMap_singleton, escapeBracket_of_ne ⟨hlt, hgt⟩]

theorem markupFreeLiteral_of_standsForItself {s : String}
    (h : forall c, c ∈ s.toList → StandsForItself c) :
    markupFreeLiteral s = "\"" ++ s ++ "\"" := by
  apply String.toList_injective
  rw [toList_markupFreeLiteral,
    flatMap_unchanged fun c hc => markupChar_of_standsForItself (h c hc)]
  simp

theorem spelling_markupChar (c : Char) : Spelling c (markupChar c) := by
  have hspelling := Json.spelling_escapeChar c
  unfold markupChar
  by_cases hlt : c = '<'
  · subst hlt
    exact Spelling.unit rfl (by decide)
  · by_cases hgt : c = '>'
    · subst hgt
      exact Spelling.unit rfl (by decide)
    · rw [flatMap_unchanged fun d hd =>
        escapeBracket_of_ne ((hspelling.visible d hd).right ⟨hlt, hgt⟩)]
      exact hspelling

/-- A literal that may stand inside markup: between two quotation marks there is
no other one that is not escaped, no angle bracket and no control character, and
the text is what JSON and scripts read. -/
structure MarkupLiteral (s literal : String) : Prop where
  quoted : exists inner, literal.toList = '"' :: (inner ++ ['"']) ∧
    Contained inner
  bracketless : Bracketless literal.toList
  visible : forall c, c ∈ literal.toList → 0x20 ≤ c.toNat
  parsed : Json.parse? literal = some (.string (some s))
  evaluated : Script.evaluate? literal = some s

theorem parse?_spelled {write : Char → List Char}
    (h : forall c, Spelling c (write c)) {s literal : String}
    (hliteral : literal.toList = '"' :: (s.toList.flatMap write ++ ['"'])) :
    Json.parse? literal = some (.string (some s)) := by
  unfold Json.parse?
  simp only [hliteral]
  rw [Json.readValue?_string (Json.readString?_spelled h s [])]
  rfl

theorem evaluate?_spelled {write : Char → List Char}
    (h : forall c, Spelling c (write c)) {s literal : String}
    (hliteral : literal.toList = '"' :: (s.toList.flatMap write ++ ['"'])) :
    Script.evaluate? literal = some s := by
  rcases Json.script_readPieces?_spelled h s.toList with ⟨pieces, hread, hjoin⟩
  unfold Script.evaluate?
  rw [hliteral]
  simp only [hread, Option.bind_some, hjoin, Option.map_some,
    String.ofList_toList]

theorem markupLiteral (s : String) : MarkupLiteral s (markupFreeLiteral s) := by
  have hchars := toList_markupFreeLiteral s
  refine ⟨⟨_, hchars, ?_⟩, bracketless_markupFreeLiteral s, ?_,
    parse?_spelled spelling_markupChar hchars,
    evaluate?_spelled spelling_markupChar hchars⟩
  · exact Contained.flatMap (fun c => (spelling_markupChar c).contained) s.toList
  · rw [hchars]
    intro c hc
    rw [List.mem_cons, List.mem_append, List.mem_singleton] at hc
    rcases hc with rfl | hc | rfl
    · decide
    · rcases List.mem_flatMap.mp hc with ⟨d, _, hc⟩
      exact ((spelling_markupChar d).visible c hc).left
    · decide

theorem MarkupLiteral.unique {s t literal : String} (hs : MarkupLiteral s literal)
    (ht : MarkupLiteral t literal) : s = t :=
  Option.some.inj (hs.evaluated.symm.trans ht.evaluated)

/-- Every text has a literal that may stand inside markup and reads back as the
text, whatever brackets, backslashes or escapes the text contains; so no two texts
have the same one. -/
theorem markupFreeLiteral_reads_back :
    (forall s, MarkupLiteral s (markupFreeLiteral s)) ∧
      Function.Injective markupFreeLiteral := by
  refine ⟨markupLiteral, ?_⟩
  intro s t heq
  have hs := markupLiteral s
  rw [heq] at hs
  exact hs.unique (markupLiteral t)

/-- A bracket behind a backslash, and a text that looks like an escape. -/
example : markupFreeLiteral "\\< \\u003c" = "\"\\\\\\u003c \\\\u003c\"" := by
  decide

end Text

end MarkupForest
