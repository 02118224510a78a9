import MarkupForest.Profile.UtilityClass
import MarkupForest.Proofs.NumberLiterals
import Mathlib.Data.List.TakeWhile

/-!
# Class lists

Whoever reads a class list splits it at blanks.  The words of a list of tokens
with spaces in between are the words of the tokens, one token after the other.
All tokens are words, except that the value of `align` goes into a token as it is;
a blank in it splits the token, or makes the space behind it wider.
-/

namespace MarkupForest

namespace Text

/-- A text that is one word: some characters, none of them blank. -/
def IsWord (s : String) : Prop :=
  s ≠ "" ∧ forall c, c ∈ s.toList → isBlank c = false

instance (s : String) : Decidable (IsWord s) :=
  @instDecidableAnd _ _ inferInstance
    (List.decidableBAll (fun c => isBlank c = false) s.toList)

/-- A text that is its words with one space between any two of them. -/
def SingleSpaced (s : String) : Prop :=
  String.intercalate " " (words s) = s

variable {p : Char → Bool} {c : Char} {cs rest : List Char} {s t : String}
  {parts others : List String}

/-!
# Words of texts in parts
-/

theorem takeWhile_append_stop (hstop : p c = false) :
    (cs ++ c :: rest).takeWhile p = cs.takeWhile p := by
  induction cs with
  | nil => exact List.takeWhile_cons_of_neg (by rw [hstop]; exact Bool.false_ne_true)
  | cons d cs ih =>
      rw [List.cons_append, List.takeWhile_cons, List.takeWhile_cons, ih]

theorem dropWhile_append_stop (hstop : p c = false) :
    (cs ++ c :: rest).dropWhile p = cs.dropWhile p ++ c :: rest := by
  induction cs with
  | nil => exact List.dropWhile_cons_of_neg (by rw [hstop]; exact Bool.false_ne_true)
  | cons d cs ih =>
      rw [List.cons_append, List.dropWhile_cons, List.dropWhile_cons, ih]
      split
      · rfl
      · rfl

theorem wordsOf_nil : wordsOf [] = [] := by
  rw [wordsOf.eq_def]

theorem wordsOf_cons_blank (h : isBlank c = true) :
    wordsOf (c :: rest) = wordsOf rest := by
  rw [wordsOf.eq_def]
  exact if_pos h

theorem wordsOf_cons_ink (h : isBlank c = false) :
    wordsOf (c :: rest) =
      (c :: rest.takeWhile isInk) :: wordsOf (rest.dropWhile isInk) := by
  rw [wordsOf.eq_def]
  exact if_neg (by rw [h]; exact Bool.false_ne_true)

theorem isInk_of_blank (h : isBlank c = true) : isInk c = false := by
  rw [isInk, h]
  rfl

theorem wordsOf_append_blank (h : isBlank c = true) (cs rest : List Char) :
    wordsOf (cs ++ c :: rest) = wordsOf cs ++ wordsOf rest := by
  induction cs using wordsOf.induct with
  | case1 =>
      rw [List.nil_append, wordsOf_cons_blank h, wordsOf_nil, List.nil_append]
  | case2 d cs hblank ih =>
      rw [List.cons_append, wordsOf_cons_blank hblank, wordsOf_cons_blank hblank, ih]
  | case3 d cs hink ih =>
      have hd : isBlank d = false := Bool.eq_false_iff.mpr hink
      have hstop := isInk_of_blank h
      rw [List.cons_append, wordsOf_cons_ink hd, wordsOf_cons_ink hd,
        takeWhile_append_stop hstop, dropWhile_append_stop hstop, ih,
        List.cons_append]

theorem words_empty : words "" = [] := by
  unfold words
  rw [String.toList_empty, wordsOf_nil, List.map_nil]

theorem words_append_space (s t : String) :
    words (s ++ " " ++ t) = words s ++ words t := by
  unfold words
  rw [String.toList_append, String.toList_append, List.append_assoc,
    ← List.map_append]
  exact congrArg (List.map String.ofList)
    (wordsOf_append_blank (by decide : isBlank ' ' = true) s.toList t.toList)

theorem words_intercalate (parts : List String) :
    words (String.intercalate " " parts) = parts.flatMap words := by
  induction parts with
  | nil =>
      rw [String.intercalate_nil, words_empty, List.flatMap_nil]
  | cons part rest ih =>
      rw [List.flatMap_cons, ← ih]
      cases rest with
      | nil => simp [words_empty]
      | cons next others =>
          rw [String.intercalate_cons_of_ne_nil (List.cons_ne_nil next others),
            words_append_space]

/-!
# Single words
-/

theorem wordsOf_of_ink (hne : cs ≠ [])
    (hink : forall c, c ∈ cs → isBlank c = false) : wordsOf cs = [cs] := by
  cases cs with
  | nil => exact absurd rfl hne
  | cons c rest =>
      have hrest : forall d, d ∈ rest → isInk d = true := by
        intro d hd
        rw [isInk, hink d (List.mem_cons_of_mem c hd)]
        rfl
      rw [wordsOf_cons_ink (hink c List.mem_cons_self),
        List.takeWhile_eq_self_iff.mpr hrest, List.dropWhile_eq_nil_iff.mpr hrest,
        wordsOf_nil]

theorem IsWord.words_eq (h : IsWord s) : words s = [s] := by
  unfold words
  rw [wordsOf_of_ink (by simpa using h.left) h.right, List.map_singleton,
    String.ofList_toList]

theorem ink_of_mem_wordsOf {word : List Char} (h : word ∈ wordsOf cs) :
    word ≠ [] ∧ forall c, c ∈ word → isBlank c = false := by
  induction cs using wordsOf.induct with
  | case1 =>
      rw [wordsOf_nil] at h
      cases h
  | case2 d cs hblank ih =>
      rw [wordsOf_cons_blank hblank] at h
      exact ih h
  | case3 d cs hink ih =>
      have hd : isBlank d = false := Bool.eq_false_iff.mpr hink
      rw [wordsOf_cons_ink hd] at h
      rcases List.mem_cons.mp h with rfl | h
      · constructor
        · exact List.cons_ne_nil _ _
        · intro c hc
          rcases List.mem_cons.mp hc with rfl | hc
          · exact hd
          · have hc := List.mem_takeWhile_imp hc
            rw [isInk, Bool.not_eq_true'] at hc
            exact hc
      · exact ih h

theorem isWord_of_mem_words (h : t ∈ words s) : IsWord t := by
  rcases List.mem_map.mp h with ⟨word, hword, rfl⟩
  rcases ink_of_mem_wordsOf hword with ⟨hne, hink⟩
  constructor
  · simpa using hne
  · rw [String.toList_ofList]
    exact hink

theorem words_eq_singleton_iff : words s = [s] ↔ IsWord s := by
  constructor
  · intro h
    exact isWord_of_mem_words (h ▸ List.mem_singleton_self s)
  · exact IsWord.words_eq

theorem flatMap_words_eq (h : forall part, part ∈ parts → IsWord part) :
    parts.flatMap words = parts := by
  induction parts with
  | nil => rfl
  | cons part rest ih =>
      rw [List.flatMap_cons, (h part List.mem_cons_self).words_eq,
        ih fun other hother => h other (List.mem_cons_of_mem part hother)]
      rfl

theorem isBlank_of_isDigit (h : c.isDigit = true) : isBlank c = false := by
  simp only [Char.isDigit, Bool.and_eq_true, decide_eq_true_eq] at h
  have hlower : 48 ≤ c.toNat := UInt32.le_iff_toNat_le.mp h.left
  have hupper : c.toNat ≤ 57 := UInt32.le_iff_toNat_le.mp h.right
  simp only [isBlank, Bool.or_eq_false_iff, Bool.and_eq_false_iff, beq_eq_false_iff_ne,
    decide_eq_false_iff_not]
  omega

theorem isWord_append_iff (h : IsWord s) :
    IsWord (s ++ t) ↔ forall c, c ∈ t.toList → isBlank c = false := by
  unfold IsWord
  simp only [String.toList_append, List.mem_append]
  constructor
  · intro hword c hc
    exact hword.right c (Or.inr hc)
  · intro hink
    constructor
    · intro hempty
      exact h.left (String.append_eq_empty_iff.mp hempty).left
    · rintro c (hc | hc)
      · exact h.right c hc
      · exact hink c hc

theorem words_ne_nil_of_isWord_append (h : IsWord s) : words (s ++ t) ≠ [] := by
  unfold words
  rw [String.toList_append]
  cases hs : s.toList with
  | nil => exact absurd (by simpa using hs) h.left
  | cons c rest =>
      have hc : isBlank c = false := h.right c (hs ▸ List.mem_cons_self)
      rw [List.cons_append, wordsOf_cons_ink hc]
      exact List.cons_ne_nil _ _

theorem exists_around (separator : String) (before after : List String) :
    exists front back, forall parts, parts ≠ [] →
      String.intercalate separator (before ++ parts ++ after) =
        front ++ String.intercalate separator parts ++ back := by
  have hfront : exists front, forall parts, parts ≠ [] →
      String.intercalate separator (before ++ parts) =
        front ++ String.intercalate separator parts := by
    cases before with
    | nil => exact ⟨"", fun parts _ => String.empty_append.symm⟩
    | cons first rest =>
        exact ⟨String.intercalate separator (first :: rest) ++ separator,
          fun parts hparts =>
            String.intercalate_append_of_ne_nil (List.cons_ne_nil first rest) hparts⟩
  have hback : exists back, forall parts, parts ≠ [] →
      String.intercalate separator (parts ++ after) =
        String.intercalate separator parts ++ back := by
    cases after with
    | nil =>
        refine ⟨"", fun parts _ => ?_⟩
        rw [List.append_nil, String.append_empty]
    | cons next rest =>
        refine ⟨separator ++ String.intercalate separator (next :: rest),
          fun parts hparts => ?_⟩
        rw [String.intercalate_append_of_ne_nil hparts (List.cons_ne_nil next rest),
          String.append_assoc]
  rcases hfront with ⟨front, hfront⟩
  rcases hback with ⟨back, hback⟩
  refine ⟨front, back, fun parts hparts => ?_⟩
  rw [hback _ (List.append_ne_nil_of_right_ne_nil before hparts), hfront parts hparts]

/-- What stands between the same tokens shows in the whole list. -/
theorem intercalate_between_iff {before after : List String} {separator : String}
    (hparts : parts ≠ []) (hothers : others ≠ []) :
    String.intercalate separator (before ++ parts ++ after) =
        String.intercalate separator (before ++ others ++ after) ↔
      String.intercalate separator parts = String.intercalate separator others := by
  rcases exists_around separator before after with ⟨front, back, haround⟩
  rw [haround parts hparts, haround others hothers, String.append_left_inj,
    String.append_right_inj]

end Text

namespace UtilityClass

open Text

variable {t : String}

theorem isWord_headingSize (level : Nat) : IsWord (headingSize level) := by
  unfold headingSize
  split <;> decide

theorem isWord_buttonColors (variant : String) :
    forall t, t ∈ buttonColors variant → IsWord t := by
  unfold buttonColors
  split_ifs <;> decide

theorem isWord_buttonSize (size : String) :
    forall t, t ∈ buttonSize size → IsWord t := by
  unfold buttonSize
  split_ifs <;> decide

theorem isWord_badgeColors (variant : String) :
    forall t, t ∈ badgeColors variant → IsWord t := by
  unfold badgeColors
  split_ifs <;> decide

theorem isWord_alertColors (variant : String) :
    forall t, t ∈ alertColors variant → IsWord t := by
  unfold alertColors
  split_ifs <;> decide

theorem isWord_headingTokens (node : Node) (descriptor : Descriptor)
    (h : t ∈ headingTokens node descriptor) : IsWord t := by
  unfold headingTokens at h
  simp only at h
  split at h
  · rw [List.mem_singleton.mp h]
    exact isWord_headingSize _
  · cases h

theorem isWord_gridTokens (node : Node) (h : t ∈ gridTokens node) : IsWord t := by
  unfold gridTokens at h
  split at h
  · rename_i columns _
    rw [List.mem_singleton.mp h, isWord_append_iff (by decide)]
    rcases Int.eq_ofNat_of_zero_le (Int.le_trans (by decide)
      (Int.le_max_left 1 columns.truncate) : 0 ≤ max 1 columns.truncate) with
      ⟨count, hcount⟩
    rw [hcount]
    intro c hc
    have hdigits : c ∈ (toString count).toList := hc
    rw [Json.toList_toString] at hdigits
    exact isBlank_of_isDigit (Json.digits_toDigits count c hdigits)
  · cases h

theorem isWord_listTokens (node : Node) :
    forall t, t ∈ listTokens node → IsWord t := by
  unfold listTokens
  split_ifs <;> decide

theorem isWord_buttonTokens (node : Node) (h : t ∈ buttonTokens node) :
    IsWord t := by
  have hdisabled : forall t, t ∈ (if node.hasFlag "disabled" then
      ["opacity-50", "cursor-not-allowed"] else []) → IsWord t := by
    split_ifs <;> decide
  rcases List.mem_append.mp h with h | h
  · rcases List.mem_append.mp h with h | h
    · exact isWord_buttonColors _ t h
    · exact isWord_buttonSize _ t h
  · exact hdisabled t h

theorem isWord_typeTokens (node : Node) (descriptor : Descriptor)
    (h : t ∈ typeTokens node descriptor) : IsWord t := by
  unfold typeTokens at h
  split at h
  · exact isWord_headingTokens node descriptor h
  · exact isWord_gridTokens node h
  · exact isWord_listTokens node t h
  · exact isWord_buttonTokens node h
  · exact isWord_badgeColors _ t h
  · exact isWord_alertColors _ t h
  · cases h

/-!
# The words of a class list
-/

variable (node : Node) (descriptor : Descriptor) (base : String)

theorem words_classList :
    words (classList node descriptor base) =
      words base ++ typeTokens node descriptor ++
        ((node.textProperty? "align").map fun align =>
          words ("text-" ++ align)).getD [] ++
        ((node.textProperty? "className").map words).getD [] := by
  have hbase : (words base).flatMap words = words base :=
    flatMap_words_eq fun _ => isWord_of_mem_words
  have htype : (typeTokens node descriptor).flatMap words =
      typeTokens node descriptor :=
    flatMap_words_eq fun _ => isWord_typeTokens node descriptor
  have halign : ((node.textProperty? "align").map ("text-" ++ ·)).toList.flatMap
      words = ((node.textProperty? "align").map fun align =>
        words ("text-" ++ align)).getD [] := by
    cases node.textProperty? "align" with
    | none => rfl
    | some align => exact List.append_nil _
  have hextra : (((node.textProperty? "className").map words).getD []).flatMap
      words = ((node.textProperty? "className").map words).getD [] := by
    cases node.textProperty? "className" with
    | none => rfl
    | some extra => exact flatMap_words_eq fun _ => isWord_of_mem_words
  unfold classList tokens
  rw [words_intercalate, List.flatMap_append, List.flatMap_append,
    List.flatMap_append, hbase, htype, halign, hextra]

theorem words_classList_eq_tokens_iff :
    words (classList node descriptor base) = tokens node descriptor base ↔
      forall align, node.textProperty? "align" = some align →
        forall c, c ∈ align.toList → isBlank c = false := by
  rw [words_classList]
  unfold tokens
  cases node.textProperty? "align" with
  | none => simp
  | some align =>
      simp only [Option.map_some, Option.getD_some, Option.toList_some,
        List.append_cancel_right_eq, List.append_cancel_left_eq,
        words_eq_singleton_iff, isWord_append_iff (by decide : IsWord "text-"),
        Option.some.injEq, forall_eq']

theorem singleSpaced_classList_iff :
    SingleSpaced (classList node descriptor base) ↔
      forall align, node.textProperty? "align" = some align →
        SingleSpaced ("text-" ++ align) := by
  unfold SingleSpaced
  rw [words_classList]
  unfold classList tokens
  cases node.textProperty? "align" with
  | none => simp
  | some align =>
      have hwords := words_ne_nil_of_isWord_append (t := align)
        (by decide : IsWord "text-")
      simp only [Option.map_some, Option.getD_some, Option.toList_some,
        Option.some.injEq, forall_eq',
        intercalate_between_iff hwords (List.cons_ne_nil _ []),
        String.intercalate_singleton]

/-- A class list has the words of its base, those derived from the type, one for
the alignment and those of `className`, in this order and with single spaces in
between, exactly if there is no blank in the alignment.  Otherwise the words of
the alignment stand in its place, with the blanks that it has between them. -/
theorem classList_normalised_iff (node : Node) (descriptor : Descriptor)
    (base : String) :
    let classes := classList node descriptor base
    let derived := typeTokens node descriptor
    let aligned := ((node.textProperty? "align").map ("text-" ++ ·)).toList
    let extra := ((node.textProperty? "className").map words).getD []
    (SingleSpaced classes ∧
        words classes = words base ++ derived ++ aligned ++ extra ↔
      forall align, node.textProperty? "align" = some align →
        forall c, c ∈ align.toList → isBlank c = false) ∧
    (SingleSpaced classes ↔
      forall align, node.textProperty? "align" = some align →
        SingleSpaced ("text-" ++ align)) ∧
    words classes = words base ++ derived ++
      ((node.textProperty? "align").map fun align =>
        words ("text-" ++ align)).getD [] ++ extra := by
  intro classes derived aligned extra
  refine ⟨?_, singleSpaced_classList_iff node descriptor base,
    words_classList node descriptor base⟩
  rw [← words_classList_eq_tokens_iff node descriptor base]
  constructor
  · exact And.right
  · intro hwords
    constructor
    · show String.intercalate " " (words classes) = classes
      rw [hwords]
      rfl
    · exact hwords

/-- A blank at the end of an alignment leaves two spaces in the class list. -/
theorem padded_alignment_kept :
    let node : Node :=
      { id := .generate .card 1
        type := .card
        properties :=
          .ofList [("align", .text "center "), ("className", .text "wide")]
        parent := none
        children := [] }
    let classes := classList node (.basic .card "div") "p-6"
    node.textProperty? "align" = some "center " ∧
    node.textProperty? "className" = some "wide" ∧
    classes = "p-6 text-center  wide" ∧
    ¬ (SingleSpaced classes ∧
      words classes = words "p-6" ++ typeTokens node (.basic .card "div") ++
        ["text-center "] ++ words "wide") := by
  intro node classes
  have hclasses : classes = "p-6 text-center  wide" := by
    decide +kernel
  refine ⟨rfl, rfl, hclasses, ?_⟩
  rintro ⟨hspaces, _⟩
  rw [hclasses] at hspaces
  have hshort : String.intercalate " " (words "p-6 text-center  wide") =
      "p-6 text-center wide" := by
    decide +kernel
  rw [SingleSpaced, hshort] at hspaces
  revert hspaces
  decide

end UtilityClass

end MarkupForest
