import Mathlib.Data.List.Forall2
import MarkupForest.Proofs.Entities
import MarkupForest.Proofs.ProperNames

/-!
# Attributes read back

A reader goes through written attributes from left to right: a space, a name, and
behind an equals sign a value, either between quotation marks or between braces,
each up to the first delimiter.  What it finds are the attributes that were
written, one by one and in order.  Values are encoded so that no delimiter is left
in them, hence no value can end early, and none can look like a further attribute.
-/

namespace MarkupForest

namespace Markup

/-!
# The reader
-/

/-- What stands behind the name of an attribute. -/
inductive Reading where
  | bare
  | quoted (content : String)
  | braced (content : String)
  deriving DecidableEq

/-- Everything up to the first delimiter, and what stands behind it. -/
def readUntil? (delimiter : Char) (cs : List Char) : Option (String × List Char) :=
  match cs.dropWhile (· ≠ delimiter) with
  | [] => none
  | _ :: rest => some (String.ofList (cs.takeWhile (· ≠ delimiter)), rest)

def readValue? : List Char → Option (Reading × List Char)
  | '=' :: '"' :: rest =>
      (readUntil? '"' rest).map fun answer => (.quoted answer.1, answer.2)
  | '=' :: '\x7b' :: rest =>
      (readUntil? '\x7d' rest).map fun answer => (.braced answer.1, answer.2)
  | '=' :: _ => none
  | rest => some (.bare, rest)

/-- A name goes on to the next space or equals sign. -/
def inName (c : Char) : Bool := c ≠ ' ' && c ≠ '='

theorem length_readUntil?_le {delimiter : Char} {cs rest : List Char}
    {content : String} (h : readUntil? delimiter cs = some (content, rest)) :
    rest.length ≤ cs.length := by
  unfold readUntil? at h
  have hle := (List.dropWhile_suffix (fun c => decide (c ≠ delimiter))
    (l := cs)).length_le
  split at h
  · cases h
  · rename_i hrest
    cases h
    rw [hrest, List.length_cons] at hle
    omega

theorem length_readValue?_le {cs rest : List Char} {value : Reading}
    (h : readValue? cs = some (value, rest)) : rest.length ≤ cs.length := by
  unfold readValue? at h
  split at h
  · rcases Option.map_eq_some_iff.mp h with ⟨answer, hanswer, heq⟩
    cases heq
    have hle := length_readUntil?_le hanswer
    simp only [List.length_cons]
    omega
  · rcases Option.map_eq_some_iff.mp h with ⟨answer, hanswer, heq⟩
    cases heq
    have hle := length_readUntil?_le hanswer
    simp only [List.length_cons]
    omega
  · cases h
  · cases h
    exact Nat.le_refl _

/-- The attributes of a text, each with a single space in front of its name. -/
def readAttributes? : List Char → Option (List (String × Reading))
  | [] => some []
  | c :: rest =>
      if c = ' ' ∧ rest.takeWhile inName ≠ [] then
        match _h : readValue? (rest.dropWhile inName) with
        | none => none
        | some (value, behind) =>
            (readAttributes? behind).map
              ((String.ofList (rest.takeWhile inName), value) :: ·)
      else
        none
termination_by cs => cs.length
decreasing_by
  have hvalue := length_readValue?_le _h
  have hname := (List.dropWhile_suffix inName (l := rest)).length_le
  rw [List.length_cons]
  omega

theorem readAttributes?_space {rest behind : List Char} {value : Reading}
    (hname : rest.takeWhile inName ≠ [])
    (hvalue : readValue? (rest.dropWhile inName) = some (value, behind)) :
    readAttributes? (' ' :: rest) = (readAttributes? behind).map
      ((String.ofList (rest.takeWhile inName), value) :: ·) := by
  rw [readAttributes?, if_pos ⟨rfl, hname⟩]
  split
  · rename_i hnone
    rw [hvalue] at hnone
    cases hnone
  · rename_i heq
    rw [hvalue] at heq
    cases heq
    rfl

/-!
# What attributes show
-/

/-- How the value of an attribute is to be read: a text between quotation marks
once its entities are decoded, a number as it stands in one pair of delimiters or
the other, a true value by the name alone, and a false one as a word in braces. -/
inductive Carries : Dialect → AttributeValue → Reading → Prop where
  | text (dialect : Dialect) {content written : String}
      (h : Text.decoded written = content) :
      Carries dialect (.text content) (.quoted written)
  | quotedNumber (x : Binary64) :
      Carries .html (.number x) (.quoted x.plainText)
  | bracedNumber (x : Binary64) :
      Carries .jsx (.number x) (.braced x.plainText)
  | set (dialect : Dialect) : Carries dialect (.flag true) .bare
  | unset : Carries .jsx (.flag false) (.braced "false")

/-- A name that ends where a reader takes it to end, such as one of letters and
hyphens. -/
def IsAttributeName (s : String) : Prop :=
  s.toList ≠ [] ∧ forall c, c ∈ s.toList → inName c = true

instance (s : String) : Decidable (IsAttributeName s) :=
  @instDecidableAnd _ _ inferInstance
    (List.decidableBAll (fun c => inName c = true) s.toList)

theorem IsPlainName.isAttributeName {s : String} (h : IsPlainName s) : IsAttributeName s := by
  refine ⟨h.left, ?_⟩
  intro c hc
  unfold inName
  rw [Bool.and_eq_true, decide_eq_true_eq, decide_eq_true_eq]
  exact ⟨h.isName.ne hc (by decide), h.isName.ne hc (by decide)⟩

/-- What may stand behind an attribute: nothing, or the space of the next one. -/
def Separated (cs : List Char) : Prop := cs = [] ∨ exists tail, cs = ' ' :: tail

variable {dialect : Dialect} {a : Attribute} {rest : List Char}

theorem readUntil?_append {delimiter : Char} {content : String}
    (h : delimiter ∉ content.toList) (rest : List Char) :
    readUntil? delimiter (content.toList ++ delimiter :: rest) =
      some (content, rest) := by
  have hrun : forall c, c ∈ content.toList → decide (c ≠ delimiter) = true :=
    fun c hc => decide_eq_true fun heq => h (heq ▸ hc)
  have hstop : forall c tail, delimiter :: rest = c :: tail →
      decide (c ≠ delimiter) = false := by
    intro c tail heq
    cases heq
    exact decide_eq_false fun hne => hne rfl
  unfold readUntil?
  rw [Text.dropWhile_run hrun hstop, Text.takeWhile_run hrun hstop,
    String.ofList_toList]

theorem readValue?_quoted {content : String} (h : '"' ∉ content.toList)
    (rest : List Char) :
    readValue? (("=\"" ++ content ++ "\"").toList ++ rest) =
      some (.quoted content, rest) := by
  have hchars : ("=\"" ++ content ++ "\"").toList ++ rest =
      '=' :: '"' :: (content.toList ++ '"' :: rest) := by simp
  rw [hchars, readValue?, readUntil?_append h]
  rfl

theorem readValue?_braced {content : String} (h : '\x7d' ∉ content.toList)
    (rest : List Char) :
    readValue? (("=\x7b" ++ content ++ "\x7d").toList ++ rest) =
      some (.braced content, rest) := by
  have hchars : ("=\x7b" ++ content ++ "\x7d").toList ++ rest =
      '=' :: '\x7b' :: (content.toList ++ '\x7d' :: rest) := by simp
  rw [hchars, readValue?, readUntil?_append h]
  rfl

theorem readValue?_bare (h : Separated rest) :
    readValue? rest = some (.bare, rest) := by
  rcases h with rfl | ⟨tail, rfl⟩
  · rfl
  · rfl

theorem readValue?_valueText {value : AttributeValue} {w : String}
    (h : Attribute.valueText? dialect value = some w) :
    exists reading, Carries dialect value reading ∧ forall rest, Separated rest →
      readValue? (w.toList ++ rest) = some (reading, rest) := by
  cases value with
  | text content =>
      have hw : w = "=\"" ++ Text.encodeQuoted content ++ "\"" := by
        cases dialect <;> cases h <;> rfl
      subst hw
      exact ⟨_, .text dialect (Text.encodedAs_quoted content).decoded,
        fun rest _ => readValue?_quoted (Text.not_mem_encodeQuoted content) rest⟩
  | number x =>
      have hnumeral := Text.numeral_plainText x
      cases dialect with
      | html =>
          cases h
          exact ⟨_, .quotedNumber x,
            fun rest _ => readValue?_quoted (hnumeral.not_mem (by decide)) rest⟩
      | jsx =>
          cases h
          exact ⟨_, .bracedNumber x,
            fun rest _ => readValue?_braced (hnumeral.not_mem (by decide)) rest⟩
  | flag content =>
      cases content with
      | true =>
          have hw : w = "" := by
            cases dialect <;> cases h <;> rfl
          subst hw
          exact ⟨_, .set dialect, fun rest => readValue?_bare⟩
      | false =>
          cases dialect with
          | html => cases h
          | jsx =>
              cases h
              exact ⟨_, .unset, fun rest _ =>
                @readValue?_braced "false" (by decide) rest⟩

theorem valueText_head {value : AttributeValue} {w : String}
    (h : Attribute.valueText? dialect value = some w) :
    w.toList = [] ∨ exists tail, w.toList = '=' :: tail := by
  cases value with
  | text content => cases dialect <;> cases h <;> simp
  | number x => cases dialect <;> cases h <;> simp
  | flag content => cases content <;> cases dialect <;> cases h <;> simp

/-!
# Lists of attributes
-/

theorem isAttributeName_attributeName (dialect : Dialect) {name : String}
    (h : IsAttributeName name) :
    IsAttributeName (dialect.attributeName name) := by
  rcases dialect.attributeName_cases name with hsame | hother
  · rw [hsame]
    exact h
  · revert hother
    generalize dialect.attributeName name = written
    revert written
    decide

theorem writeAll_cons (dialect : Dialect) (a : Attribute) (others : List Attribute) :
    Attribute.writeAll dialect (a :: others) =
      (match a.write? dialect with
        | some w => " " ++ w
        | none => "") ++ Attribute.writeAll dialect others := by
  unfold Attribute.writeAll
  cases hw : a.write? dialect with
  | none => rw [List.filterMap_cons_none hw, String.empty_append]
  | some w => rw [List.filterMap_cons_some hw, List.map_cons, String.join_cons]

theorem separated_writeAll (dialect : Dialect) (attributes : List Attribute) :
    Separated (Attribute.writeAll dialect attributes).toList := by
  induction attributes with
  | nil => exact Or.inl rfl
  | cons a others ih =>
      rw [writeAll_cons]
      cases a.write? dialect with
      | none =>
          rw [String.empty_append]
          exact ih
      | some w =>
          rw [String.append_assoc, String.toList_append]
          exact Or.inr ⟨_, rfl⟩

/-- One attribute is read, and then what stands behind it. -/
theorem readAttributes?_write {w : String} (hname : IsAttributeName a.name)
    (hw : a.write? dialect = some w) (hrest : Separated rest) :
    exists reading, Carries dialect a.value reading ∧
      readAttributes? (' ' :: (w.toList ++ rest)) =
        (readAttributes? rest).map
          ((dialect.attributeName a.name, reading) :: ·) := by
  rcases Option.map_eq_some_iff.mp hw with ⟨value, hvalue, rfl⟩
  rcases readValue?_valueText hvalue with ⟨reading, hcarries, hread⟩
  rcases isAttributeName_attributeName dialect hname with ⟨hnonempty, hrun⟩
  have hstop : forall c tail, value.toList ++ rest = c :: tail →
      inName c = false := by
    intro c tail heq
    rcases valueText_head hvalue with hempty | ⟨inner, hinner⟩
    · rw [hempty, List.nil_append] at heq
      rcases hrest with rfl | ⟨others, rfl⟩
      · cases heq
      · cases heq
        rfl
    · rw [hinner] at heq
      cases heq
      rfl
  have htake := Text.takeWhile_run hrun hstop
  have hdrop := Text.dropWhile_run hrun hstop
  refine ⟨reading, hcarries, ?_⟩
  rw [String.toList_append, List.append_assoc,
    readAttributes?_space (htake.symm ▸ hnonempty)
      ((congrArg readValue? hdrop).trans (hread rest hrest)),
    htake, String.ofList_toList]

theorem write?_eq_none_iff (dialect : Dialect) (a : Attribute) :
    a.write? dialect = none ↔ dialect = .html ∧ a.value = .flag false := by
  unfold Attribute.write?
  rw [Option.map_eq_none_iff]
  cases a.value with
  | text content => cases dialect <;> simp [Attribute.valueText?]
  | number x => cases dialect <;> simp [Attribute.valueText?]
  | flag content =>
      cases content <;> cases dialect <;> simp [Attribute.valueText?]

/-- The attributes that are written are found, each by its name and with its value,
and nothing else is found: whatever the values are, they neither add an attribute
nor split or hide one.  Only a false value in HTML leaves its attribute out.  The
names may be any of letters and hyphens, and the standard profiles write no
others. -/
theorem attributes_read_back (dialect : Dialect) (attributes : List Attribute)
    (hnames : forall a, a ∈ attributes → IsAttributeName a.name) :
    (exists readings,
      readAttributes? (Attribute.writeAll dialect attributes).toList =
        some readings ∧
      List.Forall₂
        (fun a reading => reading.1 = dialect.attributeName a.name ∧
          Carries dialect a.value reading.2)
        (attributes.filter fun a => (a.write? dialect).isSome) readings) ∧
    (forall a : Attribute, a.write? dialect = none ↔
      dialect = .html ∧ a.value = .flag false) ∧
    (forall name, IsPlainName name → IsAttributeName name) ∧
    forall id profile, ProfileRegistry.standard.get id = .ok profile →
      forall descriptor node a,
        a ∈ (profile.element descriptor node).1.attributes → IsPlainName a.name := by
  refine ⟨?_, write?_eq_none_iff dialect, fun name => IsPlainName.isAttributeName,
    fun id profile hget => Profile.plainlyNamed_standard hget⟩
  induction attributes with
  | nil =>
      have hempty : readAttributes? [] = some [] := by rw [readAttributes?]
      exact ⟨[], hempty, .nil⟩
  | cons a others ih =>
      rcases ih fun b hb => hnames b (List.mem_cons_of_mem a hb) with
        ⟨readings, hread, hfound⟩
      rw [writeAll_cons]
      cases hw : a.write? dialect with
      | none =>
          rw [String.empty_append, List.filter_cons_of_neg (by rw [hw]; decide)]
          exact ⟨readings, hread, hfound⟩
      | some w =>
          rcases readAttributes?_write (hnames a List.mem_cons_self) hw
            (separated_writeAll dialect others) with ⟨reading, hcarries, hfirst⟩
          refine ⟨(dialect.attributeName a.name, reading) :: readings, ?_, ?_⟩
          · rw [String.append_assoc, String.toList_append, String.toList_append]
            show readAttributes? (' ' :: (w.toList ++ _)) = _
            rw [hfirst, hread]
            rfl
          · rw [List.filter_cons_of_pos (by rw [hw]; rfl)]
            exact .cons ⟨rfl, hcarries⟩ hfound

theorem pretending_attributes_read_back :
    let attributes := [Attribute.text "class" "\" onclick=\"run()",
      Attribute.text "aria-label" "\x7d title=\x7b &quot;",
      Attribute.number "value" .nan, Attribute.flag "hidden" false]
    (forall a, a ∈ attributes → IsAttributeName a.name) ∧
      exists readings,
        readAttributes? (Attribute.writeAll .jsx attributes).toList =
          some readings ∧
        List.Forall₂
          (fun a reading => reading.1 = Dialect.jsx.attributeName a.name ∧
            Carries .jsx a.value reading.2)
          attributes readings := by
  intro attributes
  have hnames : forall a, a ∈ attributes → IsAttributeName a.name := by decide
  exact ⟨hnames, (attributes_read_back .jsx attributes hnames).left⟩

end Markup

end MarkupForest
