import MarkupForest.Proofs.Escaping
import MarkupForest.Render.Renderer

/-!
# Reading tags back

A scanner reads the tags of a text from left to right.  It is strict: outside a
tag an angle bracket may only open one, inside a tag there is none before the
one that ends it, and every tag has a proper name.  Lines of markup whose tags
and attributes have proper names are read back as the tags they were made of,
whatever texts they carry.
-/

namespace MarkupForest

namespace Markup

open Text (Bracketless bracketless_nil bracketless_append bracketless_cons)

/-!
# Names
-/

/-- A name of a tag or an attribute: letters, digits and hyphens. -/
def NameChars (cs : List Char) : Prop :=
  cs ≠ [] ∧ forall c, c ∈ cs → c.isAlphanum = true ∨ c = '-'

instance (cs : List Char) : Decidable (NameChars cs) :=
  @instDecidableAnd _ _ inferInstance
    (List.decidableBAll (fun c => c.isAlphanum = true ∨ c = '-') cs)

/-- A text that is a name. -/
abbrev IsName (s : String) : Prop := NameChars s.toList

/-- A name of letters and hyphens alone. -/
def IsPlainName (s : String) : Prop :=
  s.toList ≠ [] ∧ forall c, c ∈ s.toList → c.isAlpha = true ∨ c = '-'

instance (s : String) : Decidable (IsPlainName s) :=
  @instDecidableAnd _ _ inferInstance
    (List.decidableBAll (fun c => c.isAlpha = true ∨ c = '-') s.toList)

theorem IsPlainName.isName {s : String} (h : IsPlainName s) : IsName s := by
  refine ⟨h.left, ?_⟩
  intro c hc
  rcases h.right c hc with hletter | hhyphen
  · left
    unfold Char.isAlphanum
    rw [hletter, Bool.true_or]
  · exact Or.inr hhyphen

variable {cs rest : List Char} {c : Char}

theorem NameChars.ne (h : NameChars cs) (hc : c ∈ cs) {d : Char}
    (hd : d.isAlphanum = false ∧ d ≠ '-') : c ≠ d := by
  rintro rfl
  rcases h.right c hc with hletter | hhyphen
  · rw [hd.left] at hletter
    cases hletter
  · exact hd.right hhyphen

theorem NameChars.bracketless (h : NameChars cs) : Bracketless cs :=
  fun _ hc => ⟨h.ne hc (by decide), h.ne hc (by decide)⟩

/-!
# The scanner
-/

/-- A tag without its attributes. -/
inductive Tag where
  | opening (name : String)
  | closing (name : String)
  | selfClosing (name : String)
  deriving DecidableEq

/-- The tag between two angle brackets. -/
def readTag? : List Char → Option Tag
  | '/' :: name =>
      if NameChars name then some (.closing (String.ofList name)) else none
  | inner =>
      let name := inner.takeWhile (· ≠ ' ')
      if NameChars name then
        if inner.getLast? = some '/' then
          some (.selfClosing (String.ofList name))
        else
          some (.opening (String.ofList name))
      else
        none

/-- Read all tags of a text.  Inside a tag, the characters read so far are kept,
the latest one first. -/
def scan : Option (List Char) → List Char → Option (List Tag)
  | none, [] => some []
  | some _, [] => none
  | none, c :: rest =>
      if c = '<' then scan (some []) rest
      else if c = '>' then none
      else scan none rest
  | some inner, c :: rest =>
      if c = '<' then none
      else if c = '>' then
        (readTag? inner.reverse).bind fun tag =>
          (scan none rest).map (tag :: ·)
      else scan (some (c :: inner)) rest

theorem scan_outside (c : Char) (rest : List Char) :
    scan none (c :: rest) =
      if c = '<' then scan (some []) rest
      else if c = '>' then none
      else scan none rest := by
  rw [scan]

theorem scan_inside (inner : List Char) (c : Char) (rest : List Char) :
    scan (some inner) (c :: rest) =
      if c = '<' then none
      else if c = '>' then
        (readTag? inner.reverse).bind fun tag =>
          (scan none rest).map (tag :: ·)
      else scan (some (c :: inner)) rest := by
  rw [scan]

theorem scan_text (h : Bracketless cs) (rest : List Char) :
    scan none (cs ++ rest) = scan none rest := by
  induction cs with
  | nil => rfl
  | cons c cs ih =>
      rcases bracketless_cons.mp h with ⟨hc, hcs⟩
      rw [List.cons_append, scan_outside, if_neg hc.left, if_neg hc.right]
      exact ih hcs

theorem scan_inner (h : Bracketless cs) (inner rest : List Char) :
    scan (some inner) (cs ++ '>' :: rest) =
      (readTag? (inner.reverse ++ cs)).bind fun tag =>
        (scan none rest).map (tag :: ·) := by
  induction cs generalizing inner with
  | nil =>
      rw [List.nil_append, List.append_nil]
      rfl
  | cons c cs ih =>
      rcases bracketless_cons.mp h with ⟨hc, hcs⟩
      rw [List.cons_append, scan_inside, if_neg hc.left, if_neg hc.right,
        ih hcs, List.reverse_cons, List.append_assoc]
      rfl

theorem scan_tag {tag : Tag} (h : Bracketless cs) (hread : readTag? cs = some tag)
    (rest : List Char) :
    scan none ('<' :: (cs ++ '>' :: rest)) =
      (scan none rest).map (tag :: ·) := by
  have hinner := scan_inner h [] rest
  rw [List.reverse_nil, List.nil_append, hread, Option.bind_some] at hinner
  exact hinner

/-!
# Written attributes
-/

/-- Characters that may follow the name of a tag. -/
structure Trailing (cs : List Char) : Prop where
  bracketless : Bracketless cs
  spaced : cs = [] ∨ exists tail, cs = ' ' :: tail
  last : cs.getLast? ≠ some '/'

theorem isName_attributeName (dialect : Dialect) {name : String}
    (h : IsName name) : IsName (dialect.attributeName name) := by
  rcases dialect.attributeName_cases name with hsame | hother
  · rw [hsame]
    exact h
  · revert hother
    generalize dialect.attributeName name = written
    revert written
    decide

theorem delimited {front back content : String} {c : Char}
    (hfront : Bracketless front.toList) (hcontent : Bracketless content.toList)
    (hback : back.toList = [c]) (hc : c ≠ '<' ∧ c ≠ '>' ∧ c ≠ '/') :
    Bracketless (front ++ content ++ back).toList ∧
      exists d, (front ++ content ++ back).toList.getLast? = some d ∧ d ≠ '/' := by
  rw [String.toList_append, String.toList_append, hback]
  constructor
  · rw [bracketless_append, bracketless_append, bracketless_cons]
    exact ⟨⟨hfront, hcontent⟩, ⟨hc.left, hc.right.left⟩, bracketless_nil⟩
  · exact ⟨c, List.getLast?_concat, hc.right.right⟩

theorem write_value {dialect : Dialect} {value : AttributeValue} {w : String}
    (h : Attribute.valueText? dialect value = some w) :
    Bracketless w.toList ∧
      (w.toList = [] ∨ exists c, w.toList.getLast? = some c ∧ c ≠ '/') := by
  have hempty : Bracketless "".toList ∧
      ("".toList = [] ∨ exists c, "".toList.getLast? = some c ∧ c ≠ '/') :=
    ⟨by decide, Or.inl rfl⟩
  cases value with
  | text content =>
      have hquoted := Text.bracketless_encodeQuoted content
      cases dialect with
      | html =>
          cases h
          exact (delimited (by decide) hquoted rfl (by decide)).imp_right Or.inr
      | jsx =>
          cases h
          exact (delimited (by decide) hquoted rfl (by decide)).imp_right Or.inr
  | number content =>
      have hplain := Text.bracketless_plainText content
      cases dialect with
      | html =>
          cases h
          exact (delimited (by decide) hplain rfl (by decide)).imp_right Or.inr
      | jsx =>
          cases h
          exact (delimited (by decide) hplain rfl (by decide)).imp_right Or.inr
  | flag content =>
      cases content with
      | true =>
          cases dialect with
          | html =>
              cases h
              exact hempty
          | jsx =>
              cases h
              exact hempty
      | false =>
          cases dialect with
          | html => cases h
          | jsx =>
              cases h
              refine ⟨by decide, Or.inr ⟨'\x7d', rfl, by decide⟩⟩

/-- A written attribute has no angle bracket and does not end in a slash. -/
theorem write_attribute {dialect : Dialect} {a : Attribute} {w : String}
    (hname : IsName a.name) (hw : a.write? dialect = some w) :
    Bracketless w.toList ∧ exists c, w.toList.getLast? = some c ∧ c ≠ '/' := by
  have hwritten := isName_attributeName dialect hname
  rcases a with ⟨name, value⟩
  unfold Attribute.write? at hw
  rw [Option.map_eq_some_iff] at hw
  rcases hw with ⟨tail, htail, rfl⟩
  rw [String.toList_append, bracketless_append]
  have hvalue := write_value htail
  refine ⟨⟨hwritten.bracketless, hvalue.left⟩, ?_⟩
  rw [List.getLast?_append]
  rcases hvalue.right with hnil | ⟨c, hc, hne⟩
  · rw [hnil, List.getLast?_nil, Option.none_or]
    cases hlast : (dialect.attributeName name).toList.getLast? with
    | none => exact absurd (List.getLast?_eq_none_iff.mp hlast) hwritten.left
    | some c =>
        exact ⟨c, rfl, hwritten.ne (List.mem_of_getLast? hlast) (by decide)⟩
  · rw [hc]
    exact ⟨c, rfl, hne⟩

theorem trailing_join {ws : List String}
    (h : forall w, w ∈ ws → Bracketless w.toList ∧
      exists c, w.toList.getLast? = some c ∧ c ≠ '/') :
    Trailing (String.join (ws.map (" " ++ ·))).toList := by
  induction ws with
  | nil =>
      refine ⟨by decide, Or.inl rfl, ?_⟩
      decide
  | cons w ws ih =>
      rcases h w List.mem_cons_self with ⟨hw, c, hlast, hc⟩
      have hrest := ih fun v hv => h v (List.mem_cons_of_mem _ hv)
      rw [List.map_cons, String.join_cons, String.toList_append,
        String.toList_append]
      refine ⟨?_, Or.inr ⟨_, rfl⟩, ?_⟩
      · rw [bracketless_append, bracketless_append]
        exact ⟨⟨by decide, hw⟩, hrest.bracketless⟩
      · rw [List.getLast?_append, List.getLast?_append, hlast]
        have hne := hrest.last
        cases hjoin : (String.join (ws.map (" " ++ ·))).toList.getLast? with
        | none => simpa using hc
        | some d =>
            rw [hjoin] at hne
            exact hne

theorem trailing_writeAll (dialect : Dialect) {attributes : List Attribute}
    (h : forall a, a ∈ attributes → IsName a.name) :
    Trailing (Attribute.writeAll dialect attributes).toList := by
  apply trailing_join
  intro w hw
  rcases List.mem_filterMap.mp hw with ⟨a, ha, hwrite⟩
  exact write_attribute (h a ha) hwrite

/-!
# Tags
-/

theorem takeWhile_name {name tail : List Char} (hname : NameChars name)
    (htail : tail = [] ∨ exists others, tail = ' ' :: others) :
    (name ++ tail).takeWhile (· ≠ ' ') = name := by
  have hall : forall c, c ∈ name → (decide (c ≠ ' ')) = true :=
    fun c hc => decide_eq_true (hname.ne hc (by decide))
  rw [List.takeWhile_append_of_pos hall]
  rcases htail with rfl | ⟨others, rfl⟩
  · exact List.append_nil _
  · rw [List.takeWhile_cons_of_neg (by decide), List.append_nil]

theorem readTag?_of_name {name tail : List Char} (hname : NameChars name)
    (htail : tail = [] ∨ exists others, tail = ' ' :: others) :
    readTag? (name ++ tail) =
      if (name ++ tail).getLast? = some '/' then
        some (.selfClosing (String.ofList name))
      else
        some (.opening (String.ofList name)) := by
  have htake := takeWhile_name hname htail
  cases name with
  | nil => exact absurd rfl hname.left
  | cons c name =>
      have hslash : c ≠ '/' := hname.ne List.mem_cons_self (by decide)
      rw [List.cons_append] at htake ⊢
      unfold readTag?
      split
      · rename_i heq
        cases heq
        exact absurd rfl hslash
      · simp only [htake, if_pos hname]

theorem readTag?_opening {tag : String} {tail : List Char} (htag : IsName tag)
    (htail : Trailing tail) :
    readTag? (tag.toList ++ tail) = some (.opening tag) := by
  rw [readTag?_of_name htag htail.spaced, if_neg, String.ofList_toList]
  rw [List.getLast?_append]
  intro hlast
  cases htaillast : tail.getLast? with
  | some c =>
      rw [htaillast] at hlast
      exact htail.last (htaillast.trans hlast)
  | none =>
      rw [htaillast, Option.none_or] at hlast
      exact htag.ne (List.mem_of_getLast? hlast) (by decide) rfl

theorem readTag?_selfClosing {tag : String} {tail : List Char}
    (htag : IsName tag) (htail : Trailing tail) :
    readTag? (tag.toList ++ (tail ++ [' ', '/'])) = some (.selfClosing tag) := by
  have hspaced : tail ++ [' ', '/'] = [] ∨
      exists others, tail ++ [' ', '/'] = ' ' :: others := by
    rcases htail.spaced with rfl | ⟨others, rfl⟩
    · exact Or.inr ⟨['/'], rfl⟩
    · exact Or.inr ⟨_, rfl⟩
  rw [readTag?_of_name htag hspaced, if_pos, String.ofList_toList]
  rw [← List.append_assoc, List.getLast?_append]
  rfl

theorem readTag?_closing {tag : String} (htag : IsName tag) :
    readTag? ('/' :: tag.toList) = some (.closing tag) := by
  show (if NameChars tag.toList then
    some (Tag.closing (String.ofList tag.toList)) else none) = _
  rw [if_pos htag, String.ofList_toList]

end Markup

/-!
# Fragments and lines
-/

namespace Fragment

open Markup (IsName Tag)

/-- The tags of a fragment. -/
def tags : Fragment → List Tag
  | openTag tag _ => [.opening tag]
  | closeTag tag => [.closing tag]
  | voidTag tag _ => [.selfClosing tag]
  | text _ => []

/-- Tags and attributes have proper names; a text may be anything. -/
def Proper : Fragment → Prop
  | openTag tag attributes =>
      IsName tag ∧ forall a, a ∈ attributes → IsName a.name
  | closeTag tag => IsName tag
  | voidTag tag attributes =>
      IsName tag ∧ forall a, a ∈ attributes → IsName a.name
  | text _ => True

end Fragment

namespace Line

/-- The tags of a line. -/
def tags (line : Line) : List Markup.Tag :=
  line.fragments.flatMap Fragment.tags

def Proper (line : Line) : Prop :=
  forall f, f ∈ line.fragments → f.Proper

end Line

namespace Markup

open Text (Bracketless bracketless_append)

theorem scan_fragment {dialect : Dialect} {f : Fragment} (h : f.Proper)
    (rest : List Char) :
    scan none ((f.write dialect).toList ++ rest) =
      (scan none rest).map (f.tags ++ ·) := by
  cases f with
  | openTag tag attributes =>
      have htail := trailing_writeAll dialect h.right
      have hchars : (Fragment.write dialect (.openTag tag attributes)).toList ++
          rest = '<' :: ((tag.toList ++
            (Attribute.writeAll dialect attributes).toList) ++ '>' :: rest) := by
        simp [Fragment.write]
      rw [hchars]
      refine scan_tag ?_ (readTag?_opening h.left htail) rest
      rw [bracketless_append]
      exact ⟨h.left.bracketless, htail.bracketless⟩
  | closeTag tag =>
      have hchars : (Fragment.write dialect (.closeTag tag)).toList ++ rest =
          '<' :: (('/' :: tag.toList) ++ '>' :: rest) := by
        simp [Fragment.write]
      rw [hchars]
      refine scan_tag ?_ (readTag?_closing h) rest
      exact Text.bracketless_cons.mpr
        ⟨by decide, NameChars.bracketless h⟩
  | voidTag tag attributes =>
      have htail := trailing_writeAll dialect h.right
      have hchars : (Fragment.write dialect (.voidTag tag attributes)).toList ++
          rest = '<' :: ((tag.toList ++
            ((Attribute.writeAll dialect attributes).toList ++ [' ', '/'])) ++
              '>' :: rest) := by
        simp [Fragment.write]
      rw [hchars]
      refine scan_tag ?_ (readTag?_selfClosing h.left htail) rest
      rw [bracketless_append, bracketless_append]
      exact ⟨h.left.bracketless, htail.bracketless, by decide⟩
  | text content =>
      show scan none ((dialect.escapeText content).toList ++ rest) = _
      rw [scan_text (Text.bracketless_escapeText dialect content)]
      cases scan none rest with
      | none => rfl
      | some tags => rfl

theorem scan_fragments {dialect : Dialect} {fs : List Fragment}
    (h : forall f, f ∈ fs → f.Proper) (rest : List Char) :
    scan none ((String.join (fs.map (·.write dialect))).toList ++ rest) =
      (scan none rest).map (fs.flatMap Fragment.tags ++ ·) := by
  induction fs with
  | nil =>
      show scan none rest = _
      cases scan none rest with
      | none => rfl
      | some tags => rfl
  | cons f fs ih =>
      have hfs := ih fun g hg => h g (List.mem_cons_of_mem _ hg)
      rw [List.map_cons, String.join_cons, String.toList_append,
        List.append_assoc, scan_fragment (h f List.mem_cons_self), hfs,
        Option.map_map]
      congr 1
      funext tags
      simp

theorem bracketless_indentation (depth : Nat) :
    Bracketless (Line.indentation depth).toList := by
  unfold Line.indentation
  rw [String.toList_ofList]
  intro c hc
  rw [List.eq_of_mem_replicate hc]
  decide

theorem scan_line {dialect : Dialect} {line : Line} (h : line.Proper)
    (rest : List Char) :
    scan none ((line.write dialect).toList ++ rest) =
      (scan none rest).map (line.tags ++ ·) := by
  unfold Line.write
  rw [String.toList_append, List.append_assoc,
    scan_text (bracketless_indentation line.depth), scan_fragments h]
  rfl

/-- The tags of a text of proper lines are those of the lines. -/
theorem scan_bodyText {dialect : Dialect} {lines : List Line}
    (h : forall line, line ∈ lines → line.Proper) :
    scan none (Render.bodyText dialect lines).toList =
      some (lines.flatMap Line.tags) := by
  unfold Render.bodyText
  induction lines with
  | nil => rfl
  | cons line rest ih =>
      have hline := @scan_line dialect line (h line List.mem_cons_self)
      have hrest := ih fun l hl => h l (List.mem_cons_of_mem _ hl)
      cases rest with
      | nil =>
          have hone := hline []
          rw [List.append_nil] at hone
          rw [List.map_singleton, String.intercalate_singleton, hone,
            List.flatMap_cons]
          rfl
      | cons next others =>
          rw [List.map_cons, String.intercalate_cons_of_ne_nil (by simp),
            String.toList_append, String.toList_append, List.append_assoc,
            hline, scan_text (by decide : Bracketless "\n".toList), hrest,
            List.flatMap_cons]
          rfl

end Markup

end MarkupForest
