import MarkupForest.Proofs.AttributeScan
import MarkupForest.Proofs.Printing
import MarkupForest.Proofs.TagScan

/-!
# Leading attributes

A reader goes through a text and leaves out the first attribute of every opening
tag if it has a given name, from the space in front of it to the quotation mark
that ends its value.  Everything else stays.  A tag written with such an
attribute in front reads as the same tag written without it, whatever the value
is, and markup without the attribute reads as it stands.
-/

namespace MarkupForest

namespace Markup

open Text (Bracketless bracketless_append bracketless_cons)

/-!
# The reader
-/

def isNameChar (c : Char) : Bool := c.isAlphanum || c == '-'

/-- What follows the name of a tag, without an attribute of this name if there is
one right at the front. -/
def skipAttribute (name tail : List Char) : List Char :=
  let front := ' ' :: (name ++ ['=', '"'])
  if front <+: tail then
    ((tail.drop front.length).dropWhile (· ≠ '"')).drop 1
  else
    tail

theorem length_skipAttribute_le (name tail : List Char) :
    (skipAttribute name tail).length ≤ tail.length := by
  unfold skipAttribute
  simp only
  split
  · have hvalue := (List.dropWhile_suffix (fun c => decide (c ≠ '"'))
      (l := tail.drop (' ' :: (name ++ ['=', '"'])).length)).length_le
    rw [List.length_drop] at hvalue ⊢
    omega
  · exact Nat.le_refl _

/-- A text where opening tags do not have the attribute `name` in front. -/
def dropAttribute (name : List Char) : List Char → List Char
  | [] => []
  | c :: rest =>
      if c = '<' then
        c :: (rest.takeWhile isNameChar ++
          dropAttribute name (skipAttribute name (rest.dropWhile isNameChar)))
      else
        c :: dropAttribute name rest
termination_by text => text.length
decreasing_by
  · have hskip := length_skipAttribute_le name (rest.dropWhile isNameChar)
    have hrest := (List.dropWhile_suffix isNameChar (l := rest)).length_le
    rw [List.length_cons]
    omega
  · exact Nat.lt_succ_self _

def withoutAttribute (name text : String) : String :=
  String.ofList (dropAttribute name.toList text.toList)

/-- The first text reads as the second one, whatever comes after it. -/
def ReadsAs (name text plain : String) : Prop :=
  forall rest, dropAttribute name.toList (text.toList ++ rest) =
    plain.toList ++ dropAttribute name.toList rest

variable {name text plain others : String} {cs rest : List Char}

theorem ReadsAs.withoutAttribute (h : ReadsAs name text plain) :
    withoutAttribute name text = plain := by
  have htext := h []
  unfold Markup.withoutAttribute
  rw [List.append_nil] at htext
  rw [htext]
  simp [dropAttribute]

theorem ReadsAs.append {text' plain' : String} (h : ReadsAs name text plain)
    (h' : ReadsAs name text' plain') :
    ReadsAs name (text ++ text') (plain ++ plain') := by
  intro rest
  rw [String.toList_append, String.toList_append, List.append_assoc,
    List.append_assoc, h, h']

theorem dropAttribute_outside (h : '<' ∉ cs) (name rest : List Char) :
    dropAttribute name (cs ++ rest) = cs ++ dropAttribute name rest := by
  induction cs with
  | nil => rfl
  | cons c cs ih =>
      rw [List.mem_cons, not_or] at h
      rcases h with ⟨hc, hcs⟩
      rw [List.cons_append, dropAttribute, if_neg (Ne.symm hc), ih hcs]
      rfl

theorem readsAs_bracketless (name : String) (h : Bracketless text.toList) :
    ReadsAs name text text :=
  dropAttribute_outside (fun hc => (h _ hc).left rfl) name.toList

/-!
# The name of a tag
-/

/-- A text that does not go on with a character of a name. -/
def Stops (cs : List Char) : Prop :=
  forall c rest, cs = c :: rest → isNameChar c = false

theorem stops_cons {c : Char} (h : isNameChar c = false) (cs : List Char) :
    Stops (c :: cs) := by
  intro d rest heq
  cases heq
  exact h

theorem NameChars.isNameChar (h : NameChars cs) :
    forall c, c ∈ cs → isNameChar c = true := by
  intro c hc
  unfold Markup.isNameChar
  rcases h.right c hc with hletter | rfl
  · rw [hletter, Bool.true_or]
  · decide

theorem dropAttribute_tag (h : forall c, c ∈ cs → isNameChar c = true)
    (hrest : Stops rest) (name : List Char) :
    dropAttribute name ('<' :: (cs ++ rest)) =
      '<' :: (cs ++ dropAttribute name (skipAttribute name rest)) := by
  rw [dropAttribute, if_pos rfl, Text.takeWhile_run h hrest,
    Text.dropWhile_run h hrest]

/-!
# The first attribute
-/

theorem skipAttribute_front (name : List Char) {value : List Char}
    (hvalue : '"' ∉ value) (rest : List Char) :
    skipAttribute name
        (' ' :: (name ++ ['=', '"']) ++ (value ++ '"' :: rest)) = rest := by
  unfold skipAttribute
  simp only
  rw [if_pos (List.prefix_append _ _), List.drop_left]
  have hall : forall c, c ∈ value → decide (c ≠ '"') = true := by
    intro c hc
    exact decide_eq_true fun heq => hvalue (heq ▸ hc)
  rw [List.dropWhile_append_of_pos hall, List.dropWhile_cons_of_neg (by decide)]
  rfl

theorem skipAttribute_other {name : List Char} (hname : NameChars name)
    {tail : List Char}
    (h : forall inner, tail = ' ' :: inner → inner.takeWhile isNameChar ≠ name) :
    skipAttribute name tail = tail := by
  unfold skipAttribute
  simp only
  rw [if_neg]
  rintro ⟨value, hvalue⟩
  rw [List.cons_append, List.append_assoc] at hvalue
  exact h _ hvalue.symm
    (Text.takeWhile_run hname.isNameChar (stops_cons (by decide) _))

theorem stops_value {value : AttributeValue} {w : String}
    (h : Attribute.valueText? .html value = some w) (hrest : Stops rest) :
    Stops (w.toList ++ rest) := by
  rcases valueText_head h with hempty | ⟨tail, htail⟩
  · rw [hempty]
    exact hrest
  · rw [htail]
    exact stops_cons (by decide : isNameChar '=' = false) _

/-- How a tag ends. -/
def Ends (finish : String) : Prop := finish = ">" ∨ finish = " />"

theorem stops_attributes {finish : String} (hfinish : Ends finish)
    (ws : List String) (rest : List Char) :
    Stops ((String.join (ws.map (" " ++ ·))).toList ++ (finish.toList ++ rest)) := by
  cases ws with
  | nil =>
      rcases hfinish with rfl | rfl
      · exact stops_cons (by decide : isNameChar '>' = false) rest
      · exact stops_cons (by decide : isNameChar ' ' = false) _
  | cons w ws =>
      rw [List.map_cons, String.join_cons, String.toList_append,
        String.toList_append]
      exact stops_cons (by decide : isNameChar ' ' = false) _

theorem skipAttribute_writeAll {attributes : List Attribute}
    (hname : IsName name)
    (h : forall a, a ∈ attributes → IsName a.name ∧ a.name ≠ name)
    {finish : String} (hfinish : Ends finish) (rest : List Char) :
    skipAttribute name.toList
        ((Attribute.writeAll .html attributes).toList ++ (finish.toList ++ rest)) =
      (Attribute.writeAll .html attributes).toList ++ (finish.toList ++ rest) := by
  apply skipAttribute_other hname
  intro inner hinner
  unfold Attribute.writeAll at hinner
  cases hwritten : attributes.filterMap (Attribute.write? .html) with
  | nil =>
      rw [hwritten] at hinner
      rcases hfinish with rfl | rfl
      · cases hinner
      · -- what follows the space is the slash
        have heq : inner = '/' :: '>' :: rest := (List.cons.inj hinner).right.symm
        rw [heq]
        exact fun hnil => hname.left hnil.symm
  | cons w ws =>
      rcases List.mem_filterMap.mp (hwritten ▸ List.mem_cons_self) with ⟨a, ha, hw⟩
      rcases Option.map_eq_some_iff.mp hw with ⟨v, hv, rfl⟩
      rcases h a ha with ⟨hother, hne⟩
      rw [hwritten, List.map_cons, String.join_cons, String.toList_append,
        String.toList_append, String.toList_append, List.append_assoc,
        List.append_assoc, List.append_assoc] at hinner
      have htake := Text.takeWhile_run hother.isNameChar
        (stops_value hv (stops_attributes hfinish ws rest))
      rw [← (List.cons.inj hinner).right]
      exact fun hsame => hne (String.toList_inj.mp (htake.symm.trans hsame))

/-!
# Tags
-/

/-- The attributes of the second list, with one of the given name in front or
without. -/
structure Led (name : String) (attributes plain : List Attribute) : Prop where
  others : forall a, a ∈ plain → IsName a.name ∧ a.name ≠ name
  front : attributes = plain ∨
    exists content, attributes = Attribute.text name content :: plain

theorem skipAttribute_led {attributes plain : List Attribute}
    (hname : IsName name) (h : Led name attributes plain) {finish : String}
    (hfinish : Ends finish) (rest : List Char) :
    skipAttribute name.toList
        ((Attribute.writeAll .html attributes).toList ++ (finish.toList ++ rest)) =
      (Attribute.writeAll .html plain).toList ++ (finish.toList ++ rest) := by
  rcases h.front with rfl | ⟨content, rfl⟩
  · exact skipAttribute_writeAll hname h.others hfinish rest
  · have hwritten : (Attribute.writeAll .html
        (Attribute.text name content :: plain)).toList =
          ' ' :: (name.toList ++ ['=', '"']) ++
            ((Text.encodeQuoted content).toList ++
              '"' :: (Attribute.writeAll .html plain).toList) := by
      have hfirst : (Attribute.text name content).write? .html =
          some (name ++ ("=\"" ++ Text.encodeQuoted content ++ "\"")) := rfl
      unfold Attribute.writeAll
      rw [List.filterMap_cons_some hfirst]
      simp
    rw [hwritten, List.append_assoc, List.append_assoc, List.cons_append]
    exact skipAttribute_front name.toList (Text.not_mem_encodeQuoted content) _

/-- A tag reads as the one without the attribute. -/
theorem readsAs_tag {tag finish : String} {attributes plain : List Attribute}
    (hname : IsName name) (htag : IsName tag) (h : Led name attributes plain)
    (hfinish : Ends finish) :
    ReadsAs name ("<" ++ tag ++ Attribute.writeAll .html attributes ++ finish)
      ("<" ++ tag ++ Attribute.writeAll .html plain ++ finish) := by
  intro rest
  have hplain : Bracketless (Attribute.writeAll .html plain).toList :=
    (trailing_writeAll .html fun a ha => (h.others a ha).left).bracketless
  have hend : '<' ∉ (Attribute.writeAll .html plain).toList ++ finish.toList := by
    rw [List.mem_append]
    rintro (hmem | hmem)
    · exact (hplain _ hmem).left rfl
    · rcases hfinish with rfl | rfl
      · revert hmem
        decide
      · revert hmem
        decide
  have hstop : Stops ((Attribute.writeAll .html attributes).toList ++
      (finish.toList ++ rest)) := stops_attributes hfinish _ rest
  simp only [String.toList_append, List.append_assoc]
  show dropAttribute name.toList ('<' :: (tag.toList ++ _)) = '<' :: (tag.toList ++ _)
  rw [dropAttribute_tag htag.isNameChar hstop, skipAttribute_led hname h hfinish,
    ← List.append_assoc, dropAttribute_outside hend, List.append_assoc]

theorem readsAs_closing {tag : String} (hname : IsName name) (htag : IsName tag) :
    ReadsAs name ("</" ++ tag ++ ">") ("</" ++ tag ++ ">") := by
  intro rest
  have hchars : ("</" ++ tag ++ ">").toList = '<' :: '/' :: (tag.toList ++ ['>']) := by
    simp
  have hslash : Stops ('/' :: (tag.toList ++ ['>'] ++ rest)) :=
    stops_cons (by decide) _
  have hskip : skipAttribute name.toList ('/' :: (tag.toList ++ ['>'] ++ rest)) =
      '/' :: (tag.toList ++ ['>'] ++ rest) := by
    apply skipAttribute_other hname
    intro inner hinner
    cases hinner
  have hend : '<' ∉ '/' :: (tag.toList ++ ['>']) := by
    simp only [List.mem_cons, List.mem_append, List.not_mem_nil, or_false]
    rintro (hmem | hmem | hmem)
    · revert hmem
      decide
    · exact htag.ne hmem (by decide) rfl
    · revert hmem
      decide
  have hnone : forall c, c ∈ ([] : List Char) → isNameChar c = true := by
    intro c hc
    cases hc
  have htagged := dropAttribute_tag hnone hslash name.toList
  rw [hskip] at htagged
  rw [hchars]
  exact htagged.trans
    (congrArg ('<' :: ·) (dropAttribute_outside hend name.toList rest))

theorem readsAs_opening {tag : String} (hname : IsName name) (htag : IsName tag) :
    ReadsAs name ("<" ++ tag ++ ">") ("<" ++ tag ++ ">") := by
  have hled : Led name [] [] := by
    refine ⟨?_, Or.inl rfl⟩
    intro a ha
    cases ha
  have htagged := readsAs_tag hname htag hled (Or.inl rfl : Ends ">")
  have hempty : Attribute.writeAll .html [] = "" := rfl
  rw [hempty, String.append_empty] at htagged
  exact htagged

end Markup

end MarkupForest
