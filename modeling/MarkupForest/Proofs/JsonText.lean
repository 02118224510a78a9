import MarkupForest.Json.Printer
import MarkupForest.Proofs.NumberLiterals
import MarkupForest.Proofs.StringLiterals

/-!
# Compact text read back

The reader of values finds every value again behind which nothing goes on with a
number, and leaves what follows untouched.  No more steps are taken than there
are characters, so the whole document has steps enough.
-/

namespace MarkupForest

namespace Json

/-- Every string in a value denotes a text, and so does every name. -/
inductive Textual : Json → Prop where
  | null : Textual null
  | bool (value : Bool) : Textual (bool value)
  | number (value : Decimal) : Textual (number value)
  | string (s : String) : Textual (string (some s))
  | array {items : List Json} (hitems : forall item, item ∈ items → Textual item) :
      Textual (array items)
  | object {members : List (Option String × Json)}
      (hnames : forall member, member ∈ members → member.1.isSome = true)
      (hvalues : forall member, member ∈ members → Textual member.2) :
      Textual (object members)

/-- A value is read back from its compact text, in no more steps than it has
characters. -/
def ReadsBack (j : Json) : Prop :=
  forall steps rest, (compact j).toList.length ≤ steps → EndsNumber rest →
    readValue? steps ((compact j).toList ++ rest) = some (j, rest)

/-- A sign or a digit. -/
def StartsNumber (c : Char) : Prop := c = '-' ∨ c.isDigit = true

instance (c : Char) : Decidable (StartsNumber c) :=
  inferInstanceAs (Decidable (c = '-' ∨ c.isDigit = true))

variable {c : Char} {rest : List Char}

/-!
# Characters of the text
-/

theorem toList_compact_array (item : Json) (items : List Json) :
    (compact (array (item :: items))).toList =
      '[' :: ((compact item).toList ++ ((compactItems items).toList ++ [']'])) := by
  rw [compact]
  simp

theorem toList_compact_object (name : Option String) (value : Json)
    (members : List (Option String × Json)) :
    (compact (object ((name, value) :: members))).toList =
      '\x7b' :: ((stringText name).toList ++ (':' :: ((compact value).toList ++
        ((compactMembers members).toList ++ ['\x7d'])))) := by
  rw [compact]
  simp

theorem toList_compactItems_cons (item : Json) (items : List Json) :
    (compactItems (item :: items)).toList =
      ',' :: ((compact item).toList ++ (compactItems items).toList) := by
  rw [compactItems]
  simp

theorem toList_compactMembers_cons (name : Option String) (value : Json)
    (members : List (Option String × Json)) :
    (compactMembers ((name, value) :: members)).toList =
      ',' :: ((stringText name).toList ++ (':' :: ((compact value).toList ++
        (compactMembers members).toList))) := by
  rw [compactMembers]
  simp

theorem skipSpaces_cons (h : isSpace c = false) (cs : List Char) :
    skipSpaces (c :: cs) = c :: cs :=
  List.dropWhile_cons_of_neg (by rw [h]; decide)

theorem StartsNumber.ne (h : StartsNumber c) {d : Char} (hd : ¬ StartsNumber d) :
    c ≠ d := by
  rintro rfl
  exact hd h

theorem StartsNumber.not_space (h : StartsNumber c) : isSpace c = false := by
  unfold isSpace
  simp only [Bool.or_eq_false_iff, beq_eq_false_iff_ne]
  exact ⟨⟨⟨h.ne (by decide), h.ne (by decide)⟩, h.ne (by decide)⟩,
    h.ne (by decide)⟩

theorem Spells.head {d : Decimal} {text : String} (h : Spells d text) :
    exists c tail, text.toList = c :: tail ∧ StartsNumber c := by
  rcases h with ⟨whole, fraction, cs, exponent, hwhole, _, _, htext, _, _⟩
  rw [htext]
  cases d.negative with
  | true => exact ⟨'-', _, rfl, Or.inl rfl⟩
  | false =>
      cases whole with
      | nil => exact absurd rfl hwhole.nonempty
      | cons c tail =>
          exact ⟨c, _, rfl, Or.inr (hwhole.digits c List.mem_cons_self)⟩

theorem toList_stringText (content : Option String) :
    exists tail, (stringText content).toList = '"' :: tail := by
  rcases readString?_literal (content.getD "") [] with ⟨inner, htext, _⟩
  rw [List.append_nil] at htext
  exact ⟨inner, htext⟩

theorem compact_head (j : Json) :
    exists c tail, (compact j).toList = c :: tail ∧ isSpace c = false ∧
      c ≠ ']' := by
  cases j with
  | null => exact ⟨'n', ['u', 'l', 'l'], by rw [compact]; rfl, rfl, by decide⟩
  | bool value =>
      cases value with
      | true => exact ⟨'t', ['r', 'u', 'e'], by rw [compact]; rfl, rfl, by decide⟩
      | false =>
          exact ⟨'f', ['a', 'l', 's', 'e'], by rw [compact]; rfl, rfl, by decide⟩
  | number value =>
      rcases (spells_jsonText value).head with ⟨c, tail, htext, hc⟩
      rw [compact]
      exact ⟨c, tail, htext, hc.not_space, hc.ne (by decide)⟩
  | string content =>
      rcases toList_stringText content with ⟨tail, htext⟩
      rw [compact]
      exact ⟨'"', tail, htext, rfl, by decide⟩
  | array items =>
      cases items with
      | nil => exact ⟨'[', [']'], by rw [compact]; rfl, rfl, by decide⟩
      | cons item items =>
          exact ⟨'[', _, toList_compact_array item items, rfl, by decide⟩
  | object members =>
      cases members with
      | nil => exact ⟨'\x7b', ['\x7d'], by rw [compact]; rfl, rfl, by decide⟩
      | cons member members =>
          exact ⟨'\x7b', _, toList_compact_object member.1 member.2 members, rfl,
            by decide⟩

/-!
# Scalars
-/

theorem readValue?_number (hc : StartsNumber c) (steps : Nat) (cs : List Char) :
    readValue? (steps + 1) (c :: cs) =
      (readNumber? (c :: cs)).map fun answer => (number answer.1, answer.2) := by
  rw [readValue?, skipSpaces_cons hc.not_space]
  split
  · rename_i heq
    cases heq
    exact absurd rfl (hc.ne (by decide))
  · rename_i heq
    cases heq
    exact absurd rfl (hc.ne (by decide))
  · rename_i heq
    cases heq
    exact absurd rfl (hc.ne (by decide))
  · rename_i heq
    cases heq
    exact absurd rfl (hc.ne (by decide))
  · rename_i heq
    cases heq
    exact absurd rfl (hc.ne (by decide))
  · rename_i heq
    cases heq
    exact absurd rfl (hc.ne (by decide))
  · rfl

theorem readsBack_of_succ {j : Json}
    (h : forall steps rest, (compact j).toList.length ≤ steps + 1 →
      EndsNumber rest →
        readValue? (steps + 1) ((compact j).toList ++ rest) = some (j, rest)) :
    ReadsBack j := by
  intro steps rest hsteps hrest
  cases steps with
  | zero =>
      rcases compact_head j with ⟨c, tail, htext, _, _⟩
      rw [htext] at hsteps
      cases hsteps
  | succ steps => exact h steps rest hsteps hrest

theorem readsBack_null : ReadsBack null := by
  refine readsBack_of_succ fun steps rest _ _ => ?_
  rw [compact]
  rfl

theorem readsBack_bool (value : Bool) : ReadsBack (bool value) := by
  refine readsBack_of_succ fun steps rest _ _ => ?_
  rw [compact]
  cases value <;> rfl

theorem readsBack_number (value : Decimal) : ReadsBack (number value) := by
  refine readsBack_of_succ fun steps rest _ hrest => ?_
  have hspells := spells_jsonText value
  have hread := hspells.read hrest
  rcases hspells.head with ⟨c, tail, htext, hc⟩
  rw [htext, List.cons_append] at hread
  rw [compact, htext, List.cons_append, readValue?_number hc, hread]
  rfl

theorem readValue?_string {inner : List Char} {content : Option String}
    (h : readString? inner = some (content, rest)) (steps : Nat) :
    readValue? (steps + 1) ('"' :: inner) = some (string content, rest) := by
  rw [readValue?, skipSpaces_cons (by decide)]
  simp only
  rw [h]
  rfl

theorem readsBack_string (s : String) : ReadsBack (string (some s)) := by
  refine readsBack_of_succ fun steps rest _ _ => ?_
  rcases readString?_literal s rest with ⟨inner, htext, hread⟩
  rw [compact]
  show readValue? (steps + 1) ((Text.literal s).toList ++ rest) = _
  rw [htext, readValue?_string hread]

/-!
# Arrays
-/

theorem endsNumber_cons
    (h : c.isDigit = false ∧ c ≠ '.' ∧ c ≠ 'e' ∧ c ≠ 'E') (cs : List Char) :
    EndsNumber (c :: cs) := by
  rintro d tail heq
  cases heq
  exact h

theorem readItems?_compact (item : Json) (items : List Json) (rest : List Char)
    (hitem : ReadsBack item) (hitems : forall other, other ∈ items → ReadsBack other)
    (steps : Nat)
    (hsteps : (compact item).toList.length + (compactItems items).toList.length <
      steps) :
    readItems? steps ((compact item).toList ++
      ((compactItems items).toList ++ ']' :: rest)) = some (item :: items, rest) := by
  induction items generalizing item steps with
  | nil =>
      cases steps with
      | zero => cases hsteps
      | succ steps =>
          rw [compactItems]
          show readItems? (steps + 1) ((compact item).toList ++ ']' :: rest) = _
          rw [readItems?, hitem steps (']' :: rest) (by omega)
            (endsNumber_cons (by decide) rest)]
          rfl
  | cons other items ih =>
      rw [toList_compactItems_cons] at hsteps ⊢
      simp only [List.length_cons, List.length_append] at hsteps
      cases steps with
      | zero => cases hsteps
      | succ steps =>
          have hothers := ih other (hitems other List.mem_cons_self)
            (fun another hmem => hitems another (List.mem_cons_of_mem other hmem))
            steps (by omega)
          rw [List.cons_append, List.append_assoc, readItems?,
            hitem steps _ (by omega) (endsNumber_cons (by decide) _)]
          simp only [Option.bind_eq_bind, Option.bind_some]
          rw [skipSpaces_cons (by decide)]
          simp only
          rw [hothers]
          rfl

theorem readsBack_array {items : List Json}
    (hitems : forall item, item ∈ items → ReadsBack item) :
    ReadsBack (array items) := by
  refine readsBack_of_succ fun steps rest hsteps _ => ?_
  cases items with
  | nil =>
      rw [compact]
      rfl
  | cons item items =>
      rw [toList_compact_array] at hsteps ⊢
      simp only [List.length_cons, List.length_append, List.length_nil] at hsteps
      have hread := readItems?_compact item items rest
        (hitems item List.mem_cons_self)
        (fun other hmem => hitems other (List.mem_cons_of_mem item hmem))
        steps (by omega)
      -- the first item is told apart from a closing bracket
      rcases compact_head item with ⟨c, tail, htext, hspace, hbracket⟩
      rw [htext, List.cons_append] at hread
      rw [htext]
      simp only [List.cons_append, List.append_assoc, List.nil_append]
      rw [readValue?, skipSpaces_cons (by decide)]
      simp only
      rw [skipSpaces_cons hspace]
      split
      · rename_i heq
        cases heq
        exact absurd rfl hbracket
      · rw [hread]
        rfl

/-!
# Objects
-/

/-- A member is read by its name, the colon and its value; what comes behind says
whether there are more. -/
theorem readMembers?_member (s : String) (steps : Nat) (cs : List Char) :
    readMembers? (steps + 1) ((stringText (some s)).toList ++ (':' :: cs)) =
      (readValue? steps cs).bind fun answer =>
        match skipSpaces answer.2 with
        | '\x7d' :: rest => some ([(some s, answer.1)], rest)
        | ',' :: rest =>
            (readMembers? steps rest).bind fun others =>
              some ((some s, answer.1) :: others.1, others.2)
        | _ => none := by
  rcases readString?_literal s (':' :: cs) with ⟨inner, htext, hname⟩
  show readMembers? (steps + 1) ((Text.literal s).toList ++ _) = _
  rw [htext, readMembers?, skipSpaces_cons (by decide)]
  simp only [Option.bind_eq_bind]
  rw [hname]
  simp only [Option.bind_some]
  rw [skipSpaces_cons (by decide)]
  rfl

theorem readMembers?_compact (name : Option String) (value : Json)
    (members : List (Option String × Json)) (rest : List Char)
    (hname : name.isSome = true) (hvalue : ReadsBack value)
    (hnames : forall member, member ∈ members → member.1.isSome = true)
    (hvalues : forall member, member ∈ members → ReadsBack member.2)
    (steps : Nat)
    (hsteps : (compact value).toList.length +
      (compactMembers members).toList.length < steps) :
    readMembers? steps ((stringText name).toList ++
      (':' :: ((compact value).toList ++
        ((compactMembers members).toList ++ '\x7d' :: rest)))) =
      some ((name, value) :: members, rest) := by
  induction members generalizing name value steps with
  | nil =>
      rcases Option.isSome_iff_exists.mp hname with ⟨s, rfl⟩
      cases steps with
      | zero => cases hsteps
      | succ steps =>
          rw [compactMembers]
          show readMembers? (steps + 1) ((stringText (some s)).toList ++
            (':' :: ((compact value).toList ++ '\x7d' :: rest))) = _
          rw [readMembers?_member, hvalue steps ('\x7d' :: rest) (by omega)
            (endsNumber_cons (by decide) rest)]
          rfl
  | cons member members ih =>
      rcases member with ⟨nextName, next⟩
      rcases Option.isSome_iff_exists.mp hname with ⟨s, rfl⟩
      rw [toList_compactMembers_cons] at hsteps ⊢
      simp only [List.length_cons, List.length_append] at hsteps
      cases steps with
      | zero => cases hsteps
      | succ steps =>
          have hothers := ih nextName next
            (hnames (nextName, next) List.mem_cons_self)
            (hvalues (nextName, next) List.mem_cons_self)
            (fun member hmem => hnames member (List.mem_cons_of_mem _ hmem))
            (fun member hmem => hvalues member (List.mem_cons_of_mem _ hmem))
            steps (by omega)
          rw [List.cons_append, List.append_assoc, List.cons_append,
            List.append_assoc, readMembers?_member,
            hvalue steps _ (by omega) (endsNumber_cons (by decide) _)]
          simp only [Option.bind_some]
          rw [skipSpaces_cons (by decide)]
          simp only
          rw [hothers]
          rfl

theorem readsBack_object {members : List (Option String × Json)}
    (hnames : forall member, member ∈ members → member.1.isSome = true)
    (hvalues : forall member, member ∈ members → ReadsBack member.2) :
    ReadsBack (object members) := by
  refine readsBack_of_succ fun steps rest hsteps _ => ?_
  cases members with
  | nil =>
      rw [compact]
      rfl
  | cons member members =>
      rcases member with ⟨name, value⟩
      rw [toList_compact_object] at hsteps ⊢
      simp only [List.length_cons, List.length_append, List.length_nil] at hsteps
      have hread := readMembers?_compact name value members rest
        (hnames (name, value) List.mem_cons_self)
        (hvalues (name, value) List.mem_cons_self)
        (fun member hmem => hnames member (List.mem_cons_of_mem _ hmem))
        (fun member hmem => hvalues member (List.mem_cons_of_mem _ hmem))
        steps (by omega)
      rcases toList_stringText name with ⟨tail, htext⟩
      rw [htext, List.cons_append] at hread
      rw [htext]
      simp only [List.cons_append, List.append_assoc, List.nil_append]
      rw [readValue?, skipSpaces_cons (by decide)]
      simp only
      rw [skipSpaces_cons (by decide), hread]
      rfl

/-!
# Documents
-/

theorem Textual.readsBack {j : Json} (h : Textual j) : ReadsBack j := by
  induction h with
  | null => exact readsBack_null
  | bool value => exact readsBack_bool value
  | number value => exact readsBack_number value
  | string s => exact readsBack_string s
  | array _ ih => exact readsBack_array ih
  | object hnames _ ih => exact readsBack_object hnames ih

/-- The compact text of a value is a document of that value. -/
theorem parse?_compact {j : Json} (h : Textual j) : parse? (compact j) = some j := by
  have hread := h.readsBack (2 * (compact j).toList.length + 2) [] (by omega) (by
    intro c tail heq
    cases heq)
  rw [List.append_nil] at hread
  unfold parse?
  simp only
  rw [hread]
  rfl

end Json

end MarkupForest
