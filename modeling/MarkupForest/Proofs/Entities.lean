import MarkupForest.Proofs.MarkupLiterals

/-!
# Entities read back

Entities are replaced in one pass from left to right, and what an entity stands
for is not looked at again.  Texts between tags and quoted values are encoded
character by character: a character becomes an entity or stays as it is, and the
ampersand never stays.  So a decoder finds each character again, whatever the
text looks like, and every ampersand begins an entity.
-/

namespace MarkupForest

namespace Text

structure Entity where
  name : String
  char : Char
  deriving DecidableEq

/-- The entities that encoded texts may contain. -/
def entities : List Entity :=
  [ ⟨"&amp;", '&'⟩, ⟨"&lt;", '<'⟩, ⟨"&gt;", '>'⟩, ⟨"&quot;", '"'⟩,
    ⟨"&#123;", '\x7b'⟩, ⟨"&#125;", '\x7d'⟩ ]

/-- The entity at the front of a text. -/
def entityAt? (cs : List Char) : Option Entity :=
  entities.find? fun e => e.name.toList.isPrefixOf cs

/-- Replace every entity by what it stands for, in one pass. -/
def decodeEntities : List Char → List Char
  | [] => []
  | c :: rest =>
      match entityAt? (c :: rest) with
      | some e => e.char :: decodeEntities (rest.drop (e.name.length - 1))
      | none => c :: decodeEntities rest
termination_by cs => cs.length
decreasing_by
  · rw [List.length_drop, List.length_cons]
    omega
  · exact Nat.lt_succ_self _

def decoded (s : String) : String :=
  String.ofList (decodeEntities s.toList)

example : decoded "&amp;lt; &quot;&#38;" = "&lt; \"&#38;" := by cbv

variable {cs ds rest : List Char} {c d : Char} {e : Entity}

/-- A character is encoded as its entity or, unless it is the ampersand, left as
it is. -/
inductive Encoding : Char → List Char → Prop where
  | plain {c : Char} (h : c ≠ '&') : Encoding c [c]
  | entity {e : Entity} (he : e ∈ entities) : Encoding e.char e.name.toList

/-- Every ampersand begins an entity. -/
def Referenced (cs : List Char) : Prop :=
  forall before behind, cs = before ++ '&' :: behind →
    exists e, e ∈ entities ∧ e.name.toList <+: '&' :: behind

/-- The first text is what the second one decodes to, and only entities are
decoded. -/
structure EncodedAs (s encoded : String) : Prop where
  decoded : decoded encoded = s
  referenced : Referenced encoded.toList

/-!
# The decoder
-/

theorem exists_ampersand (he : e ∈ entities) :
    exists name, e.name.toList = '&' :: name ∧ '&' ∉ name := by
  simp only [entities, List.mem_cons, List.not_mem_nil, or_false] at he
  rcases he with rfl | rfl | rfl | rfl | rfl | rfl
  all_goals exact ⟨_, rfl, by decide⟩

theorem decodeEntities_entity (he : e ∈ entities) (rest : List Char) :
    decodeEntities (e.name.toList ++ rest) = e.char :: decodeEntities rest := by
  simp only [entities, List.mem_cons, List.not_mem_nil, or_false] at he
  rcases he with rfl | rfl | rfl | rfl | rfl | rfl
  all_goals
    show decodeEntities ('&' :: _) = _
    rw [decodeEntities]
    rfl

theorem decodeEntities_plain (h : c ≠ '&') (rest : List Char) :
    decodeEntities (c :: rest) = c :: decodeEntities rest := by
  have hnone : entityAt? (c :: rest) = none := by
    unfold entityAt?
    rw [List.find?_eq_none]
    intro e he
    rcases exists_ampersand he with ⟨name, hname, _⟩
    rw [hname, List.isPrefixOf_cons_cons, beq_false_of_ne (Ne.symm h),
      Bool.false_and]
    decide
  rw [decodeEntities, hnone]

theorem Encoding.decodeEntities (h : Encoding c cs) (rest : List Char) :
    decodeEntities (cs ++ rest) = c :: decodeEntities rest := by
  cases h with
  | plain h => exact decodeEntities_plain h rest
  | entity he => exact decodeEntities_entity he rest

/-!
# Encoded texts
-/

section

variable {write : Char → List Char}

theorem decodeEntities_encoded (h : forall c, Encoding c (write c))
    (cs : List Char) : decodeEntities (cs.flatMap write) = cs := by
  induction cs with
  | nil => rw [List.flatMap_nil, decodeEntities]
  | cons c cs ih => rw [List.flatMap_cons, (h c).decodeEntities, ih]

theorem Referenced.append (hcs : Referenced cs) (hds : Referenced ds) :
    Referenced (cs ++ ds) := by
  intro before behind heq
  rcases append_eq_around heq with ⟨middle, hleft, rfl⟩ | ⟨middle, _, hright⟩
  · rcases hcs before middle hleft with ⟨e, he, hfront⟩
    exact ⟨e, he, hfront.trans (List.prefix_append ('&' :: middle) ds)⟩
  · exact hds middle behind hright

theorem Encoding.referenced (h : Encoding c cs) : Referenced cs := by
  intro before behind heq
  cases h with
  | plain h =>
      have hmem : '&' ∈ [c] := heq ▸ List.mem_append_right before List.mem_cons_self
      exact absurd (List.mem_singleton.mp hmem) (Ne.symm h)
  | @entity e he =>
      rcases exists_ampersand he with ⟨name, hname, hnone⟩
      rw [hname] at heq
      cases before with
      | nil => exact ⟨e, he, by rw [hname, heq]; exact List.prefix_refl _⟩
      | cons d before =>
          cases heq
          exact absurd (List.mem_append_right before List.mem_cons_self) hnone

theorem referenced_encoded (h : forall c, Encoding c (write c))
    (cs : List Char) : Referenced (cs.flatMap write) := by
  induction cs with
  | nil =>
      intro before behind heq
      cases before <;> cases heq
  | cons c cs ih =>
      rw [List.flatMap_cons]
      exact (h c).referenced.append ih

theorem Encoding.mem (h : Encoding c cs) (hd : d ∈ cs) :
    (d = c ∧ cs = [c]) ∨ exists e, e ∈ entities ∧ d ∈ e.name.toList := by
  cases h with
  | plain => exact Or.inl ⟨List.mem_singleton.mp hd, rfl⟩
  | entity he => exact Or.inr ⟨_, he, hd⟩

/-- A character that no entity is written with comes from itself. -/
theorem stays_of_mem_encoded (h : forall c, Encoding c (write c))
    (hentities : forall e, e ∈ entities → d ∉ e.name.toList)
    (hmem : d ∈ cs.flatMap write) : d ∈ cs ∧ write d = [d] := by
  rcases List.mem_flatMap.mp hmem with ⟨c, hc, hwritten⟩
  rcases (h c).mem hwritten with ⟨rfl, hsame⟩ | ⟨e, he, hname⟩
  · exact ⟨hc, hsame⟩
  · exact absurd hname (hentities e he)

theorem not_mem_encoded (h : forall c, Encoding c (write c))
    (hentities : forall e, e ∈ entities → d ∉ e.name.toList)
    (hd : write d ≠ [d]) (cs : List Char) : d ∉ cs.flatMap write :=
  fun hmem => hd (stays_of_mem_encoded h hentities hmem).right

theorem mem_encoded_iff (h : forall c, Encoding c (write c))
    (hentities : forall e, e ∈ entities → d ∉ e.name.toList)
    (hd : write d = [d]) (cs : List Char) : d ∈ cs.flatMap write ↔ d ∈ cs := by
  constructor
  · exact fun hmem => (stays_of_mem_encoded h hentities hmem).left
  · exact fun hmem => List.mem_flatMap.mpr ⟨d, hmem, hd ▸ List.mem_singleton_self d⟩

theorem encodedAs_replaceChars (h : forall c, Encoding c (write c)) (s : String) :
    EncodedAs s (replaceChars write s) := by
  constructor
  · unfold decoded
    rw [toList_replaceChars, decodeEntities_encoded h, String.ofList_toList]
  · rw [toList_replaceChars]
    exact referenced_encoded h s.toList

end

/-!
# Texts, values, and texts with braces
-/

theorem encoding_textEntity (c : Char) : Encoding c (textEntity c) := by
  unfold textEntity
  split
  · rename_i hc
    subst hc
    exact Encoding.entity (e := ⟨"&amp;", '&'⟩) (by decide)
  · rename_i hc
    split
    · rename_i hlt
      subst hlt
      exact Encoding.entity (e := ⟨"&lt;", '<'⟩) (by decide)
    · split
      · rename_i hgt
        subst hgt
        exact Encoding.entity (e := ⟨"&gt;", '>'⟩) (by decide)
      · exact Encoding.plain hc

theorem encoding_quotedEntity (c : Char) : Encoding c (quotedEntity c) := by
  unfold quotedEntity
  split
  · rename_i hc
    subst hc
    exact Encoding.entity (e := ⟨"&quot;", '"'⟩) (by decide)
  · exact encoding_textEntity c

/-- A character of a text that may not contain braces either. -/
def bracedEntity (c : Char) : List Char :=
  (textEntity c).flatMap braceReference

theorem encodeBraces_encodeText (s : String) :
    encodeBraces (encodeText s) = replaceChars bracedEntity s := by
  unfold encodeBraces encodeText replaceChars bracedEntity
  rw [String.toList_ofList, List.flatMap_assoc]

theorem braceReference_of_mem (hc : c ≠ '\x7b' ∧ c ≠ '\x7d')
    (hd : d ∈ textEntity c) : braceReference d = [d] := by
  have hentities : forall e, e ∈ entities →
      '\x7b' ∉ e.name.toList ∧ '\x7d' ∉ e.name.toList := by decide
  have hne : d ≠ '\x7b' ∧ d ≠ '\x7d' := by
    rcases (encoding_textEntity c).mem hd with ⟨rfl, _⟩ | ⟨e, he, hname⟩
    · exact hc
    · exact ⟨fun heq => (hentities e he).left (heq ▸ hname),
        fun heq => (hentities e he).right (heq ▸ hname)⟩
  unfold braceReference
  rw [if_neg hne.left, if_neg hne.right]

theorem encoding_bracedEntity (c : Char) : Encoding c (bracedEntity c) := by
  by_cases hopen : c = '\x7b'
  · subst hopen
    exact Encoding.entity (e := ⟨"&#123;", '\x7b'⟩) (by decide)
  · by_cases hclose : c = '\x7d'
    · subst hclose
      exact Encoding.entity (e := ⟨"&#125;", '\x7d'⟩) (by decide)
    · unfold bracedEntity
      rw [flatMap_unchanged fun d => braceReference_of_mem ⟨hopen, hclose⟩]
      exact encoding_textEntity c

theorem not_mem_encodeQuoted (s : String) : '"' ∉ (encodeQuoted s).toList := by
  unfold encodeQuoted
  rw [toList_replaceChars]
  exact not_mem_encoded encoding_quotedEntity (by decide) (by decide) s.toList

/-!
# Both dialects
-/

theorem escapeText_jsx {s : String} (h : '\n' ∉ s.toList) :
    Dialect.jsx.escapeText s = replaceChars bracedEntity s := by
  rw [← encodeBraces_encodeText]
  exact if_neg h

theorem escapeText_jsx_line {s : String} (h : '\n' ∈ s.toList) :
    Dialect.jsx.escapeText s = "\x7b" ++ markupFreeLiteral s ++ "\x7d" :=
  if_pos h

theorem not_mem_escapeText {s : String} (h : '\n' ∉ s.toList)
    (hd : d = '\x7b' ∨ d = '\x7d') :
    d ∉ (Dialect.jsx.escapeText s).toList := by
  rw [escapeText_jsx h, toList_replaceChars]
  rcases hd with rfl | rfl
  · exact not_mem_encoded encoding_bracedEntity (by decide) (by decide) s.toList
  · exact not_mem_encoded encoding_bracedEntity (by decide) (by decide) s.toList

theorem EncodedAs.unique {s t encoded : String} (hs : EncodedAs s encoded)
    (ht : EncodedAs t encoded) : s = t :=
  hs.decoded.symm.trans ht.decoded

theorem injective_of_encodedAs {encode : String → String}
    (h : forall s, EncodedAs s (encode s)) : Function.Injective encode := by
  intro s t heq
  have hs := h s
  rw [heq] at hs
  exact hs.unique (h t)

theorem encodedAs_html : forall s, EncodedAs s (Dialect.html.escapeText s) :=
  encodedAs_replaceChars encoding_textEntity

theorem encodedAs_quoted : forall s, EncodedAs s (encodeQuoted s) :=
  encodedAs_replaceChars encoding_quotedEntity

theorem encodedAs_jsx {s : String} (h : '\n' ∉ s.toList) :
    EncodedAs s (Dialect.jsx.escapeText s) := by
  rw [escapeText_jsx h]
  exact encodedAs_replaceChars encoding_bracedEntity s

theorem escapeText_jsx_ne {s t : String} (hs : '\n' ∈ s.toList)
    (ht : '\n' ∉ t.toList) : Dialect.jsx.escapeText s ≠ Dialect.jsx.escapeText t := by
  intro heq
  apply not_mem_escapeText ht (Or.inl rfl)
  rw [← heq, escapeText_jsx_line hs, String.append_assoc, String.toList_append]
  exact List.mem_cons_self

theorem escapeText_jsx_injective : Function.Injective Dialect.jsx.escapeText := by
  intro s t heq
  by_cases hs : '\n' ∈ s.toList
  · by_cases ht : '\n' ∈ t.toList
    · rw [escapeText_jsx_line hs, escapeText_jsx_line ht] at heq
      have hliteral : markupFreeLiteral s = markupFreeLiteral t := by
        simpa [← String.toList_inj] using heq
      have hread := markupLiteral s
      rw [hliteral] at hread
      exact hread.unique (markupLiteral t)
    · exact absurd heq (escapeText_jsx_ne hs ht)
  · by_cases ht : '\n' ∈ t.toList
    · exact absurd heq.symm (escapeText_jsx_ne ht hs)
    · have hencoded := encodedAs_jsx hs
      rw [heq] at hencoded
      exact hencoded.unique (encodedAs_jsx ht)

/-- Escaping loses nothing and lets nothing through that is read as markup.  Texts
and quoted values are encoded by entities, which one pass decodes; so are texts in
JSX on a single line, where no brace is left either.  A text with a line feed
becomes a string literal there, in braces.  Different texts are escaped
differently, and nothing escaped has an angle bracket. -/
theorem escapes_read_back :
    (forall s, EncodedAs s (Dialect.html.escapeText s)) ∧
    (forall s, EncodedAs s (encodeQuoted s) ∧ '"' ∉ (encodeQuoted s).toList) ∧
    (forall s, '\n' ∉ s.toList → EncodedAs s (Dialect.jsx.escapeText s) ∧
      '\x7b' ∉ (Dialect.jsx.escapeText s).toList ∧
      '\x7d' ∉ (Dialect.jsx.escapeText s).toList) ∧
    (forall s, '\n' ∈ s.toList → exists literal,
      Dialect.jsx.escapeText s = "\x7b" ++ literal ++ "\x7d" ∧
        MarkupLiteral s literal) ∧
    (forall s, Bracketless (encodeQuoted s).toList ∧
      forall dialect : Dialect, Bracketless (dialect.escapeText s).toList) ∧
    Function.Injective encodeQuoted ∧
    forall dialect : Dialect, Function.Injective dialect.escapeText := by
  refine ⟨encodedAs_html, ?_, ?_, ?_, ?_, injective_of_encodedAs encodedAs_quoted, ?_⟩
  · exact fun s => ⟨encodedAs_quoted s, not_mem_encodeQuoted s⟩
  · exact fun s hs => ⟨encodedAs_jsx hs, not_mem_escapeText hs (Or.inl rfl),
      not_mem_escapeText hs (Or.inr rfl)⟩
  · exact fun s hs => ⟨_, escapeText_jsx_line hs, markupLiteral s⟩
  · exact fun s => ⟨bracketless_encodeQuoted s,
      fun dialect => bracketless_escapeText dialect s⟩
  · intro dialect
    cases dialect with
    | html => exact injective_of_encodedAs encodedAs_html
    | jsx => exact escapeText_jsx_injective

end Text

end MarkupForest
