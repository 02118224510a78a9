import Mathlib.Data.List.Nodup
import MarkupForest.Proofs.StyleLists

/-!
# Overridden styles

A browser takes the last declaration of a property, while a change replaces the
first one.  So a change takes effect exactly where a list declares the property at
most once, or where its last declaration has the changed value anyway.  There the
free properties of a node win over what follows from its type, and this wins over
the declarations of the type.
-/

namespace MarkupForest

namespace InlineStyle

/-- A list declares a property more than once, as lists with fallbacks do. -/
def Repeats (list : List Declaration) (name : String) : Prop :=
  1 < (list.map Prod.fst).count name

instance (list : List Declaration) (name : String) : Decidable (Repeats list name) :=
  inferInstanceAs (Decidable (_ < _))

/-- What a node asks for by a property of its own, whatever its type. -/
def asked? (node : Node) (name : String) : Option String :=
  if name = "color" then node.textProperty? "color"
  else if name = "background" then node.textProperty? "background"
  else if name = "text-align" then node.textProperty? "align"
  else if name = "width" then (node.property? "width").map lengthText
  else if name = "height" then (node.property? "height").map lengthText
  else none

variable {list changes : List Declaration} {d : Declaration}
  {name value : String} {node : Node}

/-!
# Changes
-/

theorem repeats_setDeclaration :
    Repeats (setDeclaration list d) name ↔ Repeats list name := by
  unfold Repeats setDeclaration
  rcases OrderedMap.insertEntry_cases d.1 d.2 list with
    ⟨hnew, hset⟩ | ⟨before, old, after, rfl, _, hset⟩
  · rw [hset, List.map_append, List.count_append]
    by_cases hname : name = d.1
    · rw [hname, List.count_eq_zero.mpr hnew]
      simp
    · simp [Ne.symm hname]
  · rw [hset]
    simp only [List.map_append, List.map_cons]

theorem effective?_setDeclaration_of_ne (h : name ≠ d.1) :
    effective? (setDeclaration list d) name = effective? list name := by
  unfold setDeclaration
  rcases OrderedMap.insertEntry_cases d.1 d.2 list with
    ⟨_, hset⟩ | ⟨before, old, after, rfl, _, hset⟩
  · rw [hset, effective?_append, effective?_cons, if_neg h]
    rfl
  · simp only [hset, effective?_append, effective?_cons, if_neg h]

theorem effective?_setDeclaration_of_repeats (h : Repeats list d.1) :
    effective? (setDeclaration list d) d.1 = effective? list d.1 := by
  unfold Repeats at h
  unfold setDeclaration
  rcases OrderedMap.insertEntry_cases d.1 d.2 list with
    ⟨hnew, _⟩ | ⟨before, old, after, rfl, hnew, hset⟩
  · rw [List.count_eq_zero.mpr hnew] at h
    omega
  · rw [List.map_append, List.map_cons, List.count_append, List.count_cons_self,
      List.count_eq_zero.mpr hnew] at h
    have hafter : effective? after d.1 ≠ none := by
      rw [Ne, effective?_eq_none_iff, not_not, ← List.count_pos_iff]
      omega
    rcases Option.ne_none_iff_exists'.mp hafter with ⟨last, hlast⟩
    simp only [hset, effective?_append, effective?_cons, hlast, Option.some_or]

theorem effective?_setDeclaration_of_not_repeats (h : ¬ Repeats list d.1) :
    effective? (setDeclaration list d) d.1 = some d.2 := by
  unfold Repeats at h
  unfold setDeclaration
  rcases OrderedMap.insertEntry_cases d.1 d.2 list with
    ⟨_, hset⟩ | ⟨before, old, after, rfl, hnew, hset⟩
  · rw [hset, effective?_append, effective?_cons, if_pos rfl]
    rfl
  · rw [List.map_append, List.map_cons, List.count_append, List.count_cons_self] at h
    have hafter : effective? after d.1 = none := by
      rw [effective?_eq_none_iff, ← List.count_eq_zero]
      omega
    rw [hset, effective?_append, effective?_cons, hafter, if_pos rfl]
    rfl

theorem effective?_setDeclarations_of_repeats (h : Repeats list name) :
    effective? (setDeclarations list changes) name = effective? list name := by
  induction changes generalizing list with
  | nil => rfl
  | cons d rest ih =>
      show effective? (setDeclarations (setDeclaration list d) rest) name = _
      rw [ih (repeats_setDeclaration.mpr h)]
      by_cases hname : name = d.1
      · subst hname
        exact effective?_setDeclaration_of_repeats h
      · exact effective?_setDeclaration_of_ne hname

theorem effective?_setDeclarations_of_not_repeats (h : ¬ Repeats list name) :
    effective? (setDeclarations list changes) name =
      (effective? changes name).or (effective? list name) := by
  induction changes generalizing list with
  | nil => rfl
  | cons d rest ih =>
      show effective? (setDeclarations (setDeclaration list d) rest) name = _
      rw [ih (repeats_setDeclaration.not.mpr h), effective?_cons, Option.or_assoc]
      by_cases hname : name = d.1
      · subst hname
        rw [effective?_setDeclaration_of_not_repeats h, if_pos rfl]
        rfl
      · rw [effective?_setDeclaration_of_ne hname, if_neg hname]
        rfl

/-!
# What a node asks for
-/

theorem effective?_choice (choice : Option String) (key : String)
    (others : List (Option Declaration)) (name : String) :
    effective? ((choice.map (key, ·) :: others).filterMap id) name =
      (effective? (others.filterMap id) name).or
        (if name = key then choice else none) := by
  cases choice with
  | none => simp
  | some value => exact effective?_cons (key, value) _ name

theorem effective?_freeDeclarations (node : Node) (name : String) :
    effective? (freeDeclarations node) name = asked? node name := by
  have hlength : forall key : String,
      ((node.property? key).map fun value => (key, lengthText value)) =
        ((node.property? key).map lengthText).map (key, ·) := by
    intro key
    rw [Option.map_map]
    rfl
  unfold freeDeclarations asked?
  simp only [hlength, effective?_choice]
  by_cases hname : name ∈ ["color", "background", "text-align", "width", "height"]
  · simp only [List.mem_cons, List.not_mem_nil, or_false] at hname
    rcases hname with rfl | rfl | rfl | rfl | rfl
    all_goals simp [effective?]
  · simp only [List.mem_cons, List.not_mem_nil, or_false, not_or] at hname
    rcases hname with ⟨hcolor, hbackground, halign, hwidth, hheight⟩
    simp [hcolor, hbackground, halign, hwidth, hheight, effective?]

/-- The declarations of a type come first, then what follows from the type and the
properties of the node, and last what the node asks for. -/
theorem effective?_declarations (node : Node) (base : List Declaration)
    (name : String) :
    effective? (declarations node base) name =
      if Repeats base name then effective? base name
      else ((asked? node name).or (effective? (typeDeclarations node) name)).or
        (effective? base name) := by
  unfold declarations
  split
  · next hrepeats => exact effective?_setDeclarations_of_repeats hrepeats
  · next hrepeats =>
      rw [effective?_setDeclarations_of_not_repeats hrepeats, effective?_append,
        effective?_freeDeclarations]

/-!
# Lists without fallbacks
-/

theorem not_repeats_of_nodup (h : (list.map Prod.fst).Nodup) (name : String) :
    ¬ Repeats list name :=
  Nat.not_lt.mpr (List.nodup_iff_count_le_one.mp h name)

/-- What a node asks for takes effect exactly if the declarations of its type have
the property at most once, or give it that very value last.  There a free property
wins over what follows from the type and its variants, and this wins over the
declarations of the type.  The standard registry repeats no property, so there
every node gets what it asks for. -/
theorem overrides_effective_iff (node : Node) (base : List Declaration) :
    (forall name value, asked? node name = some value →
      (effective? (declarations node base) name = some value ↔
        (Repeats base name → effective? base name = some value))) ∧
    (forall name, ¬ Repeats base name →
      effective? (declarations node base) name =
        ((asked? node name).or (effective? (typeDeclarations node) name)).or
          (effective? base name)) ∧
    (forall name, Repeats base name →
      effective? (declarations node base) name = effective? base name) ∧
    (forall type descriptor list,
      Registry.standard.find? type = some descriptor →
      descriptor.strategy? ProfileId.inlineStyle = some (.declarations list) →
      forall name, ¬ Repeats list name) ∧
    -- what a node asks for
    asked? node "color" = node.textProperty? "color" ∧
    asked? node "background" = node.textProperty? "background" ∧
    asked? node "text-align" = node.textProperty? "align" ∧
    asked? node "width" = (node.property? "width").map lengthText ∧
    asked? node "height" = (node.property? "height").map lengthText ∧
    forall x, lengthText (.number x) = x.plainText ++ "px" := by
  refine ⟨?_, ?_, ?_, ?_, rfl, rfl, rfl, rfl, rfl, fun _ => rfl⟩
  · intro name value hasked
    rw [effective?_declarations, hasked]
    by_cases hrepeats : Repeats base name
    · rw [if_pos hrepeats]
      exact ⟨fun heq _ => heq, fun heq => heq hrepeats⟩
    · rw [if_neg hrepeats]
      exact iff_of_true rfl fun hmore => absurd hmore hrepeats
  · intro name hrepeats
    rw [effective?_declarations, if_neg hrepeats]
  · intro name hrepeats
    rw [effective?_declarations, if_pos hrepeats]
  · intro type descriptor list hfind hstyle
    exact not_repeats_of_nodup (nodup_of_standard hfind hstyle)

theorem overrides_effective_of_button :
    let node : Node :=
      { id := .generate .button 1
        type := .button
        properties := .ofList
          [("variant", .text "destructive"), ("background", .text "navy"),
            ("width", .number (.ofNat 12))]
        parent := none
        children := [] }
    let base := [("background", "white"), ("color", "black"), ("cursor", "pointer")]
    (forall name, ¬ Repeats base name) ∧
      effective? (declarations node base) "background" = some "navy" ∧
      effective? (declarations node base) "color" = some "#ffffff" ∧
      effective? (declarations node base) "cursor" = some "pointer" ∧
      effective? (declarations node base) "width" = some "12px" := by
  intro node base
  have hbase : forall name, ¬ Repeats base name :=
    not_repeats_of_nodup (by decide)
  rcases overrides_effective_iff node base with ⟨hasked, hlayers, _⟩
  refine ⟨hbase, ?_, ?_, ?_, ?_⟩
  · exact (hasked "background" "navy" rfl).mpr fun hmore => absurd hmore (hbase _)
  · rw [hlayers "color" (hbase _)]
    decide +kernel
  · rw [hlayers "cursor" (hbase _)]
    decide +kernel
  · rw [hlayers "width" (hbase _)]
    decide +kernel

/-- A fallback for old browsers is all that changes: the color behind it stays. -/
theorem repeated_color_kept :
    let base := [("color", "red"), ("color", "blue")]
    let descriptor := (Descriptor.basic .card "div").withStyle base
    let node : Node :=
      { id := .generate .card 1
        type := .card
        properties := .ofList [("color", .text "green")]
        parent := none
        children := [] }
    asked? node "color" = some "green" ∧
      Repeats base "color" ∧
      effective? (declarations node base) "color" = some "blue" ∧
      InlineStyle.profile.element descriptor node =
        (⟨"div", [Attribute.text "style" "color: green; color: blue"], none⟩,
          false) := by
  intro base descriptor node
  refine ⟨rfl, by decide, by decide +kernel, ?_⟩
  decide +kernel

end InlineStyle

end MarkupForest
