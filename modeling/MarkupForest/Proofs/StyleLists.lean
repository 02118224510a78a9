import Mathlib.Data.List.Induction
import MarkupForest.Profile.InlineStyle
import MarkupForest.Registry.Standard

/-!
# Style lists

Declarations that follow from a node are set one after the other.  Each of them
changes a property where it stands, or comes last.  So the properties of the type
stay in front, in their order, and the new ones follow in the order in which they
came up.
-/

namespace MarkupForest

namespace InlineStyle

/-- The value that a list of declarations gives to a property: that of the last
declaration. -/
def effective? (list : List Declaration) (name : String) : Option String :=
  list.reverse.lookup name

/-- One name occurs in a list before the other does. -/
def ComesFirst (names : List String) (one other : String) : Prop :=
  names.idxOf one < names.idxOf other

/-- What a sequence of names adds to the names that are there: the new ones, each
once, in the order in which they come up. -/
structure AddedBy (names present added : List String) : Prop where
  mem_iff : forall name, name ∈ added ↔ name ∈ names ∧ name ∉ present
  ordered : added.Pairwise (ComesFirst names)

/-- The properties that may follow from a type, in the order in which they are
set. -/
def typeNames : NodeType → List String
  | .heading => ["font-size"]
  | .grid => ["grid-template-columns"]
  | .button =>
      ["background", "color", "border", "padding", "font-size", "opacity", "cursor"]
  | .badge => ["background", "color"]
  | .alert => ["border", "background"]
  | _ => []

/-- The properties that any node may ask for, in the order in which they are set. -/
def freeNames : List String :=
  ["color", "background", "text-align", "width", "height"]

variable {list changes : List Declaration} {name : String}
  {names present added : List String}

/-!
# Effective values
-/

theorem effective?_append (first second : List Declaration) (name : String) :
    effective? (first ++ second) name =
      (effective? second name).or (effective? first name) := by
  unfold effective?
  rw [List.reverse_append, List.lookup_append]

theorem effective?_cons (d : Declaration) (list : List Declaration) (name : String) :
    effective? (d :: list) name =
      (effective? list name).or (if name = d.1 then some d.2 else none) := by
  show effective? ([d] ++ list) name = _
  rw [effective?_append]
  exact congrArg (Option.or _) (OrderedMap.lookup_cons_eq_ite d.1 name d.2 [])

theorem effective?_eq_none_iff :
    effective? list name = none ↔ name ∉ list.map Prod.fst := by
  induction list with
  | nil => simp [effective?]
  | cons d rest ih =>
      rw [effective?_cons, Option.or_eq_none_iff, ih, List.map_cons,
        List.mem_cons, not_or, and_comm]
      simp

/-!
# Changed declarations
-/

theorem lookup_setDeclaration (list : List Declaration) (d : Declaration)
    (name : String) :
    (setDeclaration list d).lookup name =
      if name = d.1 then some d.2 else list.lookup name :=
  OrderedMap.lookup_insertEntry d.1 name d.2 list

theorem setDeclarations_append (list first second : List Declaration) :
    setDeclarations list (first ++ second) =
      setDeclarations (setDeclarations list first) second :=
  List.foldl_append

theorem lookup_setDeclarations (list changes : List Declaration) (name : String) :
    (setDeclarations list changes).lookup name =
      (effective? changes name).or (list.lookup name) :=
  OrderedMap.lookup_foldl_insertEntry changes list name

theorem nodup_setDeclarations (h : (list.map Prod.fst).Nodup) :
    ((setDeclarations list changes).map Prod.fst).Nodup := by
  induction changes generalizing list with
  | nil => exact h
  | cons d rest ih => exact ih (OrderedMap.nodup_insertEntry h)

theorem mem_setDeclarations_of_not_mem (h : (list.map Prod.fst).Nodup)
    {d : Declaration} (hd : d ∈ list) (hname : d.1 ∉ changes.map Prod.fst) :
    d ∈ setDeclarations list changes := by
  have hlookup : (setDeclarations list changes).lookup d.1 = some d.2 := by
    rw [lookup_setDeclarations, effective?_eq_none_iff.mpr hname, Option.none_or]
    exact (OrderedMap.lookup_eq_some_iff_mem h).mpr hd
  exact OrderedMap.mem_of_lookup hlookup

theorem effective?_of_mem_setDeclarations (h : (list.map Prod.fst).Nodup)
    {d : Declaration} (hd : d ∈ setDeclarations list changes)
    (hname : d.1 ∈ changes.map Prod.fst) :
    effective? changes d.1 = some d.2 := by
  have hlookup : (setDeclarations list changes).lookup d.1 = some d.2 :=
    (OrderedMap.lookup_eq_some_iff_mem (nodup_setDeclarations h)).mpr hd
  have hset : effective? changes d.1 ≠ none := fun hnone =>
    effective?_eq_none_iff.mp hnone hname
  rcases Option.ne_none_iff_exists'.mp hset with ⟨value, hvalue⟩
  rw [lookup_setDeclarations, hvalue, Option.some_or] at hlookup
  rw [hvalue, hlookup]

/-!
# The order of the properties
-/

theorem ComesFirst.append {one other : String} (h : ComesFirst names one other)
    (hone : one ∈ names) (hother : other ∈ names) (more : List String) :
    ComesFirst (names ++ more) one other := by
  unfold ComesFirst
  rw [List.idxOf_append, if_pos hone, List.idxOf_append, if_pos hother]
  exact h

theorem comesFirst_last {one : String} (hone : one ∈ names) (hname : name ∉ names) :
    ComesFirst (names ++ [name]) one name := by
  unfold ComesFirst
  rw [List.idxOf_append, if_pos hone, List.idxOf_append, if_neg hname]
  exact Nat.lt_of_lt_of_le (List.idxOf_lt_length_of_mem hone) (Nat.le_add_left _ _)

theorem addedBy_nil (present : List String) : AddedBy [] present [] :=
  ⟨fun _ => by simp, List.Pairwise.nil⟩

theorem AddedBy.ordered_append (h : AddedBy names present added)
    (more : List String) : added.Pairwise (ComesFirst (names ++ more)) :=
  h.ordered.imp_of_mem fun hone hother hfirst =>
    hfirst.append ((h.mem_iff _).mp hone).left ((h.mem_iff _).mp hother).left more

theorem AddedBy.known (h : AddedBy names present added)
    (hname : name ∈ present ++ added) : AddedBy (names ++ [name]) present added := by
  refine ⟨?_, h.ordered_append [name]⟩
  intro other
  rw [h.mem_iff, List.mem_append, List.mem_singleton]
  constructor
  · rintro ⟨hother, hnew⟩
    exact ⟨Or.inl hother, hnew⟩
  · rintro ⟨hother | rfl, hnew⟩
    · exact ⟨hother, hnew⟩
    · exact (h.mem_iff _).mp ((List.mem_append.mp hname).resolve_left hnew)

theorem AddedBy.new (h : AddedBy names present added)
    (hname : name ∉ present ++ added) :
    AddedBy (names ++ [name]) present (added ++ [name]) := by
  rw [List.mem_append, not_or] at hname
  have hnew : name ∉ names := fun hmem =>
    hname.right ((h.mem_iff name).mpr ⟨hmem, hname.left⟩)
  constructor
  · intro other
    rw [List.mem_append, h.mem_iff, List.mem_append, List.mem_singleton]
    constructor
    · rintro (⟨hother, habsent⟩ | rfl)
      · exact ⟨Or.inl hother, habsent⟩
      · exact ⟨Or.inr rfl, hname.left⟩
    · rintro ⟨hother | rfl, habsent⟩
      · exact Or.inl ⟨hother, habsent⟩
      · exact Or.inr rfl
  · rw [List.pairwise_append]
    refine ⟨h.ordered_append [name], List.pairwise_singleton _ _, ?_⟩
    intro one hone other hother
    rw [List.mem_singleton.mp hother]
    exact comesFirst_last ((h.mem_iff one).mp hone).left hnew

/-- Changes leave the properties that are there in their order, and add the new ones
behind them. -/
theorem exists_addedBy (list changes : List Declaration) :
    exists added,
      AddedBy (changes.map Prod.fst) (list.map Prod.fst) added ∧
      (setDeclarations list changes).map Prod.fst = list.map Prod.fst ++ added := by
  -- from the end: a name is new against all the changes before it
  induction changes using List.reverseRecOn with
  | nil => exact ⟨[], addedBy_nil _, (List.append_nil _).symm⟩
  | append_singleton earlier d ih =>
      rcases ih with ⟨added, hadded, hnames⟩
      have hset : (setDeclarations list (earlier ++ [d])).map Prod.fst =
          if d.1 ∈ list.map Prod.fst ++ added then list.map Prod.fst ++ added
          else list.map Prod.fst ++ added ++ [d.1] := by
        rw [setDeclarations_append, ← hnames]
        exact OrderedMap.keys_insertEntry d.1 d.2 _
      rw [hset, List.map_append]
      by_cases hmem : d.1 ∈ list.map Prod.fst ++ added
      · exact ⟨added, hadded.known hmem, if_pos hmem⟩
      · refine ⟨added ++ [d.1], hadded.new hmem, ?_⟩
        rw [if_neg hmem, List.append_assoc]

/-!
# What a node may set
-/

theorem names_headingDeclarations (node : Node) :
    ((headingDeclarations node).map Prod.fst).Sublist (typeNames .heading) := by
  unfold headingDeclarations
  split
  · exact List.Sublist.refl _
  · exact List.nil_sublist _

theorem names_gridDeclarations (node : Node) :
    ((gridDeclarations node).map Prod.fst).Sublist (typeNames .grid) := by
  unfold gridDeclarations
  split
  · exact List.Sublist.refl _
  · exact List.nil_sublist _

theorem names_buttonColors (variant : String) :
    ((buttonColors variant).map Prod.fst).Sublist
      ["background", "color", "border"] := by
  unfold buttonColors
  split_ifs
  all_goals decide

theorem names_buttonSize (size : String) :
    ((buttonSize size).map Prod.fst).Sublist ["padding", "font-size"] := by
  unfold buttonSize
  split_ifs
  all_goals decide

theorem names_buttonDeclarations (node : Node) :
    ((buttonDeclarations node).map Prod.fst).Sublist (typeNames .button) := by
  have hdisabled : ((if node.hasFlag "disabled" then
      [("opacity", "0.5"), ("cursor", "not-allowed")]
    else []).map Prod.fst).Sublist ["opacity", "cursor"] := by
    split
    · exact List.Sublist.refl _
    · exact List.nil_sublist _
  unfold buttonDeclarations
  rw [List.map_append, List.map_append]
  exact ((names_buttonColors _).append (names_buttonSize _)).append hdisabled

theorem names_typeDeclarations (node : Node) :
    ((typeDeclarations node).map Prod.fst).Sublist (typeNames node.type) := by
  unfold typeDeclarations
  split
  · next htype =>
      rw [htype]
      exact names_headingDeclarations node
  · next htype =>
      rw [htype]
      exact names_gridDeclarations node
  · next htype =>
      rw [htype]
      exact names_buttonDeclarations node
  · next htype =>
      rw [htype]
      exact List.Sublist.refl _
  · next htype =>
      rw [htype]
      exact List.Sublist.refl _
  · exact List.nil_sublist _

theorem sublist_choice {α : Type} {others : List (Option Declaration)}
    (h : ((others.filterMap id).map Prod.fst).Sublist names) (key : String)
    (choice : Option α) (value : α → String) :
    ((((choice.map fun a => (key, value a)) :: others).filterMap id).map
      Prod.fst).Sublist (key :: names) := by
  cases choice with
  | none => exact h.cons key
  | some a => exact h.cons_cons key

theorem names_freeDeclarations (node : Node) :
    ((freeDeclarations node).map Prod.fst).Sublist freeNames := by
  unfold freeDeclarations freeNames
  iterate 5 apply sublist_choice
  exact List.nil_sublist []

/-!
# The standard styles
-/

theorem nodup_standard_styles :
    (Registry.standard.descriptors.entries.all fun entry =>
      match entry.2.strategy? ProfileId.inlineStyle with
      | some (.declarations list) => decide (list.map Prod.fst).Nodup
      | _ => true) = true := by
  decide +kernel

theorem nodup_of_standard {type : NodeType} {descriptor : Descriptor}
    (hfind : Registry.standard.find? type = some descriptor)
    (hstyle : descriptor.strategy? ProfileId.inlineStyle =
      some (.declarations list)) : (list.map Prod.fst).Nodup := by
  have hall := List.all_eq_true.mp nodup_standard_styles (type, descriptor)
    (OrderedMap.mem_of_find? hfind)
  rw [hstyle] at hall
  exact of_decide_eq_true hall

/-- A node declares every property once.  The properties of its type come first, in
their order and without a gap; those that are not set keep their values.  Behind
them come the new properties, in the order in which they are set first.  What is set
has the value that it is set to last.  The type of the node limits what may be set,
and no standard type declares a property twice. -/
theorem declarations_ordered (node : Node) (base : List Declaration)
    (hbase : (base.map Prod.fst).Nodup) :
    let changes := typeDeclarations node ++ freeDeclarations node
    exists kept added,
      declarations node base = kept ++ added ∧
      ((kept ++ added).map Prod.fst).Nodup ∧
      -- the properties of the type
      kept.map Prod.fst = base.map Prod.fst ∧
      (forall d, d ∈ base → d.1 ∉ changes.map Prod.fst → d ∈ kept) ∧
      -- the new properties
      AddedBy (changes.map Prod.fst) (base.map Prod.fst) (added.map Prod.fst) ∧
      -- the values that are set
      (forall d, d ∈ kept ++ added → d.1 ∈ changes.map Prod.fst →
        effective? changes d.1 = some d.2) ∧
      -- what may be set
      (changes.map Prod.fst).Sublist (typeNames node.type ++ freeNames) ∧
      -- what the standard types declare
      forall type descriptor list,
        Registry.standard.find? type = some descriptor →
        descriptor.strategy? ProfileId.inlineStyle = some (.declarations list) →
        (list.map Prod.fst).Nodup := by
  intro changes
  have hdeclared : declarations node base = setDeclarations base changes := rfl
  rcases exists_addedBy base changes with ⟨new, hnew, hnames⟩
  rcases List.map_eq_append_iff.mp hnames with ⟨kept, added, hparts, hkept, rfl⟩
  refine ⟨kept, added, hdeclared.trans hparts, ?_, hkept, ?_, hnew, ?_, ?_,
    fun _ _ _ => nodup_of_standard⟩
  · rw [← hparts]
    exact nodup_setDeclarations hbase
  · intro d hd hunset
    have hmem : d ∈ kept ++ added :=
      hparts ▸ mem_setDeclarations_of_not_mem hbase hd hunset
    refine (List.mem_append.mp hmem).resolve_right fun hadded => ?_
    exact hunset ((hnew.mem_iff d.1).mp (List.mem_map_of_mem hadded)).left
  · intro d hd hset
    exact effective?_of_mem_setDeclarations hbase (hparts ▸ hd) hset
  · rw [List.map_append]
    exact (names_typeDeclarations node).append (names_freeDeclarations node)

theorem declarations_ordered_of_button :
    let node : Node :=
      { id := .generate .button 1
        type := .button
        properties := .ofList
          [("width", .number (.ofNat 12)), ("background", .text "navy"),
            ("disabled", .flag true), ("size", .text "sm"),
            ("variant", .text "outline")]
        parent := none
        children := [] }
    let base :=
      [("padding", "8px 16px"), ("border", "none"), ("border-radius", "6px"),
        ("background", "white"), ("cursor", "pointer")]
    (base.map Prod.fst).Nodup ∧
      exists kept added,
        declarations node base = kept ++ added ∧
        kept.map Prod.fst = base.map Prod.fst ∧
        ("border-radius", "6px") ∈ kept ∧
        added =
          [("color", "#111827"), ("font-size", "0.875rem"), ("opacity", "0.5"),
            ("width", "12px")] := by
  intro node base
  have hbase : (base.map Prod.fst).Nodup := by decide
  rcases declarations_ordered node base hbase with
    ⟨kept, added, hparts, _, hkept, hunset, _⟩
  refine ⟨hbase, kept, added, hparts, hkept, ?_, ?_⟩
  · exact hunset _ (by decide) (by decide +kernel)
  · have hlength : kept.length = base.length := by
      simpa using congrArg List.length hkept
    have hdrop : (declarations node base).drop base.length = added := by
      rw [hparts, ← hlength, List.drop_left]
    rw [← hdrop]
    decide +kernel

end InlineStyle

end MarkupForest
