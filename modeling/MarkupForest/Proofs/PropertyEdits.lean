import Mathlib.Data.List.Induction
import MarkupForest.Proofs.Refusals

/-!
# Changed properties

A change of properties concerns the node that it names and nothing else.  In the
end a node has what its last replacement gave it and, on top of that, what was set
since.
-/

namespace MarkupForest

/-- A change of the properties of a node. -/
inductive PropertyChange where
  | replace (properties : Properties)
  | set (key : String) (value : PropertyValue)

namespace PropertyChange

/-- The change as an edit of a node. -/
def edit (id : NodeId) : PropertyChange → Edit
  | replace properties => .replaceProperties id properties
  | set key value => .setProperty id key value

def apply : PropertyChange → Properties → Properties
  | replace properties, _ => properties
  | set key value, properties => properties.insert key value

def ofEntry (entry : String × PropertyValue) : PropertyChange :=
  set entry.1 entry.2

/-- Apply changes one after the other. -/
def applyAll (changes : List PropertyChange) (properties : Properties) :
    Properties :=
  changes.foldl (fun properties change => change.apply properties) properties

/-- What the last of some changes has replaced the properties with, or what was
there before if there is no such change, and what was set since then. -/
def Since (initial : Properties) (changes : List PropertyChange)
    (base : Properties) (entries : List (String × PropertyValue)) : Prop :=
  (changes = entries.map ofEntry ∧ base = initial) ∨
    exists earlier, changes = earlier ++ replace base :: entries.map ofEntry

variable {initial base : Properties} {changes : List PropertyChange}
  {entries : List (String × PropertyValue)}

/-!
# One node
-/

theorem exists_since (initial : Properties) (changes : List PropertyChange) :
    exists base entries, Since initial changes base entries := by
  induction changes using List.reverseRecOn with
  | nil => exact ⟨initial, [], Or.inl ⟨rfl, rfl⟩⟩
  | append_singleton earlier change ih =>
      cases change with
      | replace properties => exact ⟨properties, [], Or.inr ⟨earlier, rfl⟩⟩
      | set key value =>
          have hlast : set key value = ofEntry (key, value) := rfl
          rcases ih with ⟨base, entries, ⟨rfl, rfl⟩ | ⟨before, rfl⟩⟩
          · refine ⟨base, entries ++ [(key, value)], Or.inl ⟨?_, rfl⟩⟩
            rw [List.map_append, hlast]
            rfl
          · refine ⟨base, entries ++ [(key, value)], Or.inr ⟨before, ?_⟩⟩
            rw [List.map_append, List.append_assoc, hlast]
            rfl

theorem applyAll_map_ofEntry (entries : List (String × PropertyValue))
    (properties : Properties) :
    applyAll (entries.map ofEntry) properties = properties.insertAll entries :=
  List.foldl_map

theorem Since.applyAll (h : Since initial changes base entries) :
    PropertyChange.applyAll changes initial = base.insertAll entries := by
  rcases h with ⟨rfl, rfl⟩ | ⟨earlier, rfl⟩
  · exact applyAll_map_ofEntry entries base
  · unfold PropertyChange.applyAll
    rw [List.foldl_append, List.foldl_cons]
    exact applyAll_map_ofEntry entries base

theorem entries_set (key : String) (value : PropertyValue)
    (properties : Properties) :
    (key ∉ properties.keys ∧
      ((set key value).apply properties).entries =
        properties.entries ++ [(key, value)]) ∨
    exists before old after,
      properties.entries = before ++ (key, old) :: after ∧
      ((set key value).apply properties).entries =
        before ++ (key, value) :: after := by
  rcases OrderedMap.insertEntry_cases key value properties.entries with
    hnew | ⟨before, old, after, hentries, _, hinsert⟩
  · exact Or.inl hnew
  · exact Or.inr ⟨before, old, after, hentries, hinsert⟩

end PropertyChange

namespace Forest

/-- Changes, each with the node that it names. -/
abbrev PropertyCalls := List (NodeId × PropertyChange)

/-- Carry out changes one after the other; those of missing nodes are refused. -/
def change (forest : Forest) (calls : PropertyCalls) : Forest :=
  forest.run (calls.map fun call => call.2.edit call.1)

/-- The changes of one node, in order. -/
def changesOf (x : NodeId) (calls : PropertyCalls) : List PropertyChange :=
  (calls.filter (·.1 = x)).map Prod.snd

variable {forest : Forest} {x : NodeId} {calls : PropertyCalls}

/-!
# Single changes
-/

theorem edit_property (change : PropertyChange) (h : forest.contains x = true) :
    (forest.edit (change.edit x)).answer = .ok .done ∧
      (forest.edit (change.edit x)).forest =
        forest.modifyProperties x change.apply := by
  have hok : forest.edit? (change.edit x) =
      .ok (.done, forest.modifyProperties x change.apply) := by
    cases change with
    | replace properties =>
        simp only [PropertyChange.edit, edit?, replaceProperties, if_pos h, Except.map]
        rfl
    | set key value =>
        simp only [PropertyChange.edit, edit?, setProperty, if_pos h, Except.map]
        rfl
  rw [edit_of_ok hok]
  exact ⟨rfl, rfl⟩

theorem edit_property_of_missing (change : PropertyChange)
    (h : ¬ forest.contains x = true) :
    (forest.edit (change.edit x)).forest = forest := by
  cases change with
  | replace properties =>
      simp only [PropertyChange.edit, edit, edit?, replaceProperties, if_neg h,
        Except.map]
  | set key value =>
      simp only [PropertyChange.edit, edit, edit?, setProperty, if_neg h,
        Except.map]

theorem find?_edit_property (forest : Forest) (x y : NodeId)
    (change : PropertyChange) :
    (forest.edit (change.edit x)).forest.find? y =
      (forest.find? y).map fun node =>
        { node with properties :=
            if y = x then change.apply node.properties else node.properties } := by
  by_cases h : forest.contains x = true
  · rw [(edit_property change h).right]
    exact modifyProperties_find forest x change.apply y
  · rw [edit_property_of_missing change h]
    cases hfind : forest.find? y with
    | none => rfl
    | some node =>
        have hne : y ≠ x := by
          rintro rfl
          exact h (contains_of_find hfind)
        rw [Option.map_some, if_neg hne]

theorem frame_edit_property (forest : Forest) (x : NodeId)
    (change : PropertyChange) :
    exists arena, (forest.edit (change.edit x)).forest = { forest with arena } := by
  by_cases h : forest.contains x = true
  · exact ⟨_, (edit_property change h).right⟩
  · exact ⟨forest.arena, edit_property_of_missing change h⟩

/-!
# Runs of changes
-/

theorem change_cons (forest : Forest) (call : NodeId × PropertyChange)
    (calls : PropertyCalls) :
    forest.change (call :: calls) =
      (forest.edit (call.2.edit call.1)).forest.change calls := rfl

theorem changesOf_cons (x : NodeId) (call : NodeId × PropertyChange)
    (calls : PropertyCalls) :
    changesOf x (call :: calls) =
      if x = call.1 then call.2 :: changesOf x calls else changesOf x calls := by
  unfold changesOf
  by_cases h : x = call.1
  · rw [List.filter_cons_of_pos (by simpa using h.symm), if_pos h]
    rfl
  · rw [List.filter_cons_of_neg (by simpa using fun heq => h heq.symm), if_neg h]

/-- A node replays the changes that name it. -/
theorem find?_change (forest : Forest) (calls : PropertyCalls) (x : NodeId) :
    (forest.change calls).find? x =
      (forest.find? x).map fun node =>
        { node with properties :=
            PropertyChange.applyAll (changesOf x calls) node.properties } := by
  induction calls generalizing forest with
  | nil =>
      show forest.find? x = _
      cases forest.find? x with
      | none => rfl
      | some node => rfl
  | cons call calls ih =>
      rw [change_cons, ih, find?_edit_property, changesOf_cons, Option.map_map]
      congr 1
      funext node
      by_cases h : x = call.1
      · simp only [Function.comp_apply, if_pos h]
        rfl
      · simp only [Function.comp_apply, if_neg h]

theorem frame_change (forest : Forest) (calls : PropertyCalls) :
    exists arena, forest.change calls = { forest with arena } := by
  induction calls generalizing forest with
  | nil => exact ⟨forest.arena, rfl⟩
  | cons call calls ih =>
      rcases frame_edit_property forest call.1 call.2 with ⟨arena, hedit⟩
      rcases ih (forest.edit (call.2.edit call.1)).forest with ⟨last, hlast⟩
      refine ⟨last, ?_⟩
      rw [change_cons, hlast, hedit]

theorem contains_change (forest : Forest) (calls : PropertyCalls) (x : NodeId)
    (h : forest.contains x = true) : (forest.change calls).contains x = true := by
  rcases exists_entry_of_mem (contains_iff.mp h) with ⟨node, hnode⟩
  have hfind := find?_change forest calls x
  rw [show forest.find? x = some node from hnode] at hfind
  exact contains_of_find hfind

theorem answer_change (h : forall call, call ∈ calls → forest.contains call.1 = true)
    {before after : PropertyCalls} {call : NodeId × PropertyChange}
    (hcalls : calls = before ++ call :: after) :
    ((forest.change before).edit (call.2.edit call.1)).answer = .ok .done := by
  have hmem : call ∈ calls :=
    hcalls ▸ List.mem_append_right before List.mem_cons_self
  exact (edit_property call.2
    (contains_change forest before call.1 (h call hmem))).left

end Forest

end MarkupForest
