import Mathlib.Data.List.Nodup
import MarkupForest.Render.Imports

/-!
# Imports as sets

Collected imports are kept in sorted lists of sorted lists.  As a set they are
exactly the imports that were met, and the lists are known by this set.
-/

namespace MarkupForest

theorem mem_insertName {name x : String} {names : List String} :
    x ∈ insertName name names ↔ x = name ∨ x ∈ names := by
  induction names with
  | nil => simp [insertName]
  | cons other rest ih =>
      unfold insertName
      by_cases hlt : name < other
      · rw [if_pos hlt, List.mem_cons]
      · rw [if_neg hlt]
        by_cases hgt : other < name
        · rw [if_pos hgt, List.mem_cons, ih, List.mem_cons]
          exact or_left_comm
        · -- neither is smaller, so the name is there already
          have heq : name = other := String.le_antisymm hgt hlt
          rw [if_neg hgt, heq, List.mem_cons]
          exact or_self_left.symm

/-!
# Lists in ascending order
-/

theorem eq_of_ascending {α : Type} (key : α → String) {xs ys : List α}
    (hxs : xs.Pairwise fun a b => key a < key b)
    (hys : ys.Pairwise fun a b => key a < key b)
    (h : forall a, a ∈ xs ↔ a ∈ ys) : xs = ys := by
  have hnodup : forall {zs : List α},
      (zs.Pairwise fun a b => key a < key b) → zs.Nodup := by
    intro zs hzs
    refine hzs.imp ?_
    rintro a b hlt rfl
    exact String.lt_irrefl _ hlt
  refine List.Perm.eq_of_pairwise ?_ hxs hys
    ((List.perm_ext_iff_of_nodup (hnodup hxs) (hnodup hys)).mpr h)
  intro a b _ _ hab hba
  exact absurd (String.lt_trans hab hba) (String.lt_irrefl _)

theorem ascending_insertName {name : String} {names : List String}
    (h : names.Pairwise (· < ·)) : (insertName name names).Pairwise (· < ·) := by
  induction names with
  | nil => exact List.pairwise_singleton _ _
  | cons other rest ih =>
      rcases List.pairwise_cons.mp h with ⟨hother, hrest⟩
      unfold insertName
      by_cases hlt : name < other
      · rw [if_pos hlt]
        refine List.pairwise_cons.mpr ⟨?_, h⟩
        intro x hx
        rcases List.mem_cons.mp hx with rfl | hx
        · exact hlt
        · exact String.lt_trans hlt (hother x hx)
      · rw [if_neg hlt]
        by_cases hgt : other < name
        · rw [if_pos hgt]
          refine List.pairwise_cons.mpr ⟨?_, ih hrest⟩
          intro x hx
          rcases mem_insertName.mp hx with rfl | hx
          · exact hgt
          · exact hother x hx
        · rw [if_neg hgt]
          exact h

theorem insertName_ne_nil (name : String) (names : List String) :
    insertName name names ≠ [] :=
  List.ne_nil_of_mem (mem_insertName.mpr (Or.inl rfl))

/-!
# What was met
-/

namespace Imports

/-- Whether a component of a module is among the collected imports. -/
def Has (imports : Imports) (module name : String) : Prop :=
  exists names, (module, names) ∈ imports ∧ name ∈ names

theorem has_nil {module name : String} : ¬ Has [] module name := by
  rintro ⟨names, hmem, _⟩
  cases hmem

theorem has_cons {module name other : String} {names : List String}
    {rest : Imports} :
    Has ((other, names) :: rest) module name ↔
      (module = other ∧ name ∈ names) ∨ Has rest module name := by
  constructor
  · rintro ⟨found, hmem, hname⟩
    rcases List.mem_cons.mp hmem with heq | hmem
    · cases heq
      exact Or.inl ⟨rfl, hname⟩
    · exact Or.inr ⟨found, hmem, hname⟩
  · rintro (⟨rfl, hname⟩ | ⟨found, hmem, hname⟩)
    · exact ⟨names, List.mem_cons_self, hname⟩
    · exact ⟨found, List.mem_cons_of_mem _ hmem, hname⟩

theorem has_addName {module name m n : String} {imports : Imports} :
    Has (addName m n imports) module name ↔
      (module = m ∧ name = n) ∨ Has imports module name := by
  induction imports with
  | nil =>
      unfold addName
      rw [has_cons, List.mem_singleton]
  | cons entry rest ih =>
      rcases entry with ⟨other, names⟩
      unfold addName
      by_cases hlt : m < other
      · rw [if_pos hlt, has_cons, List.mem_singleton]
      · rw [if_neg hlt]
        by_cases hgt : other < m
        · rw [if_pos hgt, has_cons, ih, has_cons]
          exact or_left_comm
        · have heq : m = other := String.le_antisymm hgt hlt
          rw [if_neg hgt, heq, has_cons, has_cons, mem_insertName,
            and_or_left, or_assoc]

theorem has_foldl {module name : String} {met : List Import}
    {imports : Imports} :
    Has (met.foldl (fun grouped i => grouped.addName i.module i.name) imports)
        module name ↔
      ⟨name, module⟩ ∈ met ∨ Has imports module name := by
  induction met generalizing imports with
  | nil => simp
  | cons first rest ih =>
      rcases first with ⟨n, m⟩
      rw [List.foldl_cons, ih, has_addName, List.mem_cons, Import.mk.injEq,
        and_comm (a := module = m), or_assoc]
      exact or_left_comm

/-- The collected imports are those that were met. -/
theorem has_collect {module name : String} {met : List Import} :
    Has (collect met) module name ↔ ⟨name, module⟩ ∈ met := by
  unfold collect
  rw [has_foldl]
  exact or_iff_left has_nil

/-!
# The order of imports
-/

/-- Modules are in strictly ascending order, and so are the names of each; no
module is without names. -/
structure Ascending (imports : Imports) : Prop where
  modules : imports.Pairwise fun entry other => entry.1 < other.1
  names : forall module names, (module, names) ∈ imports →
    names ≠ [] ∧ names.Pairwise (· < ·)

theorem ascending_nil : Ascending [] :=
  ⟨List.Pairwise.nil, fun _ _ h => absurd h List.not_mem_nil⟩

theorem ascending_cons {module : String} {names : List String} {rest : Imports} :
    Ascending ((module, names) :: rest) ↔
      (forall entry, entry ∈ rest → module < entry.1) ∧
        (names ≠ [] ∧ names.Pairwise (· < ·)) ∧ Ascending rest := by
  constructor
  · intro h
    rcases List.pairwise_cons.mp h.modules with ⟨hmodule, hrest⟩
    exact ⟨hmodule, h.names module names List.mem_cons_self, hrest,
      fun m ns hmem => h.names m ns (List.mem_cons_of_mem _ hmem)⟩
  · rintro ⟨hmodule, hnames, hrest⟩
    refine ⟨List.pairwise_cons.mpr ⟨hmodule, hrest.modules⟩, ?_⟩
    intro m ns hmem
    rcases List.mem_cons.mp hmem with heq | hmem
    · cases heq
      exact hnames
    · exact hrest.names m ns hmem

theorem exists_of_mem_addName {m n : String} {entry : String × List String}
    {imports : Imports} (h : entry ∈ addName m n imports) :
    entry.1 = m ∨ exists other, other ∈ imports ∧ other.1 = entry.1 := by
  induction imports with
  | nil =>
      rw [List.mem_singleton.mp h]
      exact Or.inl rfl
  | cons first rest ih =>
      rcases first with ⟨module, names⟩
      unfold addName at h
      by_cases hlt : m < module
      · rw [if_pos hlt] at h
        rcases List.mem_cons.mp h with rfl | h
        · exact Or.inl rfl
        · exact Or.inr ⟨entry, h, rfl⟩
      · rw [if_neg hlt] at h
        by_cases hgt : module < m
        · rw [if_pos hgt] at h
          rcases List.mem_cons.mp h with rfl | h
          · exact Or.inr ⟨_, List.mem_cons_self, rfl⟩
          · rcases ih h with heq | ⟨other, hother, heq⟩
            · exact Or.inl heq
            · exact Or.inr ⟨other, List.mem_cons_of_mem _ hother, heq⟩
        · rw [if_neg hgt] at h
          rcases List.mem_cons.mp h with rfl | h
          · exact Or.inr ⟨_, List.mem_cons_self, rfl⟩
          · exact Or.inr ⟨entry, List.mem_cons_of_mem _ h, rfl⟩

theorem Ascending.addName {imports : Imports} (h : Ascending imports)
    (module name : String) : Ascending (imports.addName module name) := by
  induction imports with
  | nil =>
      refine ascending_cons.mpr ⟨fun entry hentry => absurd hentry List.not_mem_nil,
        ⟨List.cons_ne_nil _ _, List.pairwise_singleton _ _⟩, ascending_nil⟩
  | cons first rest ih =>
      rcases first with ⟨other, names⟩
      rcases ascending_cons.mp h with ⟨hother, hnames, hrest⟩
      unfold Imports.addName
      by_cases hlt : module < other
      · rw [if_pos hlt]
        refine ascending_cons.mpr ⟨?_,
          ⟨List.cons_ne_nil _ _, List.pairwise_singleton _ _⟩, h⟩
        intro entry hentry
        rcases List.mem_cons.mp hentry with rfl | hentry
        · exact hlt
        · exact String.lt_trans hlt (hother entry hentry)
      · rw [if_neg hlt]
        by_cases hgt : other < module
        · rw [if_pos hgt]
          refine ascending_cons.mpr ⟨?_, hnames, ih hrest⟩
          intro entry hentry
          rcases exists_of_mem_addName hentry with heq | ⟨found, hfound, heq⟩
          · rw [heq]
            exact hgt
          · rw [← heq]
            exact hother found hfound
        · rw [if_neg hgt]
          exact ascending_cons.mpr ⟨hother,
            ⟨insertName_ne_nil name names, ascending_insertName hnames.right⟩, hrest⟩

/-- Collected imports are in order, however they were met. -/
theorem ascending_collect (met : List Import) : Ascending (collect met) := by
  have hfold : forall imports, Ascending imports →
      Ascending (met.foldl (fun grouped i => grouped.addName i.module i.name)
        imports) := by
    induction met with
    | nil => exact fun imports h => h
    | cons first rest ih => exact fun imports h => ih _ (h.addName _ _)
  exact hfold [] ascending_nil

theorem Ascending.mem_names_iff {imports : Imports} (h : Ascending imports)
    {module : String} {names : List String} (hmem : (module, names) ∈ imports)
    {name : String} : name ∈ names ↔ imports.Has module name := by
  constructor
  · intro hname
    exact ⟨names, hmem, hname⟩
  · rintro ⟨others, hothers, hname⟩
    have hnodup : (imports.map Prod.fst).Nodup := by
      rw [List.Nodup, List.pairwise_map]
      refine h.modules.imp ?_
      intro entry other hlt heq
      exact String.lt_irrefl _ (heq ▸ hlt)
    cases List.inj_on_of_nodup_map hnodup hothers hmem rfl
    exact hname

theorem Ascending.mem_modules_iff {imports : Imports} (h : Ascending imports)
    {module : String} :
    module ∈ imports.map Prod.fst ↔ exists name, imports.Has module name := by
  constructor
  · intro hmodule
    rcases List.mem_map.mp hmodule with ⟨⟨_, names⟩, hmem, rfl⟩
    rcases List.exists_mem_of_ne_nil names (h.names _ names hmem).left with
      ⟨name, hname⟩
    exact ⟨name, names, hmem, hname⟩
  · rintro ⟨name, names, hmem, _⟩
    exact List.mem_map_of_mem hmem

theorem Ascending.mem_of_has_iff {imports others : Imports}
    (h : Ascending imports) (hothers : Ascending others)
    (hhas : forall module name, imports.Has module name ↔ others.Has module name)
    {entry : String × List String} (hentry : entry ∈ imports) : entry ∈ others := by
  rcases entry with ⟨module, names⟩
  rcases h.names module names hentry with ⟨hne, hnames⟩
  rcases List.exists_mem_of_ne_nil names hne with ⟨name, hname⟩
  rcases (hhas module name).mp ⟨names, hentry, hname⟩ with ⟨found, hfound, _⟩
  have hsame : names = found := by
    refine eq_of_ascending id hnames
      (hothers.names module found hfound).right ?_
    intro x
    rw [h.mem_names_iff hentry, hothers.mem_names_iff hfound]
    exact hhas module x
  rw [hsame]
  exact hfound

theorem Ascending.eq_of_has_iff {imports others : Imports}
    (h : Ascending imports) (hothers : Ascending others)
    (hhas : forall module name, imports.Has module name ↔ others.Has module name) :
    imports = others := by
  refine eq_of_ascending Prod.fst h.modules hothers.modules ?_
  intro entry
  exact ⟨h.mem_of_has_iff hothers hhas,
    hothers.mem_of_has_iff h fun module name => (hhas module name).symm⟩

end Imports

end MarkupForest
