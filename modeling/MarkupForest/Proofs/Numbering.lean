import Mathlib.Data.List.Basic
import MarkupForest.Proofs.Nesting
import Std.Data.String.ToNat

/-!
# Generated identifiers

A generated identifier can be read back: its type and its count are both
determined by its text.  So an identifier generated at a count that no node of
an arena has reached is new to the arena, and snapshots that are renumbered
from such a count share no identifier with it.
-/

namespace MarkupForest

theorem NodeType.hyphen_not_mem_name (type : NodeType) :
    '-' ∉ type.name.toList := by
  cases type <;> decide

theorem hyphen_not_mem_toString (n : Nat) : '-' ∉ (toString n).toList := by
  intro hmem
  have hdigit : ('-' : Char).isDigit = true :=
    Nat.isDigit_of_mem_toDigits (by decide) (by decide)
      (by simpa [toString] using hmem : '-' ∈ Nat.toDigits 10 n)
  simp at hdigit

namespace NodeId

theorem generate_inj {s t : NodeType} {m n : Nat} :
    generate s m = generate t n ↔ s = t ∧ m = n := by
  constructor
  · intro h
    have htext : s.name.toList ++ '-' :: (toString m).toList =
        t.name.toList ++ '-' :: (toString n).toList := by
      have := congrArg (fun id : NodeId => id.text.toList) h
      simpa [generate] using this
    rcases (List.append_cons_inj_of_notMem (NodeType.hyphen_not_mem_name s)
      (hyphen_not_mem_toString m)).mp htext with ⟨hname, _, hcount⟩
    exact ⟨NodeType.name_injective (String.toList_injective hname),
      Nat.repr_injective (String.toList_injective hcount)⟩
  · rintro ⟨rfl, rfl⟩
    rfl

end NodeId

namespace Forest

/-- No entry has an identifier generated at `count` or later. -/
def Fresh (arena : Arena) (count : Nat) : Prop :=
  forall type later, count ≤ later → NodeId.generate type later ∉ arena

theorem Fresh.ne {arena : Arena} {count later : Nat} {id : NodeId}
    (h : Fresh arena count) (hid : id ∈ arena) (type : NodeType)
    (hlater : count ≤ later) : id ≠ NodeId.generate type later := by
  intro heq
  exact h type later hlater (heq ▸ hid)

theorem Fresh.grow {arena grown : Arena} {count next : Nat}
    (h : Fresh arena count) (hle : count ≤ next)
    (hnew : forall y, y ∈ grown → y ∈ arena ∨
      exists type earlier, earlier < next ∧ y = NodeId.generate type earlier) :
    Fresh grown next := by
  intro type later hlater hmem
  rcases hnew _ hmem with hold | ⟨t, earlier, hlt, heq⟩
  · exact h type later (by omega) hold
  · have hsame := (NodeId.generate_inj.mp heq).right
    omega

end Forest

namespace Snapshot

/-!
# Renumbered snapshots

New identifiers are given in document order.
-/

mutual

/-- The snapshot under new identifiers, counted from `count`. -/
def renumber (count : Nat) : Snapshot → Snapshot
  | node _ type properties below =>
      node (NodeId.generate type count) type properties
        (renumberList (count + 1) below)

/-- The snapshots under new identifiers, counted from `count`. -/
def renumberList (count : Nat) : List Snapshot → List Snapshot
  | [] => []
  | s :: rest =>
      renumber count s :: renumberList (count + s.ids.length) rest

end

@[simp] theorem renumberList_nil (count : Nat) : renumberList count [] = [] := rfl

@[simp] theorem renumberList_node_cons (count : Nat) (id : NodeId)
    (type : NodeType) (properties : Properties) (below rest : List Snapshot) :
    renumberList count (node id type properties below :: rest) =
      node (NodeId.generate type count) type properties
          (renumberList (count + 1) below) ::
        renumberList (count + ((idsOfList below).length + 1)) rest := rfl

theorem exists_generate_of_mem_renumberList {x : NodeId} {ss : List Snapshot} :
    forall {count : Nat}, x ∈ idsOfList (renumberList count ss) →
      exists type c, count ≤ c ∧ c < count + (idsOfList ss).length ∧
        x = NodeId.generate type c := by
  induction ss using nested_induction with
  | nil =>
      intro count hx
      simp at hx
  | cons id type properties below rest ihbelow ihrest =>
      intro count hx
      rw [renumberList_node_cons, idsOfList_node_cons, List.mem_cons,
        List.mem_append] at hx
      rw [idsOfList_node_cons, List.length_cons, List.length_append]
      rcases hx with rfl | hx | hx
      · exact ⟨type, count, by omega, by omega, rfl⟩
      · rcases ihbelow hx with ⟨t, c, hle, hlt, heq⟩
        exact ⟨t, c, by omega, by omega, heq⟩
      · rcases ihrest hx with ⟨t, c, hle, hlt, heq⟩
        exact ⟨t, c, by omega, by omega, heq⟩

theorem nodup_renumberList (ss : List Snapshot) :
    forall count, (idsOfList (renumberList count ss)).Nodup := by
  induction ss using nested_induction with
  | nil => exact fun _ => List.nodup_nil
  | cons id type properties below rest ihbelow ihrest =>
      intro count
      rw [renumberList_node_cons, idsOfList_node_cons, List.nodup_cons,
        List.nodup_append]
      refine ⟨?_, ihbelow _, ihrest _, ?_⟩
      · intro hmem
        rcases List.mem_append.mp hmem with hmem | hmem
        all_goals
          rcases exists_generate_of_mem_renumberList hmem with
            ⟨t, c, hle, _, heq⟩
          have hcount := (NodeId.generate_inj.mp heq).right
          omega
      · intro x hx y hy hxy
        rcases exists_generate_of_mem_renumberList hx with ⟨_, c, _, hlt, hxeq⟩
        rcases exists_generate_of_mem_renumberList hy with ⟨_, d, hle, _, hyeq⟩
        have hcount : c = d :=
          (NodeId.generate_inj.mp (hxeq.symm.trans (hxy.trans hyeq))).right
        omega

theorem length_renumberList (ss : List Snapshot) :
    forall count, (idsOfList (renumberList count ss)).length =
      (idsOfList ss).length := by
  induction ss using nested_induction with
  | nil => exact fun _ => rfl
  | cons id type properties below rest ihbelow ihrest =>
      intro count
      simp [ihbelow, ihrest]

theorem length_renumber (s : Snapshot) (count : Nat) :
    (s.renumber count).ids.length = s.ids.length := by
  have hlist := length_renumberList [s] count
  rw [idsOfList_singleton] at hlist
  rw [← idsOfList_singleton (s.renumber count)]
  exact hlist

theorem nodup_renumber (s : Snapshot) (count : Nat) :
    (s.renumber count).ids.Nodup := by
  have hlist := nodup_renumberList [s] count
  rw [← idsOfList_singleton (s.renumber count)]
  exact hlist

end Snapshot

end MarkupForest
