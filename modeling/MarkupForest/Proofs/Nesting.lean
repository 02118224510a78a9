import MarkupForest.Forest.Snapshot

/-!
# Nested nodes in an arena

An arena is a flat map; what it stands for is a list of nested nodes.  This
module relates the two.  `Forest.Holds arena parent ss` says that the arena has
every node of the snapshots `ss` under its own identifier, with the links that
the nesting asks for: the children in order, and the enclosing node as parent.

All later facts about a forest are read off such a list of snapshots.
-/

namespace MarkupForest

/-- A look-up of a list finds it all when it finds each entry. -/
theorem mapM_found {alpha beta gamma : Type} {key : alpha → beta}
    {look : beta → Option gamma} {found : alpha → gamma} {entries : List alpha}
    (h : forall entry, entry ∈ entries → look (key entry) = some (found entry)) :
    (entries.map key).mapM look = some (entries.map found) := by
  induction entries with
  | nil => rfl
  | cons entry rest ih =>
      have hrest := ih fun other hmem => h other (List.mem_cons_of_mem entry hmem)
      rw [List.map_cons, List.mapM_cons, h entry List.mem_cons_self, hrest]
      rfl

namespace Snapshot

@[simp] theorem id_node (id : NodeId) (type : NodeType)
    (properties : Properties) (below : List Snapshot) :
    (node id type properties below).id = id := rfl

/-!
# Identifiers of nested nodes
-/

mutual

/-- The identifiers of a snapshot in document order. -/
def ids : Snapshot → List NodeId
  | node id _ _ children => id :: idsOfList children

/-- The identifiers of several snapshots in document order. -/
def idsOfList : List Snapshot → List NodeId
  | [] => []
  | s :: rest => ids s ++ idsOfList rest

end

@[simp] theorem idsOfList_nil : idsOfList [] = [] := rfl

@[simp] theorem ids_node (id : NodeId) (type : NodeType)
    (properties : Properties) (below : List Snapshot) :
    ids (node id type properties below) = id :: idsOfList below := rfl

theorem idsOfList_cons (s : Snapshot) (rest : List Snapshot) :
    idsOfList (s :: rest) = ids s ++ idsOfList rest := rfl

@[simp] theorem idsOfList_node_cons (id : NodeId) (type : NodeType)
    (properties : Properties) (below rest : List Snapshot) :
    idsOfList (node id type properties below :: rest) =
      id :: (idsOfList below ++ idsOfList rest) := rfl

theorem idsOfList_singleton (s : Snapshot) : idsOfList [s] = ids s := by
  simp [idsOfList_cons]

theorem id_mem_ids (s : Snapshot) : s.id ∈ s.ids := by
  cases s with
  | node id type properties below => exact List.mem_cons_self

theorem mem_idsOfList_iff {x : NodeId} {ss : List Snapshot} :
    x ∈ idsOfList ss ↔ exists s, s ∈ ss ∧ x ∈ s.ids := by
  induction ss with
  | nil => simp
  | cons s rest ih => simp [idsOfList_cons, ih]

theorem map_id_sublist_idsOfList (ss : List Snapshot) :
    (ss.map Snapshot.id).Sublist (idsOfList ss) := by
  induction ss with
  | nil => exact List.Sublist.slnil
  | cons s rest ih =>
      cases s with
      | node id type properties below =>
          have hrest : (rest.map Snapshot.id).Sublist
              (idsOfList below ++ idsOfList rest) :=
            ih.trans (List.sublist_append_right _ _)
          exact hrest.cons_cons id

/-- Induction over nested nodes: the nodes below the first one, and the nodes
beside it. -/
theorem nested_induction {motive : List Snapshot → Prop} (nil : motive [])
    (cons : forall id type properties below rest,
      motive below → motive rest →
        motive (node id type properties below :: rest)) :
    forall ss, motive ss
  | [] => nil
  | node id type properties below :: rest =>
      cons id type properties below rest
        (nested_induction nil cons below) (nested_induction nil cons rest)

/-- The node that a snapshot shows, under a parent. -/
def toNode (parent : Option NodeId) : Snapshot → Node
  | node id type properties children =>
      { id, type, properties, parent, children := children.map Snapshot.id }

@[simp] theorem toNode_id (parent : Option NodeId) (s : Snapshot) :
    (s.toNode parent).id = s.id := by
  cases s with
  | node id type properties below => rfl

@[simp] theorem toNode_children (parent : Option NodeId) (id : NodeId)
    (type : NodeType) (properties : Properties) (below : List Snapshot) :
    ((node id type properties below).toNode parent).children =
      below.map Snapshot.id := rfl

@[simp] theorem toNode_parent (parent : Option NodeId) (s : Snapshot) :
    (s.toNode parent).parent = parent := by
  cases s with
  | node id type properties below => rfl

end Snapshot

namespace Forest

open Snapshot (idsOfList idsOfList_node_cons)

/-!
# The nesting of an arena
-/

/-- The arena has the nodes of these snapshots, linked as they are nested, the
first level under `parent`. -/
inductive Holds (arena : Arena) : Option NodeId → List Snapshot → Prop where
  | nil {parent : Option NodeId} : Holds arena parent []
  | cons {parent : Option NodeId} {id : NodeId} {type : NodeType}
      {properties : Properties} {below rest : List Snapshot} :
      arena[id]? =
        some ((Snapshot.node id type properties below).toNode parent) →
      Holds arena (some id) below →
      Holds arena parent rest →
      Holds arena parent (.node id type properties below :: rest)

variable {arena other : Arena} {parent : Option NodeId}
  {ss ts : List Snapshot} {s : Snapshot} {x : NodeId}

theorem Holds.frame (h : Holds arena parent ss)
    (hsame : forall y, y ∈ idsOfList ss → other[y]? = arena[y]?) :
    Holds other parent ss := by
  induction h with
  | nil => exact Holds.nil
  | cons hfind hbelow hrest ihbelow ihrest =>
      apply Holds.cons
      · rw [hsame _ (by simp)]
        exact hfind
      · exact ihbelow fun y hy => hsame y (by simp [hy])
      · exact ihrest fun y hy => hsame y (by simp [hy])

theorem holds_cons :
    Holds arena parent (s :: ss) ↔
      Holds arena parent [s] ∧ Holds arena parent ss := by
  constructor
  · intro h
    cases h with
    | cons hfind hbelow hrest => exact ⟨.cons hfind hbelow .nil, hrest⟩
  · intro h
    rcases h with ⟨hs, hss⟩
    cases hs with
    | cons hfind hbelow _ => exact .cons hfind hbelow hss

theorem holds_iff_forall :
    Holds arena parent ss ↔ forall s, s ∈ ss → Holds arena parent [s] := by
  induction ss with
  | nil => simpa using Holds.nil
  | cons s rest ih => rw [holds_cons, ih, List.forall_mem_cons]

theorem Holds.of_subset (h : Holds arena parent ss)
    (hsub : forall s, s ∈ ts → s ∈ ss) : Holds arena parent ts :=
  holds_iff_forall.mpr fun s hs => holds_iff_forall.mp h s (hsub s hs)

theorem Holds.append (hs : Holds arena parent ss)
    (ht : Holds arena parent ts) : Holds arena parent (ss ++ ts) := by
  rw [holds_iff_forall] at hs ht ⊢
  intro s hmem
  rcases List.mem_append.mp hmem with hmem | hmem
  · exact hs s hmem
  · exact ht s hmem

theorem Holds.find (h : Holds arena parent ss) (hs : s ∈ ss) :
    arena[s.id]? = some (s.toNode parent) := by
  have hone := holds_iff_forall.mp h s hs
  cases hone with
  | cons hfind _ _ => exact hfind

theorem Holds.exists_entry (h : Holds arena parent ss)
    (hx : x ∈ idsOfList ss) :
    exists node, arena[x]? = some node ∧ node.id = x := by
  induction h with
  | nil => simp at hx
  | cons hfind hbelow hrest ihbelow ihrest =>
      rw [idsOfList_node_cons, List.mem_cons, List.mem_append] at hx
      rcases hx with rfl | hx | hx
      · exact ⟨_, hfind, rfl⟩
      · exact ihbelow hx
      · exact ihrest hx

theorem Holds.mem (h : Holds arena parent ss) (hx : x ∈ idsOfList ss) :
    x ∈ arena := by
  rcases h.exists_entry hx with ⟨node, hnode, _⟩
  exact Std.ExtHashMap.mem_iff_isSome_getElem?.mpr (by simp [hnode])

theorem length_le_size {keys : List NodeId} (hnodup : keys.Nodup)
    (hmem : forall y, y ∈ keys → y ∈ arena) : keys.length ≤ arena.size := by
  induction keys generalizing arena with
  | nil => exact Nat.zero_le _
  | cons key rest ih =>
      rw [List.nodup_cons] at hnodup
      have hkey : key ∈ arena := hmem key (by simp)
      have hrest : rest.length ≤ (arena.erase key).size := by
        apply ih hnodup.right
        intro y hy
        rw [Std.ExtHashMap.mem_erase]
        refine ⟨?_, hmem y (by simp [hy])⟩
        have hne : key ≠ y := fun e => hnodup.left (e ▸ hy)
        simpa using hne
      have hpos : arena.size ≠ 0 := by
        intro hzero
        rw [← Std.ExtHashMap.eq_empty_iff_size_eq_zero] at hzero
        simp [hzero] at hkey
      rw [Std.ExtHashMap.size_erase, if_pos hkey] at hrest
      rw [List.length_cons]
      omega

theorem Holds.length_le_size (h : Holds arena parent ss)
    (hnodup : (idsOfList ss).Nodup) :
    (idsOfList ss).length ≤ arena.size :=
  Forest.length_le_size hnodup fun _ hy => h.mem hy

end Forest

end MarkupForest
