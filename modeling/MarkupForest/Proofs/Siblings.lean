import Mathlib.Data.List.InsertIdx
import MarkupForest.Proofs.Nesting

/-!
# One level of siblings

Every edit changes the list of siblings under one parent, or the roots.  On
nested nodes this is `Snapshot.changeSiblings`.  The theory of such a change is
a single splitting fact, `Forest.Focus`: the rows of the forest are those of the
level between two fixed parts, before and after the change, and an arena that
differs only in this level holds the changed nodes.
-/

namespace MarkupForest

namespace Snapshot

/-!
# Changing the children of one node
-/

mutual

/-- Change the nodes directly below the node `p`. -/
def changeBelow (p : NodeId) (change : List Snapshot → List Snapshot) :
    Snapshot → Snapshot
  | node id type properties below =>
      node id type properties
        (if id = p then change below else changeBelowList p change below)

def changeBelowList (p : NodeId) (change : List Snapshot → List Snapshot) :
    List Snapshot → List Snapshot
  | [] => []
  | s :: rest => changeBelow p change s :: changeBelowList p change rest

end

/-- Change the siblings under a parent, or the first level. -/
def changeSiblings (slot : Option NodeId)
    (change : List Snapshot → List Snapshot) (ss : List Snapshot) :
    List Snapshot :=
  match slot with
  | none => change ss
  | some p => changeBelowList p change ss

@[simp] theorem changeBelowList_nil (p : NodeId)
    (change : List Snapshot → List Snapshot) :
    changeBelowList p change [] = [] := rfl

@[simp] theorem changeBelowList_node_cons (p : NodeId)
    (change : List Snapshot → List Snapshot) (id : NodeId) (type : NodeType)
    (properties : Properties) (below rest : List Snapshot) :
    changeBelowList p change (node id type properties below :: rest) =
      node id type properties
          (if id = p then change below else changeBelowList p change below) ::
        changeBelowList p change rest := rfl

@[simp] theorem map_id_changeBelowList (p : NodeId)
    (change : List Snapshot → List Snapshot) (ss : List Snapshot) :
    (changeBelowList p change ss).map Snapshot.id = ss.map Snapshot.id := by
  induction ss with
  | nil => rfl
  | cons s rest ih =>
      cases s with
      | node id type properties below => simp [ih]

theorem changeBelowList_of_not_mem {p : NodeId} {ss : List Snapshot}
    (change : List Snapshot → List Snapshot) (h : p ∉ idsOfList ss) :
    changeBelowList p change ss = ss := by
  induction ss using nested_induction with
  | nil => rfl
  | cons id type properties below rest ihbelow ihrest =>
      rw [idsOfList_node_cons, List.mem_cons, List.mem_append] at h
      push Not at h
      rcases h with ⟨hid, hbelow, hrest⟩
      rw [changeBelowList_node_cons, if_neg (Ne.symm hid), ihbelow hbelow,
        ihrest hrest]

/-!
# Rows
-/

@[simp] theorem rowsOfListAt_nil (depth : Nat) : rowsOfListAt depth [] = [] := rfl

@[simp] theorem rowsOfListAt_node_cons (depth : Nat) (id : NodeId)
    (type : NodeType) (properties : Properties) (below rest : List Snapshot) :
    rowsOfListAt depth (node id type properties below :: rest) =
      ⟨depth, id, type, properties⟩ ::
        (rowsOfListAt (depth + 1) below ++ rowsOfListAt depth rest) := rfl

@[simp] theorem map_id_rowsOfListAt (depth : Nat) (ss : List Snapshot) :
    (rowsOfListAt depth ss).map Row.id = idsOfList ss := by
  induction ss using nested_induction generalizing depth with
  | nil => rfl
  | cons id type properties below rest ihbelow ihrest =>
      simp [ihbelow, ihrest]

end Snapshot

namespace Forest

open Snapshot (idsOfList idsOfList_node_cons rowsOfListAt changeBelowList
  changeSiblings)

/-- The nodes `ss`, from depth `top` on and under `parent`, have the nodes
`level` under `slot`, at `depth`, between two parts that no change of the level
affects. -/
structure Focus (arena : Arena) (parent : Option NodeId) (top : Nat)
    (ss : List Snapshot) (slot : Option NodeId) (level : List Snapshot)
    (depth : Nat) (before after : List Snapshot.Row) : Prop where
  held : Holds arena slot level
  first : slot = none → level = ss
  owner : forall p, slot = some p →
    exists node, arena[p]? = some node ∧
      node.children = level.map Snapshot.id
  apart : forall p, slot = some p → p ∉ idsOfList level
  rows : rowsOfListAt top ss = before ++ rowsOfListAt depth level ++ after
  change_rows : forall change,
    rowsOfListAt top (changeSiblings slot change ss) =
      before ++ rowsOfListAt depth (change level) ++ after
  change_held : forall change other,
    (forall row, row ∈ before ∨ row ∈ after → some row.id ≠ slot →
      other[row.id]? = arena[row.id]?) →
    (forall p, slot = some p →
      other[p]? = (arena[p]?).map fun node =>
        { node with children := (change level).map Snapshot.id }) →
    Holds other slot (change level) →
    Holds other parent (changeSiblings slot change ss)

variable {arena : Arena} {parent slot : Option NodeId}
  {ss level : List Snapshot} {depth top : Nat} {before after : List Snapshot.Row}

theorem some_id_ne_of_mem_rows {row : Snapshot.Row} {p : NodeId}
    (hrow : row ∈ rowsOfListAt depth ss) (hp : p ∉ idsOfList ss) :
    some row.id ≠ some p := by
  intro e
  cases e
  rw [← Snapshot.map_id_rowsOfListAt depth] at hp
  exact hp (List.mem_map_of_mem hrow)

theorem Holds.frame_rows {other : Arena} (h : Holds arena parent ss)
    (depth : Nat)
    (hsame : forall row, row ∈ rowsOfListAt depth ss →
      other[row.id]? = arena[row.id]?) :
    Holds other parent ss := by
  apply h.frame
  intro y hy
  rw [← Snapshot.map_id_rowsOfListAt depth] at hy
  rcases List.mem_map.mp hy with ⟨row, hrow, rfl⟩
  exact hsame row hrow

/-- The level of the children of a node. -/
theorem exists_focus_below {p : NodeId} (h : Holds arena parent ss)
    (hnodup : (idsOfList ss).Nodup) (hp : p ∈ idsOfList ss) (top : Nat) :
    exists level depth before after,
      Focus arena parent top ss (some p) level depth before after := by
  induction h generalizing top with
  | nil => simp at hp
  | @cons parent id type properties below rest hfind hbelow hrest ihbelow ihrest =>
      rw [idsOfList_node_cons, List.nodup_cons, List.nodup_append] at hnodup
      rcases hnodup with ⟨hid, hnbelow, hnrest, hdisjoint⟩
      rw [idsOfList_node_cons, List.mem_cons, List.mem_append] at hp
      rcases hp with rfl | hp | hp
      · have hrest' : p ∉ idsOfList rest := fun hmem => hid (by simp [hmem])
        refine ⟨below, top + 1, [⟨top, p, type, properties⟩],
          rowsOfListAt top rest, hbelow, by simp, ?_, ?_, by simp, ?_, ?_⟩
        · intro q hq
          cases hq
          exact ⟨_, hfind, rfl⟩
        · intro q hq
          cases hq
          exact fun hmem => hid (by simp [hmem])
        · intro change
          simp [changeSiblings, Snapshot.changeBelowList_of_not_mem change hrest']
        · intro change other hsame howner hchanged
          simp only [changeSiblings, Snapshot.changeBelowList_node_cons, if_true,
            Snapshot.changeBelowList_of_not_mem change hrest']
          apply Holds.cons _ hchanged
          · apply hrest.frame_rows top
            intro row hrow
            exact hsame row (Or.inr hrow) (some_id_ne_of_mem_rows hrow hrest')
          · rw [howner p rfl, hfind]
            rfl
      · have hne : id ≠ p := fun e => hid (by simp [e, hp])
        have hrest' : p ∉ idsOfList rest :=
          fun hmem => hdisjoint p hp p hmem rfl
        rcases ihbelow hnbelow hp (top + 1) with
          ⟨level, depth, before, after, hfocus⟩
        refine ⟨level, depth, ⟨top, id, type, properties⟩ :: before,
          after ++ rowsOfListAt top rest, hfocus.held, by simp, hfocus.owner,
          hfocus.apart, ?_, ?_, ?_⟩
        · simp [hfocus.rows]
        · intro change
          have hrows := hfocus.change_rows change
          simp only [changeSiblings] at hrows ⊢
          simp [hne, Snapshot.changeBelowList_of_not_mem change hrest', hrows]
        · intro change other hsame howner hchanged
          simp only [changeSiblings, Snapshot.changeBelowList_node_cons,
            if_neg hne, Snapshot.changeBelowList_of_not_mem change hrest']
          refine Holds.cons ?_ ?_ ?_
          · rw [hsame ⟨top, id, type, properties⟩ (by simp) (by simpa using hne),
              hfind]
            simp [Snapshot.toNode]
          · apply hfocus.change_held change other _ howner hchanged
            intro row hrow
            apply hsame
            rcases hrow with hrow | hrow
            · exact Or.inl (List.mem_cons_of_mem _ hrow)
            · exact Or.inr (List.mem_append_left _ hrow)
          · apply hrest.frame_rows top
            intro row hrow
            exact hsame row (Or.inr (List.mem_append_right _ hrow))
              (some_id_ne_of_mem_rows hrow hrest')
      · have hne : id ≠ p := fun e => hid (by simp [e, hp])
        have hbelow' : p ∉ idsOfList below :=
          fun hmem => hdisjoint p hmem p hp rfl
        rcases ihrest hnrest hp top with ⟨level, depth, before, after, hfocus⟩
        refine ⟨level, depth,
          ⟨top, id, type, properties⟩ :: (rowsOfListAt (top + 1) below ++ before),
          after, hfocus.held, by simp, hfocus.owner, hfocus.apart, ?_, ?_, ?_⟩
        · simp [hfocus.rows]
        · intro change
          have hrows := hfocus.change_rows change
          simp only [changeSiblings] at hrows ⊢
          simp [hne, Snapshot.changeBelowList_of_not_mem change hbelow', hrows]
        · intro change other hsame howner hchanged
          simp only [changeSiblings, Snapshot.changeBelowList_node_cons,
            if_neg hne, Snapshot.changeBelowList_of_not_mem change hbelow']
          refine Holds.cons ?_ ?_ ?_
          · rw [hsame ⟨top, id, type, properties⟩ (by simp) (by simpa using hne),
              hfind]
          · apply hbelow.frame_rows (top + 1)
            intro row hrow
            exact hsame row (Or.inl (by simp [hrow]))
              (some_id_ne_of_mem_rows hrow hbelow')
          · apply hfocus.change_held change other _ howner hchanged
            intro row hrow
            apply hsame
            rcases hrow with hrow | hrow
            · exact Or.inl (by simp [hrow])
            · exact Or.inr hrow

theorem focus_first (h : Holds arena none ss) (top : Nat) :
    Focus arena none top ss none ss top [] [] := by
  refine ⟨h, fun _ => rfl, ?_, ?_, by simp, ?_, ?_⟩
  · intro p hp
    cases hp
  · intro p hp
    cases hp
  · intro change
    simp [changeSiblings]
  · intro change other _ _ hchanged
    exact hchanged

/-- Whether a node may be listed under `slot`: a root, or a child of one of the
nodes `ss`. -/
def SlotOf (ss : List Snapshot) (slot : Option NodeId) : Prop :=
  forall p, slot = some p → p ∈ idsOfList ss

theorem slotOf_none (ss : List Snapshot) : SlotOf ss none := by
  intro p hp
  cases hp

theorem slotOf_some {p : NodeId} (hp : p ∈ idsOfList ss) : SlotOf ss (some p) := by
  intro q hq
  cases hq
  exact hp

theorem exists_focus (h : Holds arena none ss) (hnodup : (idsOfList ss).Nodup)
    (hslot : SlotOf ss slot) (top : Nat) :
    exists level depth before after,
      Focus arena none top ss slot level depth before after := by
  cases slot with
  | none => exact ⟨ss, top, [], [], focus_first h top⟩
  | some p => exact exists_focus_below h hnodup (hslot p rfl) top

theorem Focus.ids (h : Focus arena parent top ss slot level depth before after) :
    idsOfList ss =
      before.map Snapshot.Row.id ++ idsOfList level ++ after.map Snapshot.Row.id := by
  have hrows := congrArg (List.map Snapshot.Row.id) h.rows
  simpa using hrows

theorem Focus.change_ids
    (h : Focus arena parent top ss slot level depth before after)
    (change : List Snapshot → List Snapshot) :
    idsOfList (changeSiblings slot change ss) =
      before.map Snapshot.Row.id ++ idsOfList (change level) ++
        after.map Snapshot.Row.id := by
  have hrows := congrArg (List.map Snapshot.Row.id) (h.change_rows change)
  simpa using hrows

end Forest

end MarkupForest
