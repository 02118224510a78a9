import MarkupForest.Proofs.WellFormed

/-!
# Traversals that agree

A forest can be walked in document order, snapshot as a whole or from any node,
counted below a node, and followed along its links.  All of these describe the
same nested nodes.  `Forest.Coherent` says so for the forest as a whole,
`Forest.Placed` for the place of a single node.
-/

namespace MarkupForest

namespace Snapshot

/-- A snapshot is one of these nested nodes, on any level. -/
inductive Inside (s : Snapshot) : List Snapshot → Prop where
  | level {ss : List Snapshot} : s ∈ ss → Inside s ss
  | deeper {t : Snapshot} {ss : List Snapshot} :
      t ∈ ss → Inside s t.children → Inside s ss

@[simp] theorem children_node (id : NodeId) (type : NodeType)
    (properties : Properties) (below : List Snapshot) :
    (node id type properties below).children = below := rfl

theorem Inside.cons {s t : Snapshot} {ss : List Snapshot} (h : Inside s ss) :
    Inside s (t :: ss) := by
  cases h with
  | level hmem => exact Inside.level (List.mem_cons_of_mem t hmem)
  | deeper hmem hinner => exact Inside.deeper (List.mem_cons_of_mem t hmem) hinner

theorem Inside.ids_sublist {s : Snapshot} {ss : List Snapshot}
    (h : Inside s ss) : s.ids.Sublist (idsOfList ss) := by
  induction h with
  | level hmem => exact ids_sublist_of_mem hmem
  | @deeper t ss hmem _ ih =>
      cases t with
      | node id type properties below =>
          have hnode : s.ids.Sublist (node id type properties below).ids :=
            ih.cons id
          exact hnode.trans (ids_sublist_of_mem hmem)

theorem map_id_nodesOfListAt (ss : List Snapshot) (depth : Nat)
    (parent : Option NodeId) :
    (nodesOfListAt depth parent ss).map (fun row => row.2.id) =
      idsOfList ss := by
  induction ss using nested_induction generalizing depth parent with
  | nil => rfl
  | cons id type properties below rest ihbelow ihrest =>
      simp [ihbelow, ihrest]

theorem le_of_mem_nodesOfListAt {ss : List Snapshot} {depth : Nat}
    {parent : Option NodeId} {row : Nat × Node}
    (h : row ∈ nodesOfListAt depth parent ss) : depth ≤ row.1 := by
  induction ss using nested_induction generalizing depth parent with
  | nil => cases h
  | cons id type properties below rest ihbelow ihrest =>
      rw [nodesOfListAt_node_cons, List.mem_cons, List.mem_append] at h
      rcases h with rfl | h | h
      · exact Nat.le_refl depth
      · exact Nat.le_of_succ_le (ihbelow h)
      · exact ihrest h

end Snapshot

namespace Forest

open Snapshot (idsOfList idsOfList_node_cons nodesOfListAt
  nodesOfListAt_node_cons)

variable {forest : Forest} {arena : Arena} {ss : List Snapshot} {s t : Snapshot}
  {slot parent : Option NodeId} {node : Node} {x p : NodeId}
  {depth top : Nat} {before after : List Row}

/-!
# The size of a forest
-/

theorem size_le_length {keys : List NodeId}
    (hmem : forall y, y ∈ arena → y ∈ keys) : arena.size ≤ keys.length := by
  induction keys generalizing arena with
  | nil =>
      have hempty : arena = ∅ := by
        apply Std.ExtHashMap.eq_empty_iff_forall_not_mem.mpr
        intro y hy
        exact List.not_mem_nil (hmem y hy)
      rw [hempty]
      exact Nat.le_of_eq Std.ExtHashMap.size_empty
  | cons key rest ih =>
      have hrest : (arena.erase key).size ≤ rest.length := by
        apply ih
        intro y hy
        rw [Std.ExtHashMap.mem_erase, beq_eq_false_iff_ne] at hy
        exact (List.mem_cons.mp (hmem y hy.right)).resolve_left
          (Ne.symm hy.left)
      rw [Std.ExtHashMap.size_erase] at hrest
      rw [List.length_cons]
      split at hrest
      · omega
      · omega

theorem Shows.size (h : Shows forest ss) :
    forest.size = (idsOfList ss).length :=
  Nat.le_antisymm (size_le_length h.complete) h.length_le

/-!
# Depths
-/

/-- There are exactly `depth` nodes on the way up from a node. -/
def Climbs (forest : Forest) (depth : Nat) (id : NodeId) : Prop :=
  forall steps, (forest.ancestor? steps id).isSome = true ↔ steps ≤ depth

theorem ancestor?_of_root (hfind : forest.find? x = some node)
    (hparent : node.parent = none) (steps : Nat) :
    forest.ancestor? (steps + 1) x = none := by
  show (((forest.find? x).bind Node.parent).bind forest.find?).bind _ = none
  rw [hfind, Option.bind_some, hparent]
  rfl

theorem climbs_root (hfind : forest.find? x = some node)
    (hparent : node.parent = none) : Climbs forest 0 x := by
  intro steps
  cases steps with
  | zero => exact iff_of_true rfl (Nat.le_refl 0)
  | succ steps =>
      rw [ancestor?_of_root hfind hparent]
      exact iff_of_false (by decide) (Nat.not_succ_le_zero steps)

theorem Climbs.succ {above : Node} (h : Climbs forest depth p)
    (hfind : forest.find? x = some node) (hparent : node.parent = some p)
    (habove : forest.find? p = some above) (hid : above.id = p) :
    Climbs forest (depth + 1) x := by
  intro steps
  cases steps with
  | zero => exact iff_of_true rfl (Nat.zero_le _)
  | succ steps =>
      rw [ancestor?_succ hfind hparent habove hid, h steps]
      exact Nat.succ_le_succ_iff.symm

theorem Holds.climbs (h : Holds forest.arena parent ss)
    (hlevel : forall id entry, forest.find? id = some entry →
      entry.parent = parent → Climbs forest depth id)
    {row : Row} (hrow : row ∈ nodesOfListAt depth parent ss) :
    Climbs forest row.1 row.2.id := by
  induction h generalizing depth with
  | nil => cases hrow
  | @cons parent id type properties below rest hfind hbelow hrest ihbelow ihrest =>
      have hself : Climbs forest depth id := hlevel id _ hfind rfl
      rw [nodesOfListAt_node_cons, List.mem_cons, List.mem_append] at hrow
      rcases hrow with rfl | hrow | hrow
      · exact hself
      · apply ihbelow _ hrow
        intro child entry hentry hparent
        exact hself.succ hentry hparent hfind rfl
      · exact ihrest hlevel hrow

/-!
# Places
-/

theorem Holds.find_row (h : Holds arena parent ss) {row : Row}
    (hrow : row ∈ nodesOfListAt depth parent ss) :
    arena[row.2.id]? = some row.2 := by
  induction h generalizing depth with
  | nil => cases hrow
  | cons hfind hbelow hrest ihbelow ihrest =>
      rw [nodesOfListAt_node_cons, List.mem_cons, List.mem_append] at hrow
      rcases hrow with rfl | hrow | hrow
      · exact hfind
      · exact ihbelow hrow
      · exact ihrest hrow

/-- The nested nodes `s` stand under `slot` among the nodes `ss`, and are visited
from `depth` on, between the rows `before` and `after`. -/
structure Located (arena : Arena) (parent : Option NodeId) (top : Nat)
    (ss : List Snapshot) (slot : Option NodeId) (s : Snapshot) (depth : Nat)
    (before after : List Row) : Prop where
  held : Holds arena slot [s]
  inside : s.Inside ss
  enclosed : (slot = parent ∧ s ∈ ss) ∨
    exists above : Snapshot, above.Inside ss ∧ slot = some above.id ∧
      s ∈ above.children
  top_le : top ≤ depth
  rows : nodesOfListAt top parent ss =
    before ++ (depth, s.toNode slot) ::
      (nodesOfListAt (depth + 1) (some s.id) s.children ++ after)
  ascends : forall row, after.head? = some row → row.1 ≤ depth

theorem head?_nodesOfListAt {row : Row}
    (h : (nodesOfListAt depth parent ss).head? = some row) : row.1 = depth := by
  cases ss with
  | nil => cases h
  | cons s rest =>
      cases s with
      | node id type properties below =>
          cases h
          rfl

theorem Holds.exists_located (h : Holds arena parent ss)
    (hx : x ∈ idsOfList ss) (top : Nat) :
    exists (slot : Option NodeId) (s : Snapshot) (depth : Nat)
        (before after : List Row), s.id = x ∧
      Located arena parent top ss slot s depth before after := by
  induction h generalizing top with
  | nil => simp at hx
  | @cons parent id type properties below rest hfind hbelow hrest ihbelow ihrest =>
      rw [idsOfList_node_cons, List.mem_cons, List.mem_append] at hx
      rcases hx with rfl | hx | hx
      · refine ⟨parent, .node x type properties below, top, [],
          nodesOfListAt top parent rest, rfl, Holds.cons hfind hbelow Holds.nil,
          .level List.mem_cons_self, Or.inl ⟨rfl, List.mem_cons_self⟩,
          Nat.le_refl top, rfl, ?_⟩
        intro row hrow
        exact Nat.le_of_eq (head?_nodesOfListAt hrow)
      · rcases ihbelow hx (top + 1) with
          ⟨slot, s, depth, before, after, hid, hplace⟩
        refine ⟨slot, s, depth,
          (top, (Snapshot.node id type properties below).toNode parent) :: before,
          after ++ nodesOfListAt top parent rest, hid, hplace.held,
          .deeper List.mem_cons_self hplace.inside, ?_,
          Nat.le_of_succ_le hplace.top_le, ?_, ?_⟩
        · rcases hplace.enclosed with ⟨hslot, hmem⟩ | ⟨above, habove, hslot, hmem⟩
          · exact Or.inr ⟨_, .level List.mem_cons_self, hslot, hmem⟩
          · exact Or.inr
              ⟨above, .deeper List.mem_cons_self habove, hslot, hmem⟩
        · rw [nodesOfListAt_node_cons, hplace.rows]
          simp
        · intro row hrow
          cases after with
          | nil =>
              rw [head?_nodesOfListAt hrow]
              exact Nat.le_of_succ_le hplace.top_le
          | cons first others => exact hplace.ascends row hrow
      · rcases ihrest hx top with ⟨slot, s, depth, before, after, hid, hplace⟩
        refine ⟨slot, s, depth,
          (top, (Snapshot.node id type properties below).toNode parent) ::
            (nodesOfListAt (top + 1) (some id) below ++ before),
          after, hid, hplace.held, hplace.inside.cons, ?_, hplace.top_le, ?_,
          hplace.ascends⟩
        · rcases hplace.enclosed with ⟨hslot, hmem⟩ | ⟨above, habove, hslot, hmem⟩
          · exact Or.inl ⟨hslot, List.mem_cons_of_mem _ hmem⟩
          · exact Or.inr ⟨above, habove.cons, hslot, hmem⟩
        · rw [nodesOfListAt_node_cons, hplace.rows]
          simp

/-- The rows below a node are those that follow it and are deeper. -/
theorem Located.block
    (h : Located arena parent top ss slot s depth before after) :
    (nodesOfListAt (depth + 1) (some s.id) s.children ++ after).takeWhile
        (fun row => depth < row.1) =
      nodesOfListAt (depth + 1) (some s.id) s.children := by
  have hdeeper : forall row,
      row ∈ nodesOfListAt (depth + 1) (some s.id) s.children →
        decide (depth < row.1) = true := by
    intro row hrow
    exact decide_eq_true (Snapshot.le_of_mem_nodesOfListAt hrow)
  have hafter : after.takeWhile (fun row => depth < row.1) = [] := by
    cases after with
    | nil => rfl
    | cons row rest =>
        have hle := h.ascends row rfl
        exact List.takeWhile_cons_of_neg (by simpa using hle)
  rw [List.takeWhile_append_of_pos hdeeper, hafter, List.append_nil]

theorem Holds.of_inside (h : Holds arena parent ss) (hs : s.Inside ss) :
    exists slot, Holds arena slot [s] := by
  induction hs generalizing parent with
  | level hmem => exact ⟨parent, holds_iff_forall.mp h s hmem⟩
  | deeper hmem _ ih =>
      cases holds_iff_forall.mp h _ hmem with
      | cons _ hbelow _ => exact ih hbelow

theorem Shows.subtree_of_held (h : Shows forest ss) (hs : s.Inside ss)
    (hheld : Holds forest.arena slot [s]) : Subtree forest slot s :=
  ⟨hheld, Nat.le_trans hs.ids_sublist.length_le h.length_le⟩

/-!
# What the traversals say
-/

/-- What is said about a node by each traversal: it stands in the row
`(depth, node)`, between the rows `before` and `after`, and has the snapshot
`s`. -/
structure Placed (forest : Forest) (id : NodeId) (s : Snapshot) (depth : Nat)
    (node : Node) (before after : List Row) : Prop where
  find : forest.find? id = some node
  rows : forest.rows = before ++ (depth, node) :: after
  snapshotOf : forest.snapshotOf? id = some s
  inside : s.id = id ∧ s.Inside forest.snapshot
  /-- The rows below the node are those that follow it and are deeper. -/
  block : after.takeWhile (fun row => depth < row.1) =
    nodesOfListAt (depth + 1) (some id) s.children
  descendants : exists count, forest.descendantCount? id = some count ∧
    s.ids.length = count + 1 ∧
    (after.takeWhile fun row => depth < row.1).length = count
  children : forest.children id = s.children.map (Snapshot.toNode (some id))
  parent : forall p, (forest.parent? id).map Node.id = some p ↔
    exists t : Snapshot, t.Inside forest.snapshot ∧ t.id = p ∧ s ∈ t.children
  root : forest.parent? id = none ↔ s ∈ forest.snapshot

/-- All traversals describe the same nested nodes. -/
structure Coherent (forest : Forest) : Prop where
  /-- The rows are the nodes of the whole snapshot in document order. -/
  rows : forest.rows = nodesOfListAt 0 none forest.snapshot
  /-- Every node is visited once. -/
  visits : Enumerates forest.arena (forest.rows.map fun row => row.2.id)
  entries : forall row, row ∈ forest.rows → forest.find? row.2.id = some row.2
  size : forest.rows.length = forest.size
  /-- The depth of a node is how many nodes lie on the way up from it. -/
  depth : forall row, row ∈ forest.rows → Climbs forest row.1 row.2.id
  /-- The snapshot of a node is the one that the whole snapshot has for it. -/
  nested : forall id s, forest.snapshotOf? id = some s ↔
    s.id = id ∧ s.Inside forest.snapshot
  placed : forall id, forest.contains id = true →
    exists s depth node before after,
      Placed forest id s depth node before after

namespace Subtree

theorem slot_eq (h : Subtree forest slot s)
    (hfind : forest.find? s.id = some (s.toNode parent)) : slot = parent := by
  have hsame := h.find.symm.trans hfind
  rw [Option.some_inj] at hsame
  have hparent := congrArg Node.parent hsame
  rwa [Snapshot.toNode_parent, Snapshot.toNode_parent] at hparent

theorem map_id_parent? (h : Subtree forest slot s) (hshows : Shows forest ss) :
    (forest.parent? s.id).map Node.id = slot := by
  unfold parent?
  rw [h.find, Option.bind_some, Snapshot.toNode_parent]
  cases slot with
  | none => rfl
  | some p =>
      have hlisted := (hshows.toLinks.mem_siblings
        (hshows.complete s.id (mem_of_entry h.find)) h.find).right
      rw [Snapshot.toNode_parent] at hlisted
      cases habove : forest.find? p with
      | none => simp [siblings, habove] at hlisted
      | some above =>
          rw [Option.bind_some, habove, Option.map_some, hshows.keyed habove]

theorem slot_of_child (h : Subtree forest slot s) (hshows : Shows forest ss)
    (ht : t.Inside ss) (hs : s ∈ t.children) : slot = some t.id := by
  rcases hshows.held.of_inside ht with ⟨above, hheld⟩
  cases hheld with
  | cons _ hbelow _ => exact h.slot_eq (hbelow.find hs)

end Subtree

theorem Shows.placed (h : Shows forest ss) (hx : x ∈ forest.arena) :
    exists s depth node before after,
      Placed forest x s depth node before after := by
  rcases h.held.exists_located (h.complete x hx) 0 with
    ⟨slot, s, depth, before, after, rfl, hplace⟩
  have hsub := h.subtree_of_held hplace.inside hplace.held
  have hparent := hsub.map_id_parent? h
  refine ⟨s, depth, s.toNode slot, before, _, hsub.find,
    h.rows.trans hplace.rows, hsub.snapshotOf?, ?_, hplace.block,
    ⟨_, hsub.descendantCount?, ?_, ?_⟩, hsub.children, ?_, ?_⟩
  · rw [h.snapshot]
    exact ⟨rfl, hplace.inside⟩
  · cases s with
    | node id type properties below => rfl
  · rw [hplace.block, ← Snapshot.map_id_nodesOfListAt s.children,
      List.length_map]
  · intro p
    rw [hparent, h.snapshot]
    constructor
    · intro hp
      rcases hplace.enclosed with ⟨hnone, _⟩ | ⟨above, habove, hslot, hmem⟩
      · rw [hnone] at hp
        cases hp
      · exact ⟨above, habove, Option.some_inj.mp (hslot.symm.trans hp), hmem⟩
    · rintro ⟨t, ht, rfl, hmem⟩
      exact hsub.slot_of_child h ht hmem
  · rw [← Option.map_eq_none_iff, hparent, h.snapshot]
    constructor
    · intro hnone
      rcases hplace.enclosed with ⟨_, hmem⟩ | ⟨above, _, hslot, _⟩
      · exact hmem
      · rw [hnone] at hslot
        cases hslot
    · intro hmem
      exact hsub.slot_eq (h.held.find hmem)

theorem Shows.coherent (h : Shows forest ss) : Coherent forest := by
  have hids : (forest.rows.map fun row => row.2.id) = idsOfList ss := by
    rw [h.rows, Snapshot.map_id_nodesOfListAt]
  constructor
  · rw [h.rows, h.snapshot]
  · rw [hids]
    exact h.enumerates
  · intro row hrow
    rw [h.rows] at hrow
    exact h.held.find_row hrow
  · rw [h.size, ← hids, List.length_map]
  · intro row hrow
    rw [h.rows] at hrow
    apply h.held.climbs _ hrow
    intro id entry hentry hparent
    exact climbs_root hentry hparent
  · intro id s
    constructor
    · intro hs
      rcases h.subtree_of_snapshotOf? hs with ⟨rfl, slot, hsub⟩
      rcases h.held.exists_located
        (h.complete _ (mem_of_entry hsub.find)) 0 with
        ⟨slot', t, _, _, _, hid, hplace⟩
      have ht := (h.subtree_of_held hplace.inside hplace.held).snapshotOf?
      rw [hid, hs] at ht
      cases ht
      rw [h.snapshot]
      exact ⟨rfl, hplace.inside⟩
    · rintro ⟨rfl, hs⟩
      rw [h.snapshot] at hs
      rcases h.held.of_inside hs with ⟨slot, hheld⟩
      exact (h.subtree_of_held hs hheld).snapshotOf?
  · intro id hid
    exact h.placed (contains_iff.mp hid)

/-- After every run of edits, rows, snapshots, counts, depths and links describe
the same nested nodes. -/
theorem ofEdits_coherent (registry : Registry) (options : Options)
    (requests : List Edit) : Coherent (ofEdits registry options requests) := by
  rcases exists_shows_ofEdits registry options requests with ⟨ss, h⟩
  exact h.coherent

end Forest

end MarkupForest
