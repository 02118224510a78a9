import MarkupForest.Proofs.Traversals

/-!
# The contents of a forest

The contents of a forest are its nodes in document order with their depths, and
without their links.  A node with everything below it is one entry of one list
of siblings, and one block of the contents.  Changing the list around this entry
changes the contents around the block and nowhere else.
-/

namespace MarkupForest

namespace Snapshot

/-- The row of a node that lies under `depth` more nodes. -/
def Row.lower (depth : Nat) (row : Row) : Row :=
  { row with depth := depth + row.depth }

/-!
# Blocks of rows
-/

theorem rowsOfListAt_cons (depth : Nat) (s : Snapshot) (rest : List Snapshot) :
    rowsOfListAt depth (s :: rest) = rowsAt depth s ++ rowsOfListAt depth rest :=
  rfl

theorem rowsOfListAt_append (depth : Nat) (ss ts : List Snapshot) :
    rowsOfListAt depth (ss ++ ts) =
      rowsOfListAt depth ss ++ rowsOfListAt depth ts := by
  induction ss with
  | nil => rfl
  | cons s rest ih =>
      rw [List.cons_append, rowsOfListAt_cons, ih, rowsOfListAt_cons,
        List.append_assoc]

theorem rowsOfListAt_add (depth more : Nat) (ss : List Snapshot) :
    rowsOfListAt (depth + more) ss =
      (rowsOfListAt more ss).map (Row.lower depth) := by
  induction ss using nested_induction generalizing more with
  | nil => rfl
  | cons id type properties below rest ihbelow ihrest =>
      rw [rowsOfListAt_node_cons, rowsOfListAt_node_cons, Nat.add_assoc,
        ihbelow, ihrest, List.map_cons, List.map_append]
      rfl

theorem rowsAt_eq_map (depth : Nat) (s : Snapshot) :
    s.rowsAt depth = s.rows.map (Row.lower depth) := by
  have hlist := rowsOfListAt_add depth 0 [s]
  rwa [rowsOfListAt_cons, rowsOfListAt_cons, rowsOfListAt_nil,
    rowsOfListAt_nil, List.append_nil, List.append_nil] at hlist

theorem length_rows (s : Snapshot) : s.rows.length = s.ids.length := by
  have hids := map_id_rowsOfListAt 0 [s]
  rw [idsOfList_singleton, rowsOfListAt_cons, rowsOfListAt_nil,
    List.append_nil] at hids
  rw [← hids, List.length_map]
  rfl

/-!
# An entry between its siblings
-/

variable {s : Snapshot} {left right : List Snapshot}

theorem strike_between (h : s.id ∉ (left ++ right).map Snapshot.id) :
    strike s.id (left ++ s :: right) = left ++ right := by
  rw [strike_append, strike_cons_of_eq rfl, ← strike_append,
    strike_of_not_mem h]

theorem insertIdx_between {alpha : Type} (before after : List alpha)
    (entry : alpha) :
    (before ++ after).insertIdx before.length entry = before ++ entry :: after := by
  induction before with
  | nil => rfl
  | cons first rest ih => exact congrArg (first :: ·) ih

/-- An index cuts a list of siblings in two, and what is inserted there goes
between the parts. -/
theorem exists_insertBy_eq (index : List NodeId → Nat) (s : Snapshot)
    (level : List Snapshot) :
    exists left right, level = left ++ right ∧
      insertBy index s level = left ++ s :: right := by
  have hle := Nat.min_le_right (index (level.map Snapshot.id)) level.length
  unfold insertBy
  generalize min (index (level.map Snapshot.id)) level.length = place at hle
  refine ⟨level.take place, level.drop place, (List.take_append_drop _ _).symm, ?_⟩
  have hinsert := insertIdx_between (level.take place) (level.drop place) s
  rwa [List.take_append_drop, List.length_take_of_le hle] at hinsert

theorem insertBy_indexAfter (t : Snapshot) (hleft : s.id ∉ left.map Snapshot.id) :
    insertBy (Forest.indexAfter s.id) t (left ++ s :: right) =
      left ++ s :: t :: right := by
  have hindex : Forest.indexAfter s.id ((left ++ s :: right).map Snapshot.id) =
      (left ++ [s]).length := by
    unfold Forest.indexAfter
    rw [List.map_append, List.idxOf_append_of_notMem hleft, List.map_cons,
      List.idxOf_cons_self, List.length_map, List.length_append]
    rfl
  have hlist : left ++ s :: right = (left ++ [s]) ++ right := by
    rw [List.append_assoc]
    rfl
  unfold insertBy
  rw [hindex, hlist, Nat.min_eq_left (by simp), insertIdx_between,
    List.append_assoc]
  rfl

end Snapshot

namespace Forest

open Snapshot (idsOfList nodesOfListAt rowsOfListAt changeSiblings insertBy strike)

/-- Every node with its depth, in document order and without its links. -/
def contents (forest : Forest) : List Snapshot.Row :=
  forest.rows.map fun row => ⟨row.1, row.2.id, row.2.type, row.2.properties⟩

variable {forest changed : Forest} {ss : List Snapshot} {s : Snapshot}
  {slot parent : Option NodeId} {x y : NodeId} {node : Node}
  {left right level : List Snapshot} {depth : Nat}
  {before after : List Snapshot.Row}

theorem map_nodesOfListAt (ss : List Snapshot) (depth : Nat)
    (parent : Option NodeId) :
    (nodesOfListAt depth parent ss).map (fun row =>
        (⟨row.1, row.2.id, row.2.type, row.2.properties⟩ : Snapshot.Row)) =
      rowsOfListAt depth ss := by
  induction ss using Snapshot.nested_induction generalizing depth parent with
  | nil => rfl
  | cons id type properties below rest ihbelow ihrest =>
      rw [Snapshot.nodesOfListAt_node_cons, List.map_cons, List.map_append,
        ihbelow, ihrest]
      rfl

theorem Shows.contents (h : Shows forest ss) :
    forest.contents = rowsOfListAt 0 ss := by
  unfold Forest.contents
  rw [h.rows, map_nodesOfListAt]

theorem Shows.length_contents (h : Shows forest ss) :
    forest.contents.length = forest.size := by
  unfold Forest.contents
  rw [List.length_map]
  exact h.coherent.size

/-!
# The place of a node
-/

/-- The nested nodes `s` stand under `slot`, between the siblings `left` and
`right`.  The rows of all these siblings are at `depth`, between `before` and
`after`. -/
structure Stands (forest : Forest) (ss : List Snapshot) (slot : Option NodeId)
    (s : Snapshot) (left right : List Snapshot) (depth : Nat)
    (before after : List Snapshot.Row) : Prop where
  find : forest.find? s.id = some (s.toNode slot)
  slotOf : SlotOf ss slot
  focus : Focus forest.arena none 0 ss slot (left ++ s :: right) depth before after
  nodup : ((left ++ s :: right).map Snapshot.id).Nodup

theorem Holds.eq_of_snapshotOf? {t : Snapshot} (h : Holds forest.arena slot [t])
    (hnodup : t.ids.Nodup) (hs : forest.snapshotOf? t.id = some s) : t = s := by
  have ht := (h.subtree hnodup).snapshotOf?
  exact Option.some_inj.mp (ht.symm.trans hs)

theorem Shows.exists_stands (h : Shows forest ss)
    (hs : forest.snapshotOf? x = some s) :
    exists slot left right depth before after, s.id = x ∧
      Stands forest ss slot s left right depth before after := by
  rcases h.subtree_of_snapshotOf? hs with ⟨rfl, slot, hsub⟩
  rcases h.toLinks.mem_siblings (h.complete _ (mem_of_entry hsub.find)) hsub.find
    with ⟨hslot, hlisted⟩
  rw [Snapshot.toNode_parent] at hslot hlisted
  rcases h.toLinks.exists_focus hslot with ⟨level, depth, before, after, hfocus⟩
  have hlevel : (idsOfList level).Nodup := by
    have hnodup := h.nodup
    rw [hfocus.ids, List.nodup_append, List.nodup_append] at hnodup
    exact hnodup.left.right.left
  rw [h.toLinks.siblings_focus hfocus] at hlisted
  rcases List.mem_map.mp hlisted with ⟨t, ht, hid⟩
  have heq : t = s :=
    (holds_iff_forall.mp hfocus.held t ht).eq_of_snapshotOf?
      (hlevel.sublist (Snapshot.ids_sublist_of_mem ht)) (hid ▸ hs)
  rcases List.append_of_mem (heq ▸ ht) with ⟨left, right, rfl⟩
  exact ⟨slot, left, right, depth, before, after, rfl, hsub.find, hslot, hfocus,
    hlevel.sublist (Snapshot.map_id_sublist_idsOfList _)⟩

namespace Stands

theorem map_parent (h : Stands forest ss slot s left right depth before after) :
    (forest.find? s.id).map Node.parent = some slot := by
  rw [h.find, Option.map_some, Snapshot.toNode_parent]

theorem siblings (h : Stands forest ss slot s left right depth before after)
    (hlinks : Links forest ss) :
    forest.siblings slot =
      left.map Snapshot.id ++ s.id :: right.map Snapshot.id := by
  rw [hlinks.siblings_focus h.focus, List.map_append, List.map_cons]

theorem not_mem_beside (h : Stands forest ss slot s left right depth before after) :
    s.id ∉ (left ++ right).map Snapshot.id := by
  have hnodup := h.nodup
  rw [List.map_append, List.map_cons, List.nodup_middle, List.nodup_cons] at hnodup
  rw [List.map_append]
  exact hnodup.left

theorem strike (h : Stands forest ss slot s left right depth before after) :
    Snapshot.strike s.id (left ++ s :: right) = left ++ right :=
  Snapshot.strike_between h.not_mem_beside

theorem not_mem_left (h : Stands forest ss slot s left right depth before after) :
    s.id ∉ left.map Snapshot.id := by
  intro hmem
  apply h.not_mem_beside
  rw [List.map_append]
  exact List.mem_append_left _ hmem

theorem apart (h : Stands forest ss slot s left right depth before after) {p : NodeId}
    (hp : slot = some p) : p ∉ s.ids := by
  intro hmem
  apply h.focus.apart p hp
  exact Snapshot.mem_idsOfList_iff.mpr ⟨s, by simp, hmem⟩

theorem contents (h : Stands forest ss slot s left right depth before after)
    (hshows : Shows forest ss) :
    forest.contents =
      (before ++ rowsOfListAt depth left) ++ s.rows.map (Snapshot.Row.lower depth) ++
        (rowsOfListAt depth right ++ after) := by
  rw [hshows.contents, h.focus.rows, Snapshot.rowsOfListAt_append,
    Snapshot.rowsOfListAt_cons, Snapshot.rowsAt_eq_map]
  simp only [List.append_assoc]

end Stands

/-!
# What a changed list of siblings leaves as it was
-/

/-- The node `id` is the same in both forests, up to its list of children if it
is this list that `slot` names. -/
def Keeps (forest changed : Forest) (slot : Option NodeId) (id : NodeId) : Prop :=
  exists node kept, forest.find? id = some node ∧ changed.find? id = some kept ∧
    kept = { node with children := kept.children } ∧
    (slot ≠ some id → kept = node)

theorem siblings_congr (hroots : slot = none → changed.roots = forest.roots)
    (hfind : forall p, slot = some p → changed.find? p = forest.find? p) :
    changed.siblings slot = forest.siblings slot := by
  cases slot with
  | none => exact hroots rfl
  | some p =>
      show ((changed.find? p).map Node.children).getD [] = _
      rw [hfind p rfl]
      rfl

theorem siblings_modifySiblings (change : List NodeId → List NodeId)
    (hslot : forall p, slot = some p → p ∈ forest.arena) :
    (forest.modifySiblings slot change).siblings slot =
      change (forest.siblings slot) := by
  cases slot with
  | none => rfl
  | some p =>
      rcases exists_entry_of_mem (hslot p rfl) with ⟨node, hfind⟩
      have hchanged : (forest.modifySiblings (some p) change).find? p =
          some { node with children := change node.children } := by
        unfold Forest.find?
        rw [modifySiblings_find, if_pos rfl, hfind]
        rfl
      rw [siblings_of_find hfind, siblings_of_find hchanged]

theorem siblings_attach_last (hslot : forall p, slot = some p → p ∈ forest.arena) :
    (forest.attach x slot none).siblings slot = forest.siblings slot ++ [x] := by
  unfold attach
  rw [siblings_modifySiblings _ hslot]
  show insertAt (forest.siblings slot).length x _ = _
  unfold insertAt
  rw [Nat.min_self, List.insertIdx_length_self]

theorem siblings_modifySiblings_of_ne (change : List NodeId → List NodeId)
    (hne : slot ≠ parent) :
    (forest.modifySiblings slot change).siblings parent =
      forest.siblings parent := by
  apply siblings_congr
  · intro hnone
    cases slot with
    | none => exact absurd hnone.symm hne
    | some p => rfl
  · intro p hp
    exact modifySiblings_find_of_ne fun e => hne (e.trans hp.symm)

theorem keeps_modifySiblings (change : List NodeId → List NodeId)
    (hfind : forest.find? y = some node) :
    Keeps forest (forest.modifySiblings slot change) slot y := by
  unfold Keeps Forest.find?
  rw [modifySiblings_find]
  by_cases hy : slot = some y
  · refine ⟨node, { node with children := change node.children }, hfind, ?_,
      rfl, fun hne => absurd hy hne⟩
    rw [if_pos hy]
    exact congrArg (Option.map _) hfind
  · refine ⟨node, node, hfind, ?_, rfl, fun _ => rfl⟩
    rw [if_neg hy]
    exact hfind

theorem Keeps.congr {first last : Forest} (h : Keeps forest changed slot y)
    (hfirst : first.find? y = forest.find? y)
    (hlast : last.find? y = changed.find? y) : Keeps first last slot y := by
  rcases h with ⟨node, kept, hfind, hkept, hlinks⟩
  exact ⟨node, kept, hfirst.trans hfind, hlast.trans hkept, hlinks⟩

/-!
# The siblings beside a node
-/

/-- The siblings under `slot` apart from the node `id`. -/
def siblingsBeside (forest : Forest) (id : NodeId) (slot : Option NodeId) :
    List NodeId :=
  (forest.siblings slot).filter (· ≠ id)

theorem Shows.siblingsBeside_of_ne (h : Shows forest ss)
    (hparent : (forest.find? x).map Node.parent = some parent)
    (hne : parent ≠ slot) :
    forest.siblingsBeside x slot = forest.siblings slot := by
  apply List.filter_eq_self.mpr
  intro y hy
  have hyx : y ≠ x := by
    rintro rfl
    rcases h.parent_of_listed hy with ⟨entry, hentry, hlisted⟩
    rw [hentry, Option.map_some, Option.some_inj] at hparent
    exact hne (hparent.symm.trans hlisted)
  simpa using hyx

theorem Shows.siblings_detach (h : Shows forest ss)
    (hparent : (forest.find? x).map Node.parent = some parent)
    (hslot : SlotOf ss parent) :
    (forest.detach x parent).siblings slot = forest.siblingsBeside x slot := by
  by_cases heq : parent = slot
  · cases heq
    exact siblings_modifySiblings _ (h.mem_of_slot hslot)
  · rw [h.siblingsBeside_of_ne hparent heq]
    exact siblings_modifySiblings_of_ne _ heq

theorem Stands.siblingsBeside (h : Stands forest ss slot s left right depth before after)
    (hlinks : Links forest ss) :
    forest.siblingsBeside s.id slot =
      left.map Snapshot.id ++ right.map Snapshot.id := by
  unfold Forest.siblingsBeside
  rw [hlinks.siblings_focus h.focus, ← Snapshot.map_id_strike, h.strike,
    List.map_append]

end Forest

end MarkupForest
