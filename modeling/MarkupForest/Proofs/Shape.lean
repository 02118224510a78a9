import MarkupForest.Forest.Edit
import MarkupForest.Proofs.Numbering
import MarkupForest.Proofs.Siblings

/-!
# The nested nodes of a forest

A forest shows a list of nested nodes when its roots and its lists of children
spell out exactly these nodes, and the arena has no others.  This is the
invariant that every edit keeps.  The first part, without the condition that
nothing else is in the arena, is a structure of its own, since it also holds
between the two halves of an edit, when a subtree is in the arena but not in any
list.
-/

namespace MarkupForest

namespace Forest

open Snapshot (idsOfList changeSiblings)

/-- The lists of siblings spell out the nested nodes `ss`. -/
structure Links (forest : Forest) (ss : List Snapshot) : Prop where
  roots : forest.roots = ss.map Snapshot.id
  held : Holds forest.arena none ss
  nodup : (idsOfList ss).Nodup

/-- The nested nodes `ss` are the whole forest, under generated identifiers. -/
structure Shows (forest : Forest) (ss : List Snapshot) : Prop
    extends Links forest ss where
  complete : forall x, x ∈ forest.arena → x ∈ idsOfList ss
  counted : 1 ≤ forest.nextCount
  numbered : forall x node, forest.arena[x]? = some node →
    exists count, 1 ≤ count ∧ count < forest.nextCount ∧
      x = NodeId.generate node.type count

variable {forest changed : Forest} {ss level : List Snapshot} {s : Snapshot}
  {slot : Option NodeId} {x y p : NodeId} {node : Node}
  {change : List NodeId → List NodeId}

theorem exists_entry_of_mem {arena : Arena} (h : x ∈ arena) :
    exists node, arena[x]? = some node :=
  Option.isSome_iff_exists.mp (Std.ExtHashMap.mem_iff_isSome_getElem?.mp h)

theorem mem_of_entry {arena : Arena} (h : arena[x]? = some node) :
    x ∈ arena := by
  rw [Std.ExtHashMap.mem_iff_isSome_getElem?, h]
  rfl

theorem contains_iff : forest.contains x = true ↔ x ∈ forest.arena :=
  Std.ExtHashMap.contains_iff_mem

namespace Shows

theorem mem_iff (h : Shows forest ss) : x ∈ forest.arena ↔ x ∈ idsOfList ss :=
  ⟨h.complete x, h.held.mem⟩

theorem keyed (h : Shows forest ss) (hfind : forest.arena[x]? = some node) :
    node.id = x := by
  rcases h.held.exists_entry (h.complete x (mem_of_entry hfind)) with
    ⟨entry, hentry, hid⟩
  rw [hfind] at hentry
  cases hentry
  exact hid

theorem fresh (h : Shows forest ss) : Fresh forest.arena forest.nextCount := by
  intro type later hlater hmem
  rcases exists_entry_of_mem hmem with ⟨node, hnode⟩
  rcases h.numbered _ node hnode with ⟨count, _, hlt, heq⟩
  have hcount := (NodeId.generate_inj.mp heq).right
  omega

theorem length_le (h : Shows forest ss) :
    (idsOfList ss).length ≤ forest.size :=
  h.held.length_le_size h.nodup

/-- A forest with these lists shows them when every entry is one of them, and is
an old one, as far as its type goes, or has a new identifier. -/
theorem of_links {ts : List Snapshot} (h : Shows forest ss)
    (hlinks : Links changed ts) (hcount : forest.nextCount ≤ changed.nextCount)
    (hentry : forall y node, changed.arena[y]? = some node →
      y ∈ idsOfList ts ∧
        ((exists old, forest.arena[y]? = some old ∧ old.type = node.type) ∨
          exists count, forest.nextCount ≤ count ∧ count < changed.nextCount ∧
            y = NodeId.generate node.type count)) :
    Shows changed ts := by
  refine ⟨hlinks, ?_, Nat.le_trans h.counted hcount, ?_⟩
  · intro y hy
    rcases exists_entry_of_mem hy with ⟨node, hnode⟩
    exact (hentry y node hnode).left
  · intro y node hnode
    rcases (hentry y node hnode).right with
      ⟨old, hold, htype⟩ | ⟨count, hle, hlt, heq⟩
    · rcases h.numbered y old hold with ⟨count, hpos, hlt, heq⟩
      exact ⟨count, hpos, by omega, htype ▸ heq⟩
    · have hpos := h.counted
      exact ⟨count, by omega, hlt, heq⟩

theorem empty (registry : Registry) (options : Options) :
    Shows (Forest.empty registry options) [] := by
  constructor
  · exact ⟨rfl, Holds.nil, List.nodup_nil⟩
  · intro x hx
    exact absurd hx (Std.ExtHashMap.not_mem_empty)
  · exact Nat.le_refl 1
  · intro x node hfind
    simp [Forest.empty] at hfind

end Shows

/-!
# Parents and children
-/

theorem Holds.exists_parent {arena : Arena} {parent : Option NodeId}
    (h : Holds arena parent ss) (hx : x ∈ idsOfList ss) :
    exists node, arena[x]? = some node ∧
      ((node.parent = parent ∧ x ∈ ss.map Snapshot.id) ∨
        exists p above, node.parent = some p ∧ p ∈ idsOfList ss ∧
          arena[p]? = some above ∧ x ∈ above.children) := by
  induction h with
  | nil => simp at hx
  | @cons parent id type properties below rest hfind hbelow hrest ihbelow ihrest =>
      rw [Snapshot.idsOfList_node_cons, List.mem_cons, List.mem_append] at hx
      rcases hx with rfl | hx | hx
      · exact ⟨_, hfind, Or.inl ⟨rfl, by simp⟩⟩
      · rcases ihbelow hx with ⟨node, hnode, ⟨hparent, hmem⟩ | hdeep⟩
        · exact ⟨node, hnode, Or.inr ⟨id, _, hparent, by simp, hfind, hmem⟩⟩
        · rcases hdeep with ⟨p, above, hparent, hp, habove, hmem⟩
          exact ⟨node, hnode,
            Or.inr ⟨p, above, hparent, by simp [hp], habove, hmem⟩⟩
      · rcases ihrest hx with ⟨node, hnode, ⟨hparent, hmem⟩ | hdeep⟩
        · exact ⟨node, hnode, Or.inl ⟨hparent, List.mem_cons_of_mem _ hmem⟩⟩
        · rcases hdeep with ⟨p, above, hparent, hp, habove, hmem⟩
          exact ⟨node, hnode,
            Or.inr ⟨p, above, hparent, by simp [hp], habove, hmem⟩⟩

theorem Holds.children_held {arena : Arena} {parent : Option NodeId}
    (h : Holds arena parent ss) (hp : p ∈ idsOfList ss) :
    exists above level, arena[p]? = some above ∧
      above.children = level.map Snapshot.id ∧ Holds arena (some p) level ∧
      forall y, y ∈ idsOfList level → y ∈ idsOfList ss := by
  induction h with
  | nil => simp at hp
  | @cons parent id type properties below rest hfind hbelow hrest ihbelow ihrest =>
      rw [Snapshot.idsOfList_node_cons, List.mem_cons, List.mem_append] at hp
      rcases hp with rfl | hp | hp
      · exact ⟨_, below, hfind, rfl, hbelow, fun y hy => by simp [hy]⟩
      · rcases ihbelow hp with ⟨above, level, habove, hlist, hheld, hsub⟩
        exact ⟨above, level, habove, hlist, hheld,
          fun y hy => by simp [hsub y hy]⟩
      · rcases ihrest hp with ⟨above, level, habove, hlist, hheld, hsub⟩
        exact ⟨above, level, habove, hlist, hheld,
          fun y hy => by simp [hsub y hy]⟩

/-!
# Changing one list of siblings
-/

theorem modifySiblings_find (forest : Forest) (slot : Option NodeId)
    (change : List NodeId → List NodeId) (y : NodeId) :
    (forest.modifySiblings slot change).arena[y]? =
      if slot = some y then
        (forest.arena[y]?).map fun node =>
          { node with children := change node.children }
      else
        forest.arena[y]? := by
  cases slot with
  | none => simp [modifySiblings]
  | some p =>
      simp only [modifySiblings, Std.ExtHashMap.getElem?_modify, beq_iff_eq,
        Option.some_inj]
      by_cases hp : p = y
      · rw [if_pos hp, if_pos hp, hp]
      · rw [if_neg hp, if_neg hp]

@[simp] theorem modifySiblings_nextCount (forest : Forest)
    (slot : Option NodeId) (change : List NodeId → List NodeId) :
    (forest.modifySiblings slot change).nextCount = forest.nextCount := by
  cases slot <;> rfl

theorem modifySiblings_find_of_ne (h : slot ≠ some y) :
    (forest.modifySiblings slot change).arena[y]? = forest.arena[y]? := by
  rw [modifySiblings_find, if_neg h]

theorem mem_modifySiblings :
    y ∈ (forest.modifySiblings slot change).arena ↔ y ∈ forest.arena := by
  cases slot with
  | none => exact Iff.rfl
  | some p => exact Std.ExtHashMap.mem_modify

theorem exists_of_modifySiblings_find
    (h : (forest.modifySiblings slot change).arena[y]? = some node) :
    exists old, forest.arena[y]? = some old ∧
      node = { old with children := node.children } := by
  rw [modifySiblings_find] at h
  by_cases hy : slot = some y
  · rw [if_pos hy, Option.map_eq_some_iff] at h
    rcases h with ⟨old, hold, rfl⟩
    exact ⟨old, hold, rfl⟩
  · rw [if_neg hy] at h
    exact ⟨node, h, rfl⟩

namespace Links

theorem exists_focus (h : Links forest ss) (hslot : SlotOf ss slot) :
    exists level depth before after,
      Focus forest.arena none 0 ss slot level depth before after :=
  Forest.exists_focus h.held h.nodup hslot 0

/-- A changed level makes the changed nodes, in an arena that agrees with the
one before on everything outside the level. -/
theorem change_level {depth : Nat} {before after : List Snapshot.Row}
    (h : Links forest ss) (hslot : SlotOf ss slot)
    (hfocus : Focus forest.arena none 0 ss slot level depth before after)
    (change : List NodeId → List NodeId)
    (replace : List Snapshot → List Snapshot)
    (hmap : change (level.map Snapshot.id) = (replace level).map Snapshot.id)
    (hroots : changed.roots = (forest.modifySiblings slot change).roots)
    (hsame : forall y, y ∈ idsOfList ss → y ∉ idsOfList level →
      changed.arena[y]? = (forest.modifySiblings slot change).arena[y]?)
    (hheld : Holds changed.arena slot (replace level))
    (hnodup : (idsOfList (changeSiblings slot replace ss)).Nodup) :
    Links changed (changeSiblings slot replace ss) := by
  have hids := hfocus.ids
  have hdistinct := h.nodup
  rw [hids, List.nodup_append, List.nodup_append] at hdistinct
  refine ⟨?_, ?_, hnodup⟩
  · cases slot with
    | none =>
        have hlevel := hfocus.first rfl
        rw [hroots]
        show change forest.roots = _
        rw [h.roots, ← hlevel, hmap]
        rfl
    | some p =>
        rw [hroots]
        show forest.roots = (Snapshot.changeBelowList p replace ss).map _
        rw [h.roots, Snapshot.map_id_changeBelowList]
  · apply hfocus.change_held replace changed.arena _ _ hheld
    · intro row hrow hne
      have hin : row.id ∈ before.map Snapshot.Row.id ∨
          row.id ∈ after.map Snapshot.Row.id :=
        hrow.imp List.mem_map_of_mem List.mem_map_of_mem
      have hmem : row.id ∈ idsOfList ss := by
        rw [hids]
        simp only [List.mem_append]
        rcases hin with hin | hin
        · exact Or.inl (Or.inl hin)
        · exact Or.inr hin
      have hout : row.id ∉ idsOfList level := by
        intro hlevel
        rcases hin with hin | hin
        · exact hdistinct.left.right.right _ hin _ hlevel rfl
        · exact hdistinct.right.right _ (List.mem_append_right _ hlevel) _ hin rfl
      rw [hsame _ hmem hout, modifySiblings_find_of_ne (Ne.symm hne)]
    · intro p hp
      rcases hfocus.owner p hp with ⟨node, hnode, hchildren⟩
      rw [hsame p (hslot p hp) (hfocus.apart p hp), modifySiblings_find,
        if_pos hp, hnode]
      simp [hchildren, hmap]

end Links

end Forest

namespace Snapshot

/-!
# One node more or less in a level
-/

theorem idsOfList_eq_flatMap (ss : List Snapshot) :
    idsOfList ss = ss.flatMap ids := by
  induction ss with
  | nil => rfl
  | cons s rest ih => rw [idsOfList_cons, ih, List.flatMap_cons]

theorem ids_sublist_of_mem {s : Snapshot} {ss : List Snapshot} (hs : s ∈ ss) :
    s.ids.Sublist (idsOfList ss) := by
  rw [idsOfList_eq_flatMap, List.flatMap_def]
  exact List.sublist_flatten_of_mem (List.mem_map_of_mem hs)

theorem idsOfList_perm {ss ts : List Snapshot} (h : ss.Perm ts) :
    (idsOfList ss).Perm (idsOfList ts) := by
  rw [idsOfList_eq_flatMap, idsOfList_eq_flatMap]
  exact h.flatMap_right _

/-- Insert into a list of siblings at an index that may depend on them, at the
end when the index lies beyond it. -/
def insertBy (index : List NodeId → Nat) (s : Snapshot)
    (level : List Snapshot) : List Snapshot :=
  level.insertIdx (min (index (level.map Snapshot.id)) level.length) s

/-- Strike a node from a list of siblings. -/
def strike (x : NodeId) (level : List Snapshot) : List Snapshot :=
  level.filter (·.id ≠ x)

variable {s : Snapshot} {level : List Snapshot} {x : NodeId}

theorem map_id_insertBy (index : List NodeId → Nat) (s : Snapshot)
    (level : List Snapshot) :
    (insertBy index s level).map Snapshot.id =
      Forest.insertAt (index (level.map Snapshot.id)) s.id
        (level.map Snapshot.id) := by
  simp only [insertBy, Forest.insertAt, List.map_insertIdx, List.length_map]

theorem insertBy_perm (index : List NodeId → Nat) (s : Snapshot)
    (level : List Snapshot) : (insertBy index s level).Perm (s :: level) :=
  List.perm_insertIdx s level (Nat.min_le_right _ _)

theorem map_id_strike (x : NodeId) (level : List Snapshot) :
    (strike x level).map Snapshot.id =
      (level.map Snapshot.id).filter (· ≠ x) := by
  rw [strike, List.filter_map]
  rfl

theorem strike_cons_of_eq (h : s.id = x) (rest : List Snapshot) :
    strike x (s :: rest) = strike x rest :=
  List.filter_cons_of_neg (by simp [h])

theorem strike_cons_of_ne (h : s.id ≠ x) (rest : List Snapshot) :
    strike x (s :: rest) = s :: strike x rest :=
  List.filter_cons_of_pos (by simp [h])

theorem strike_append (x : NodeId) (left right : List Snapshot) :
    strike x (left ++ right) = strike x left ++ strike x right :=
  List.filter_append left right

theorem strike_of_not_mem (h : x ∉ level.map Snapshot.id) :
    strike x level = level := by
  apply List.filter_eq_self.mpr
  intro t ht
  have hne : t.id ≠ x := fun e => h (e ▸ List.mem_map_of_mem ht)
  simpa using hne

theorem strike_perm (hs : s ∈ level) (hnodup : (level.map Snapshot.id).Nodup) :
    level.Perm (s :: strike s.id level) := by
  induction level with
  | nil => simp at hs
  | cons t rest ih =>
      rw [List.map_cons, List.nodup_cons] at hnodup
      rcases List.mem_cons.mp hs with rfl | hs
      · rw [strike_cons_of_eq rfl, strike_of_not_mem hnodup.left]
      · have hne : t.id ≠ s.id := by
          intro e
          exact hnodup.left (e ▸ List.mem_map_of_mem hs)
        rw [strike_cons_of_ne hne]
        exact ((ih hs hnodup.right).cons t).trans (List.Perm.swap s t _)

end Snapshot

namespace Forest

open Snapshot (idsOfList changeSiblings insertBy strike)

namespace Links

variable {forest : Forest} {ss : List Snapshot} {slot : Option NodeId}
  {x : NodeId} {node : Node}

theorem insert_node (h : Links forest ss) (hslot : SlotOf ss slot)
    (changed : Forest) (s : Snapshot) (index : List NodeId → Nat)
    (hroots : changed.roots =
      (forest.modifySiblings slot fun siblings =>
        insertAt (index siblings) s.id siblings).roots)
    (hsame : forall y, y ∈ idsOfList ss → changed.arena[y]? =
      (forest.modifySiblings slot fun siblings =>
        insertAt (index siblings) s.id siblings).arena[y]?)
    (hheld : Holds changed.arena slot [s]) (hs : s.ids.Nodup)
    (hnew : forall y, y ∈ s.ids → y ∉ idsOfList ss) :
    Links changed (changeSiblings slot (insertBy index s) ss) ∧
      (idsOfList (changeSiblings slot (insertBy index s) ss)).Perm
        (s.ids ++ idsOfList ss) := by
  rcases h.exists_focus hslot with ⟨level, depth, before, after, hfocus⟩
  have hids := hfocus.ids
  have hperm : (idsOfList (changeSiblings slot (insertBy index s) ss)).Perm
      (s.ids ++ idsOfList ss) := by
    have hlevel : (idsOfList (insertBy index s level)).Perm
        (s.ids ++ idsOfList level) :=
      Snapshot.idsOfList_perm (Snapshot.insertBy_perm index s level)
    rw [hfocus.change_ids, hids, List.append_assoc, List.append_assoc]
    refine ((hlevel.append_right _).append_left _).trans ?_
    rw [List.append_assoc, ← List.append_assoc, ← List.append_assoc s.ids]
    exact List.perm_append_comm.append_right _
  have hnodup : (idsOfList (changeSiblings slot (insertBy index s) ss)).Nodup := by
    rw [hperm.nodup_iff, List.nodup_append]
    refine ⟨hs, h.nodup, ?_⟩
    intro a ha b hb e
    exact hnew a ha (e ▸ hb)
  refine ⟨?_, hperm⟩
  apply h.change_level hslot hfocus
    (fun siblings => insertAt (index siblings) s.id siblings) (insertBy index s)
    (Snapshot.map_id_insertBy index s level).symm hroots
    (fun y hy _ => hsame y hy) _ hnodup
  have hkept : Holds changed.arena slot level := by
    apply hfocus.held.frame
    intro y hy
    have hmem : y ∈ idsOfList ss := by
      rw [hids]
      simp [hy]
    rw [hsame y hmem, modifySiblings_find_of_ne]
    intro e
    exact hfocus.apart y e hy
  apply (hheld.append hkept).of_subset
  intro t ht
  exact (Snapshot.insertBy_perm index s level).subset ht

/-- Every nested node is in the list of siblings that its parent names. -/
theorem mem_siblings (h : Links forest ss) (hx : x ∈ idsOfList ss)
    (hfind : forest.arena[x]? = some node) :
    SlotOf ss node.parent ∧ x ∈ forest.siblings node.parent := by
  rcases h.held.exists_parent hx with ⟨entry, hentry, hplace⟩
  rw [hfind] at hentry
  cases hentry
  rcases hplace with ⟨hparent, hroot⟩ | ⟨p, above, hparent, hp, habove, hchild⟩
  · rw [hparent]
    constructor
    · exact slotOf_none ss
    · rw [siblings, h.roots]
      exact hroot
  · rw [hparent]
    constructor
    · exact slotOf_some hp
    · rw [siblings, find?, habove]
      exact hchild

theorem siblings_focus {level : List Snapshot} {depth : Nat} {before after : List Snapshot.Row}
    (h : Links forest ss)
    (hfocus : Focus forest.arena none 0 ss slot level depth before after) :
    forest.siblings slot = level.map Snapshot.id := by
  cases slot with
  | none =>
      rw [siblings, h.roots, hfocus.first rfl]
  | some p =>
      rcases hfocus.owner p rfl with ⟨owner, howner, hchildren⟩
      rw [siblings, find?, howner]
      exact hchildren

end Links

/-- The nested nodes `s` of an entry, and what is left when they are struck from
their list of siblings. -/
structure Struck (forest : Forest) (ss : List Snapshot) (node : Node)
    (s : Snapshot) : Prop where
  held : Holds forest.arena node.parent [s]
  apart : forall p, node.parent = some p → p ∉ s.ids
  links : Links (forest.detach s.id node.parent)
    (changeSiblings node.parent (strike s.id) ss)
  perm : (idsOfList ss).Perm
    (s.ids ++ idsOfList (changeSiblings node.parent (strike s.id) ss))
  kept : Holds (forest.detach s.id node.parent).arena node.parent [s]

theorem Links.exists_struck (h : Links forest ss) (hx : x ∈ idsOfList ss)
    (hfind : forest.arena[x]? = some node) :
    exists s, s.id = x ∧ Struck forest ss node s := by
  rcases h.mem_siblings hx hfind with ⟨hslot, hlisted⟩
  rcases h.exists_focus hslot with ⟨level, depth, before, after, hfocus⟩
  have hids := hfocus.ids
  rw [h.siblings_focus hfocus] at hlisted
  rcases List.mem_map.mp hlisted with ⟨s, hs, rfl⟩
  have hdistinct := h.nodup
  rw [hids, List.nodup_append, List.nodup_append] at hdistinct
  have hlevel : level.Perm (s :: strike s.id level) :=
    Snapshot.strike_perm hs
      (hdistinct.left.right.left.sublist
        (Snapshot.map_id_sublist_idsOfList level))
  have hperm : (idsOfList ss).Perm
      (s.ids ++ idsOfList (changeSiblings node.parent (strike s.id) ss)) := by
    rw [hfocus.change_ids, hids, List.append_assoc, List.append_assoc]
    refine (((Snapshot.idsOfList_perm hlevel).append_right _).append_left _).trans ?_
    rw [Snapshot.idsOfList_cons, List.append_assoc, ← List.append_assoc,
      ← List.append_assoc s.ids]
    exact List.perm_append_comm.append_right _
  have hkept : Holds (forest.detach s.id node.parent).arena node.parent level := by
    apply hfocus.held.frame
    intro y hy
    rw [detach, modifySiblings_find_of_ne]
    intro e
    exact hfocus.apart y e hy
  have hnodup := h.nodup
  rw [hperm.nodup_iff, List.nodup_append] at hnodup
  have hone : forall t, t ∈ [s] → t ∈ level := by
    intro t ht
    rw [List.mem_singleton] at ht
    exact ht ▸ hs
  have hapart : forall p, node.parent = some p → p ∉ s.ids := by
    intro p hp hmem
    exact hfocus.apart p hp (Snapshot.mem_idsOfList_iff.mpr ⟨s, hs, hmem⟩)
  refine ⟨s, rfl, hfocus.held.of_subset hone, hapart, ?_, hperm,
    hkept.of_subset hone⟩
  apply h.change_level hslot hfocus (List.filter (· ≠ s.id)) (strike s.id)
    (Snapshot.map_id_strike s.id level).symm rfl (fun _ _ _ => rfl) _
    hnodup.right.left
  exact hkept.of_subset fun t ht => (List.mem_filter.mp ht).left

theorem Struck.not_mem (h : Struck forest ss node s) (hlinks : Links forest ss)
    (hx : x ∈ s.ids) :
    x ∉ idsOfList (changeSiblings node.parent (strike s.id) ss) := by
  intro hmem
  have hnodup := hlinks.nodup
  rw [h.perm.nodup_iff, List.nodup_append] at hnodup
  exact hnodup.right.right x hx x hmem rfl

end Forest

end MarkupForest
