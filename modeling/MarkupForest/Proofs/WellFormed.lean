import Mathlib.Data.List.Nodup
import MarkupForest.Proofs.Reading
import MarkupForest.Proofs.Seamless

/-!
# Well-formed forests

The arena, the lists of siblings and the parent links say the same thing three
times over.  `Forest.WellFormed` is what has to hold between them, without any
mention of nested nodes; `Forest.Seamless` is what it is good for: no edit and
no traversal ever looks up a node or a list of siblings that is not there.
Both hold after every run of edits.
-/

namespace MarkupForest

namespace Forest

open Snapshot (idsOfList idsOfList_node_cons)

/-- The identifiers of an arena, each one once. -/
structure Enumerates (arena : Arena) (keys : List NodeId) : Prop where
  nodup : keys.Nodup
  mem_iff : forall id, id ∈ keys ↔ id ∈ arena

/-- The roots, followed by the lists of children of the given nodes. -/
def listings (forest : Forest) (keys : List NodeId) : List NodeId :=
  forest.roots ++ keys.flatMap fun id => forest.siblings (some id)

/-- The node that many steps above a node. -/
def ancestor? (forest : Forest) : Nat → NodeId → Option NodeId
  | 0, id => some id
  | steps + 1, id =>
      (forest.parent? id).bind fun above => forest.ancestor? steps above.id

/-- The arena, the lists of siblings and the parent links agree. -/
structure WellFormed (forest : Forest) : Prop where
  keyed : forall id node, forest.find? id = some node → node.id = id
  contains_listed : forall slot id, id ∈ forest.siblings slot →
    forest.contains id = true
  enumerable : exists keys, Enumerates forest.arena keys
  listed_once : forall keys, Enumerates forest.arena keys →
    forall id, forest.contains id = true →
      (forest.listings keys).count id = 1
  parent_iff : forall id node, forest.find? id = some node →
    forall p, node.parent = some p ↔
      exists above, forest.find? p = some above ∧ id ∈ above.children
  root_iff : forall id node, forest.find? id = some node →
    (node.parent = none ↔ id ∈ forest.roots)
  reaches_root : forall id, forest.contains id = true →
    exists steps root, forest.ancestor? steps id = some root ∧
      root ∈ forest.roots

/-- Edits and traversals find every list of siblings and every node that they
look up. -/
structure Seamless (forest : Forest) : Prop where
  edit : forall request,
    Careful.edit? forest request = some (forest.edit? request)
  rows : Careful.rows forest = some forest.rows
  snapshot : Careful.snapshot forest = some forest.snapshot
  snapshotOf : forall id, forest.contains id = true →
    exists s, Careful.snapshotOf? forest id = some s ∧
      forest.snapshotOf? id = some s
  descendantCount : forall id, forest.contains id = true →
    exists count, Careful.descendantCount? forest id = some count ∧
      forest.descendantCount? id = some count
  children : forall id, Careful.children forest id = some (forest.children id)

variable {forest : Forest} {arena : Arena} {ss : List Snapshot} {s : Snapshot}
  {slot parent : Option NodeId} {node : Node} {x p : NodeId}

/-!
# Lists of siblings
-/

theorem siblings_of_find (hfind : forest.find? p = some node) :
    forest.siblings (some p) = node.children := by
  show ((forest.find? p).map Node.children).getD [] = node.children
  rw [hfind]
  rfl

theorem Holds.listings_perm (h : Holds forest.arena parent ss) :
    (ss.map Snapshot.id ++
      (idsOfList ss).flatMap fun id => forest.siblings (some id)).Perm
        (idsOfList ss) := by
  induction h with
  | nil => exact List.Perm.refl _
  | @cons parent id type properties below rest hfind hbelow hrest ihbelow ihrest =>
      have hchildren : forest.siblings (some id) = below.map Snapshot.id :=
        siblings_of_find hfind
      rw [List.map_cons, Snapshot.id_node, idsOfList_node_cons,
        List.flatMap_cons, List.flatMap_append, hchildren, List.cons_append]
      apply List.Perm.cons
      calc
        rest.map Snapshot.id ++ (below.map Snapshot.id ++
            (((idsOfList below).flatMap fun id => forest.siblings (some id)) ++
              (idsOfList rest).flatMap fun id => forest.siblings (some id)))
          |>.Perm ((below.map Snapshot.id ++
              (idsOfList below).flatMap fun id => forest.siblings (some id)) ++
            (rest.map Snapshot.id ++
              (idsOfList rest).flatMap fun id => forest.siblings (some id))) := by
            rw [← List.append_assoc (below.map Snapshot.id)]
            rw [← List.append_assoc (rest.map Snapshot.id)]
            rw [← List.append_assoc _ (rest.map Snapshot.id)]
            exact List.perm_append_comm.append_right _
        _ |>.Perm (idsOfList below ++ idsOfList rest) := ihbelow.append ihrest

theorem Shows.enumerates (h : Shows forest ss) :
    Enumerates forest.arena (idsOfList ss) :=
  ⟨h.nodup, fun _ => h.mem_iff.symm⟩

theorem Shows.count_listings (h : Shows forest ss) {keys : List NodeId}
    (hkeys : Enumerates forest.arena keys) (hx : x ∈ forest.arena) :
    (forest.listings keys).count x = 1 := by
  have hperm : keys.Perm (idsOfList ss) := by
    rw [List.perm_ext_iff_of_nodup hkeys.nodup h.nodup]
    intro id
    rw [hkeys.mem_iff, h.mem_iff]
  have hlistings : (forest.listings keys).Perm (idsOfList ss) := by
    unfold listings
    rw [h.roots]
    exact ((hperm.flatMap_right _).append_left _).trans h.held.listings_perm
  rw [hlistings.count_eq]
  exact List.nodup_iff_count_eq_one.mp h.nodup x (h.mem_iff.mp hx)

theorem Shows.parent_of_listed (h : Shows forest ss)
    (hx : x ∈ forest.siblings slot) :
    exists node, forest.find? x = some node ∧ node.parent = slot := by
  cases slot with
  | none =>
      unfold siblings at hx
      rw [h.roots] at hx
      rcases List.mem_map.mp hx with ⟨s, hs, rfl⟩
      exact ⟨_, h.held.find hs, Snapshot.toNode_parent none s⟩
  | some p =>
      cases hfind : forest.find? p with
      | none => simp [siblings, hfind] at hx
      | some above =>
          rcases h.held.children_held (h.complete p (mem_of_entry hfind)) with
            ⟨owner, level, howner, hlist, hheld, _⟩
          rw [siblings_of_find howner, hlist] at hx
          rcases List.mem_map.mp hx with ⟨s, hs, rfl⟩
          exact ⟨_, hheld.find hs, Snapshot.toNode_parent (some p) s⟩

/-!
# The way up
-/

theorem ancestor?_succ {above : Node} (hfind : forest.find? x = some node)
    (hparent : node.parent = some p) (habove : forest.find? p = some above)
    (hid : above.id = p) (steps : Nat) :
    forest.ancestor? (steps + 1) x = forest.ancestor? steps p := by
  show (forest.parent? x).bind _ = _
  unfold parent?
  rw [hfind, Option.bind_some, hparent, Option.bind_some, habove,
    Option.bind_some, hid]

/-- If the way up from the enclosing node leads to a root, or the first level
consists of roots, then the way up from every nested node leads to a root. -/
theorem Holds.reaches_root (h : Holds forest.arena parent ss)
    (habove : forall p, parent = some p →
      exists above steps root, forest.find? p = some above ∧ above.id = p ∧
        forest.ancestor? steps p = some root ∧ root ∈ forest.roots)
    (hroots : parent = none → forall s, s ∈ ss → s.id ∈ forest.roots)
    (hx : x ∈ idsOfList ss) :
    exists steps root, forest.ancestor? steps x = some root ∧
      root ∈ forest.roots := by
  induction h with
  | nil => simp at hx
  | @cons parent id type properties below rest hfind hbelow hrest ihbelow ihrest =>
      have hself : exists steps root,
          forest.ancestor? steps id = some root ∧ root ∈ forest.roots := by
        cases parent with
        | none => exact ⟨0, id, rfl, hroots rfl _ List.mem_cons_self⟩
        | some p =>
            rcases habove p rfl with ⟨above, steps, root, hp, hid, hup, hroot⟩
            refine ⟨steps + 1, root, ?_, hroot⟩
            rw [ancestor?_succ hfind rfl hp hid]
            exact hup
      rw [idsOfList_node_cons, List.mem_cons, List.mem_append] at hx
      rcases hx with rfl | hx | hx
      · exact hself
      · apply ihbelow _ _ hx
        · intro p hp
          cases hp
          rcases hself with ⟨steps, root, hup, hroot⟩
          exact ⟨_, steps, root, hfind, rfl, hup, hroot⟩
        · intro hnone
          cases hnone
      · exact ihrest habove
          (fun hnone s hs => hroots hnone s (List.mem_cons_of_mem _ hs)) hx

/-!
# Every run
-/

theorem Shows.wellFormed (h : Shows forest ss) : WellFormed forest := by
  constructor
  · intro id node hfind
    exact h.keyed hfind
  · intro slot id hid
    rcases h.parent_of_listed hid with ⟨node, hfind, _⟩
    exact contains_iff.mpr (mem_of_entry hfind)
  · exact ⟨_, h.enumerates⟩
  · intro keys hkeys id hid
    exact h.count_listings hkeys (contains_iff.mp hid)
  · intro id node hfind p
    constructor
    · intro hparent
      have hlisted :=
        (h.toLinks.mem_siblings (h.complete id (mem_of_entry hfind)) hfind).right
      rw [hparent] at hlisted
      cases habove : forest.find? p with
      | none => simp [siblings, habove] at hlisted
      | some above =>
          rw [siblings_of_find habove] at hlisted
          exact ⟨above, rfl, hlisted⟩
    · rintro ⟨above, habove, hchild⟩
      have hlisted : id ∈ forest.siblings (some p) := by
        rw [siblings_of_find habove]
        exact hchild
      rcases h.parent_of_listed hlisted with ⟨entry, hentry, hparent⟩
      rw [hfind] at hentry
      cases hentry
      exact hparent
  · intro id node hfind
    constructor
    · intro hparent
      have hlisted :=
        (h.toLinks.mem_siblings (h.complete id (mem_of_entry hfind)) hfind).right
      rw [hparent] at hlisted
      exact hlisted
    · intro hroot
      have hlisted : id ∈ forest.siblings none := hroot
      rcases h.parent_of_listed hlisted with ⟨entry, hentry, hparent⟩
      rw [hfind] at hentry
      cases hentry
      exact hparent
  · intro id hid
    apply h.held.reaches_root _ _ (h.mem_iff.mp (contains_iff.mp hid))
    · intro p hp
      cases hp
    · intro _ s hs
      rw [h.roots]
      exact List.mem_map_of_mem hs

theorem Shows.seamless (h : Shows forest ss) : Seamless forest := by
  constructor
  · exact h.careful_edit?
  · rw [h.careful_rows, h.rows]
  · rw [h.careful_snapshot, h.snapshot]
  · intro id hid
    rcases h.exists_subtree (contains_iff.mp hid) with ⟨slot, s, rfl, hs⟩
    exact ⟨s, hs.careful_snapshotOf?, hs.snapshotOf?⟩
  · intro id hid
    rcases h.exists_subtree (contains_iff.mp hid) with ⟨slot, s, rfl, hs⟩
    exact ⟨_, hs.careful_descendantCount?, hs.descendantCount?⟩
  · intro id
    by_cases hid : id ∈ forest.arena
    · rcases h.exists_subtree hid with ⟨slot, s, rfl, hs⟩
      rw [hs.careful_children, hs.children]
    · have hnone : forest.find? id = none :=
        Std.ExtHashMap.getElem?_eq_none hid
      unfold Careful.children Forest.children
      rw [hnone]

/-- After every run of edits, those refused included, the forest is well-formed
and nothing that an edit or a traversal looks up is missing. -/
theorem ofEdits_wellFormed (registry : Registry) (options : Options)
    (requests : List Edit) :
    WellFormed (ofEdits registry options requests) ∧
      Seamless (ofEdits registry options requests) := by
  rcases exists_shows_ofEdits registry options requests with ⟨ss, h⟩
  exact ⟨h.wellFormed, h.seamless⟩

end Forest

end MarkupForest
