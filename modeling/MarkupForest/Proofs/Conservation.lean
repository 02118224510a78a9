import MarkupForest.Proofs.HiddenNodes
import Mathlib.Algebra.GroupWithZero.Nat

/-!
# Shown and dropped nodes

A rendering opens every node, except for those below a node that closes itself.
`Renderer.Conserves` says that it logs a warning for each node whose children it
drops, and that the nodes it does not open are those below such a node.
-/

namespace MarkupForest

namespace Render

/-- A node that closes itself although it has children. -/
def dropsChildren (types : Registry) (node : Node) : Bool :=
  types.isSelfClosing node.type && node.hasChildren

/-- Whether the profile has no rule for a node, or its descriptor nothing for the
profile. -/
def isGeneric (types : Registry) (profile : Profile) (node : Node) : Bool :=
  (profile.emitters node.type).isNone ||
    ((types.find? node.type).bind (·.strategy? profile.id)).isNone

end Render

open Render Forest in
/-- What a rendering with these notices opens, logs and leaves out. -/
structure Renderer.Conserves (r : Renderer) (profile : Profile) (forest : Forest)
    (notices : List Notice) : Prop where
  opened : r.opened profile forest = (shown r.types forest).map Node.id
  once : (r.opened profile forest).Nodup
  warnings : notices.filter (fun notice => notice.severity = .warn) =
    ((shown r.types forest).filter (dropsChildren r.types)).map fun node =>
      .childrenDropped node.id node.type node.children.length
  records : notices.filter (fun notice => notice.severity = .debug) =
    ((shown r.types forest).filter (isGeneric r.types profile)).map fun node =>
      .renderedGenerically profile.id node.type
  /-- What is not opened lies below the nodes of the warnings. -/
  size : exists counts : List Nat,
    ((shown r.types forest).filter (dropsChildren r.types)).map
      (fun node => forest.descendantCount? node.id) = counts.map some ∧
    forest.size = (r.opened profile forest).length + counts.sum
  complete : (forall notice, notice ∈ notices → notice.severity ≠ .warn) →
    r.opened profile forest = forest.rows.map fun row => row.2.id

namespace Forest

open Snapshot (idsOfList idsOfList_node_cons)

open Render

variable {types : Registry} {forest : Forest} {ss : List Snapshot}
  {profile : Profile} {parent : Option NodeId} {node : Node} {x : NodeId}
  {descriptor : Descriptor}

/-!
# What is dropped
-/

theorem dropsChildren_of_void {type : NodeType} {properties : Properties}
    {below : List Snapshot} (htype : types.find? type = some descriptor)
    (hshape : descriptor.shape = .selfClosing) :
    dropsChildren types
        ((Snapshot.node x type properties below).toNode parent) =
      !below.isEmpty := by
  show (types.isSelfClosing type && !(below.map Snapshot.id).isEmpty) = _
  rw [isSelfClosing_of_eq htype hshape, Bool.true_and, List.isEmpty_map]

theorem dropsChildren_of_enclosing {type : NodeType} {properties : Properties}
    {below : List Snapshot} (htype : types.find? type = some descriptor)
    (hshape : descriptor.shape ≠ .selfClosing) :
    dropsChildren types
        ((Snapshot.node x type properties below).toNode parent) = false := by
  show (types.isSelfClosing type && _) = false
  rw [isSelfClosing_of_ne htype hshape, Bool.false_and]

theorem Holds.conserved (h : Holds forest.arena parent ss)
    (hok : Renderable types ss) (hlen : (idsOfList ss).length ≤ forest.size) :
    exists counts : List Nat,
      ((Pretty.visitedOfList types parent ss).filter (dropsChildren types)).map
        (fun node => forest.descendantCount? node.id) = counts.map some ∧
      (idsOfList ss).length =
        (Pretty.visitedOfList types parent ss).length + counts.sum := by
  induction h with
  | nil => exact ⟨[], rfl, rfl⟩
  | @cons parent id type properties below rest hfind hbelow hrest ihbelow ihrest =>
      rw [idsOfList_node_cons, List.length_cons, List.length_append] at hlen ⊢
      rw [visitedOfList_cons, List.filter_append, List.map_append,
        List.length_append]
      cases hok with
      | void htype hshape hothers =>
          rcases ihrest hothers (by omega) with ⟨counts, hcounts, hsize⟩
          rw [visited_of_void htype hshape, hcounts, hsize]
          cases below with
          | nil =>
              refine ⟨counts, ?_, ?_⟩
              · rw [List.filter_cons_of_neg]
                · rfl
                · simp [dropsChildren_of_void htype hshape]
              · rw [List.length_singleton, Snapshot.idsOfList_nil, List.length_nil]
                omega
          | cons child others =>
              have hsub : Subtree forest parent
                  (.node id type properties (child :: others)) :=
                ⟨.cons hfind hbelow .nil, by
                  show (idsOfList (child :: others)).length + 1 ≤ _
                  omega⟩
              refine ⟨(idsOfList (child :: others)).length :: counts, ?_, ?_⟩
              · rw [List.filter_cons_of_pos]
                · simp only [List.filter_nil, List.map_cons, List.map_nil,
                    Snapshot.toNode_id, hsub.descendantCount?,
                    Snapshot.children_node, List.singleton_append]
                · simp [dropsChildren_of_void htype hshape]
              · rw [List.length_singleton, List.sum_cons]
                omega
      | enclosing htype hshape hinner hothers =>
          rcases ihbelow hinner (by omega) with ⟨inner, hinnerCounts, hinnerSize⟩
          rcases ihrest hothers (by omega) with ⟨counts, hcounts, hsize⟩
          rw [visited_of_enclosing htype hshape, List.filter_cons_of_neg,
            hinnerCounts, hcounts, hinnerSize, hsize]
          · refine ⟨inner ++ counts, ?_, ?_⟩
            · rw [List.map_append]
            · rw [List.length_cons, List.sum_append]
              omega
          · rw [dropsChildren_of_enclosing htype hshape]
            exact Bool.false_ne_true

/-!
# What is logged
-/

theorem element_snd (htype : types.find? node.type = some descriptor) :
    (profile.element descriptor node).2 = isGeneric types profile node := by
  unfold Profile.element isGeneric
  rw [htype, Option.bind_some]
  cases profile.emitters node.type with
  | none => rfl
  | some emit =>
      cases descriptor.strategy? profile.id with
      | none => rfl
      | some strategy => rfl

theorem droppedNotices_eq (htype : types.find? node.type = some descriptor) :
    droppedNotices descriptor.shape node =
      if dropsChildren types node then
        [.childrenDropped node.id node.type node.children.length]
      else [] := by
  unfold dropsChildren
  by_cases hshape : descriptor.shape = .selfClosing
  · rw [isSelfClosing_of_eq htype hshape, hshape, Bool.true_and]
    rfl
  · rw [isSelfClosing_of_ne htype hshape, Bool.false_and]
    unfold droppedNotices
    split
    · contradiction
    · rfl

theorem noticesOf_eq (htype : types.find? node.type = some descriptor) :
    noticesOf types profile node =
      (if isGeneric types profile node then
        [.renderedGenerically profile.id node.type]
      else []) ++
      if dropsChildren types node then
        [.childrenDropped node.id node.type node.children.length]
      else [] := by
  rw [← element_snd htype, ← droppedNotices_eq htype]
  unfold noticesOf
  rw [htype]
  rfl

theorem warnings_of_node (htype : types.find? node.type = some descriptor) :
    (noticesOf types profile node).filter (fun n => n.severity = .warn) =
      if dropsChildren types node then
        [.childrenDropped node.id node.type node.children.length]
      else [] := by
  rw [noticesOf_eq htype]
  cases isGeneric types profile node with
  | false => cases dropsChildren types node <;> rfl
  | true => cases dropsChildren types node <;> rfl

theorem records_of_node (htype : types.find? node.type = some descriptor) :
    (noticesOf types profile node).filter (fun n => n.severity = .debug) =
      if isGeneric types profile node then
        [.renderedGenerically profile.id node.type]
      else [] := by
  rw [noticesOf_eq htype]
  cases isGeneric types profile node with
  | false => cases dropsChildren types node <;> rfl
  | true => cases dropsChildren types node <;> rfl

/-- Where every item adds at most one entry of a kind, the entries of that kind
are those of the items that add one. -/
theorem filter_flatMap_eq {α β : Type} {entries : α → List β} {kind : β → Bool}
    {adds : α → Bool} {entry : α → β} {items : List α}
    (h : forall a, a ∈ items →
      (entries a).filter kind = if adds a then [entry a] else []) :
    (items.flatMap entries).filter kind = (items.filter adds).map entry := by
  induction items with
  | nil => rfl
  | cons a rest ih =>
      rw [List.flatMap_cons, List.filter_append, h a List.mem_cons_self,
        ih fun b hb => h b (List.mem_cons_of_mem a hb)]
      cases hadds : adds a with
      | true =>
          rw [List.filter_cons_of_pos hadds]
          rfl
      | false =>
          rw [List.filter_cons_of_neg (by simp [hadds])]
          rfl

/-!
# Rendering a forest
-/

theorem Shows.notices_eq (h : Shows forest ss) (r : Renderer) (profile : Profile)
    (hok : Renderable r.types ss) :
    (r.draft profile forest forest.roots).notices =
      (shown r.types forest).flatMap (noticesOf r.types profile) := by
  have hopened := opened_of_roots h r profile hok
  rw [← h.shown_eq hok] at hopened
  have hfound : ((shown r.types forest).map Node.id).filterMap
      (forest.arena[·]?) = shown r.types forest := by
    rw [List.filterMap_map]
    calc
      (shown r.types forest).filterMap ((forest.arena[·]?) ∘ Node.id) =
          (shown r.types forest).filterMap some :=
        List.filterMap_congr fun node hnode => h.find?_of_mem_shown hnode
      _ = shown r.types forest := List.filterMap_some
  unfold Renderer.draft
  rw [← tracedWalk_fst, notices_of_trace]
  show ((r.opened profile forest).filterMap _).flatMap _ = _
  rw [hopened, hfound]

theorem Shows.shown_eq_rows (h : Shows forest ss)
    (hsize : (shown types forest).length = forest.size) :
    shown types forest = forest.rows.map Prod.snd := by
  refine List.Sublist.eq_of_length List.filter_sublist ?_
  show (shown types forest).length = _
  rw [hsize, h.size, List.length_map, h.rows,
    ← Snapshot.map_id_nodesOfListAt ss 0 none, List.length_map]

theorem Shows.filter_notices (h : Shows forest ss) (r : Renderer)
    (profile : Profile) (hok : Renderable r.types ss) {kind : Notice → Bool}
    {adds : Node → Bool} {entry : Node → Notice}
    (hnode : forall {node descriptor},
      r.types.find? node.type = some descriptor →
        (noticesOf r.types profile node).filter kind =
          if adds node then [entry node] else []) :
    (r.draft profile forest forest.roots).notices.filter kind =
      ((shown r.types forest).filter adds).map entry := by
  rw [h.notices_eq r profile hok]
  apply filter_flatMap_eq
  intro node hmem
  have htype := h.renderable_iff.mp hok node hmem
  rcases Option.isSome_iff_exists.mp htype with ⟨descriptor, hdescriptor⟩
  exact hnode hdescriptor

theorem Shows.conserves (h : Shows forest ss) (r : Renderer) (profile : Profile)
    (hok : Renderable r.types ss) :
    r.Conserves profile forest
      (r.draft profile forest forest.roots).notices := by
  have hopened : r.opened profile forest =
      (shown r.types forest).map Node.id := by
    rw [opened_of_roots h r profile hok, h.shown_eq hok]
  have hwarnings := h.filter_notices r profile hok warnings_of_node
  have hcounts := h.held.conserved hok h.length_le
  rw [← h.shown_eq hok, ← h.size] at hcounts
  rcases hcounts with ⟨counts, hcounts, hsize⟩
  refine ⟨hopened, ?_, hwarnings,
    h.filter_notices r profile hok records_of_node, ⟨counts, hcounts, ?_⟩, ?_⟩
  · rw [hopened]
    exact h.shown_nodup
  · rw [hopened, List.length_map]
    exact hsize
  · intro hquiet
    have hnone : (shown r.types forest).filter (dropsChildren r.types) = [] := by
      rw [← List.map_eq_nil_iff, ← hwarnings, List.filter_eq_nil_iff]
      intro notice hnotice
      simpa using hquiet notice hnotice
    have hempty : counts = [] := by
      rw [hnone] at hcounts
      exact List.map_eq_nil_iff.mp hcounts.symm
    rw [hempty, List.sum_nil, Nat.add_zero] at hsize
    rw [hopened, h.shown_eq_rows hsize.symm, List.map_map]
    rfl

/-- A rendering of any forest that edits can make, with any node types and any
profile, succeeds if the nodes that are not hidden are of known types.  It opens
exactly these nodes, each once, and loses no other node without a warning. -/
theorem ofEdits_conserves (registry : Registry) (options : Options)
    (requests : List Edit) (r : Renderer) (profileId : String) (profile : Profile)
    (hprofile : r.profiles.get profileId = .ok profile) :
    let forest := ofEdits registry options requests
    let report := r.render forest profileId
    ((exists text, report.answer = .ok text) ↔
      forall node, node ∈ shown r.types forest →
        r.types.contains node.type = true) ∧
    forall text, report.answer = .ok text →
      r.Conserves profile forest report.notices := by
  intro forest report
  rcases exists_shows_ofEdits registry options requests with ⟨ss, h⟩
  have hreport : report =
      (r.draft profile forest forest.roots).report profile := by
    show r.render forest profileId = _
    unfold Renderer.render
    rw [hprofile]
  have hok := h.report_ok_iff r profile
  rw [hreport]
  refine ⟨hok.trans h.renderable_iff, ?_⟩
  intro text htext
  exact h.conserves r profile (hok.mp ⟨text, htext⟩)

theorem conserves_of_image :
    let forest := ofEdits .standard ⟨false⟩
      [.insert .image none, .insert .text (some (NodeId.generate .image 1))]
    let report := Renderer.render ⟨.standard, .standard⟩ forest ProfileId.semantic
    exists text, report.answer = .ok text ∧
      Renderer.Conserves ⟨.standard, .standard⟩ Semantic.profile forest
        report.notices := by
  intro forest report
  rcases ofEdits_conserves .standard ⟨false⟩
    [.insert .image none, .insert .text (some (NodeId.generate .image 1))]
    ⟨.standard, .standard⟩ ProfileId.semantic Semantic.profile rfl with
    ⟨hok, hconserves⟩
  rcases hok.mpr fun node _ => Registry.contains_standard node.type with ⟨text, htext⟩
  exact ⟨text, htext, hconserves text htext⟩

end Forest

end MarkupForest
