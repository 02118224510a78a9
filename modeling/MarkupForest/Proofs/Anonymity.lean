import MarkupForest.Proofs.Lookalikes
import MarkupForest.Proofs.Printing

/-!
# Identifiers leave no trace

What is rendered depends on the nested nodes without their identifiers: two
forests, or two nodes of any forests, whose snapshots become equal when all
identifiers are erased have the same markup or the same error.
-/

namespace MarkupForest

namespace Snapshot

/-!
# Snapshots without identifiers
-/

mutual

/-- The snapshot with the same identifier everywhere. -/
def eraseIds : Snapshot → Snapshot
  | node _ type properties children =>
      node default type properties (eraseIdsOfList children)

def eraseIdsOfList : List Snapshot → List Snapshot
  | [] => []
  | s :: rest => eraseIds s :: eraseIdsOfList rest

end

/-- Nested nodes of the same types in the same order, whose properties have, by
key, the same values up to the sign of zero. -/
inductive Alike : List Snapshot → List Snapshot → Prop where
  | nil : Alike [] []
  | cons {id other : NodeId} {type : NodeType} {properties changed : Properties}
      {below rest below' rest' : List Snapshot} :
      (forall key,
        (properties.find? key).map PropertyValue.dropZeroSign =
          (changed.find? key).map PropertyValue.dropZeroSign) →
      Alike below below' →
      Alike rest rest' →
      Alike (node id type properties below :: rest)
        (node other type changed below' :: rest')

theorem alike_of_equalLists (ss : List Snapshot) :
    forall ts, equalLists (eraseIdsOfList ss) (eraseIdsOfList ts) = true →
      Alike ss ts := by
  induction ss using nested_induction with
  | nil =>
      intro ts h
      cases ts with
      | nil => exact Alike.nil
      | cons t rest => cases h
  | cons id type properties below rest ihbelow ihrest =>
      intro ts h
      cases ts with
      | nil => cases h
      | cons t others =>
          rcases t with ⟨other, type', changed, below'⟩
          change ((decide (_ = _) && decide (type = type') &&
            Properties.equal properties changed &&
            equalLists (eraseIdsOfList below) (eraseIdsOfList below')) &&
            equalLists (eraseIdsOfList rest) (eraseIdsOfList others)) = true at h
          rw [Bool.and_eq_true, Bool.and_eq_true, Bool.and_eq_true,
            Bool.and_eq_true, decide_eq_true_eq, decide_eq_true_eq] at h
          rcases h with ⟨⟨⟨⟨_, rfl⟩, hproperties⟩, hbelow⟩, hrest⟩
          exact Alike.cons (Properties.find?_of_equal hproperties)
            (ihbelow below' hbelow) (ihrest others hrest)

theorem alike_renumberList (ss : List Snapshot) :
    forall count, Alike ss (renumberList count ss) := by
  induction ss using nested_induction with
  | nil => exact fun _ => Alike.nil
  | cons id type properties below rest ihbelow ihrest =>
      intro count
      rw [renumberList_node_cons]
      exact Alike.cons (fun _ => rfl) (ihbelow _) (ihrest _)

theorem alike_toNode (id other : NodeId) (type : NodeType)
    {properties changed : Properties} {below below' : List Snapshot}
    (hproperties : forall key,
      (properties.find? key).map PropertyValue.dropZeroSign =
        (changed.find? key).map PropertyValue.dropZeroSign)
    (hbelow : Alike below below') (parent slot : Option NodeId) :
    ((node id type properties below).toNode parent).Alike
      ((node other type changed below').toNode slot) := by
  refine ⟨rfl, hproperties, ?_⟩
  cases hbelow with
  | nil => rfl
  | cons _ _ _ => rfl

end Snapshot

namespace Render

/-!
# Drafts that are written alike
-/

/-- Drafts with the same error, imports and written lines. -/
structure Draft.Agrees (dialect : Dialect) (first second : Draft) : Prop where
  error? : first.error? = second.error?
  imports : first.imports = second.imports
  lines :
    first.lines.map (·.write dialect) = second.lines.map (·.write dialect)

theorem Draft.Agrees.refl (dialect : Dialect) (draft : Draft) :
    Draft.Agrees dialect draft draft :=
  ⟨rfl, rfl, rfl⟩

theorem Draft.Agrees.append {dialect : Dialect}
    {first second others rest : Draft} (h : Draft.Agrees dialect first second)
    (hrest : Draft.Agrees dialect others rest) :
    Draft.Agrees dialect (first.append others) (second.append rest) := by
  rcases first with ⟨lines, imports, notices, error?⟩
  rcases second with ⟨lines', imports', notices', error?'⟩
  rcases h with ⟨herror, himports, hlines⟩
  cases herror
  cases error? with
  | some e => exact ⟨rfl, himports, hlines⟩
  | none =>
      refine ⟨hrest.error?, ?_, ?_⟩
      · show imports ++ others.imports = imports' ++ rest.imports
        rw [hrest.imports]
        exact congrArg (· ++ rest.imports) himports
      · show (lines ++ others.lines).map _ = (lines' ++ rest.lines).map _
        rw [List.map_append, List.map_append, hrest.lines]
        exact congrArg (· ++ _) hlines

theorem Draft.Agrees.answer {profile : Profile} {first second : Draft}
    (h : Draft.Agrees profile.dialect first second) :
    (first.report profile).answer = (second.report profile).answer := by
  unfold Draft.report Draft.text bodyText
  rw [h.error?, h.imports, h.lines]

/-- Visits that write the same and leave the same line for later. -/
structure Visit.Agrees (dialect : Dialect) (v w : Visit) : Prop where
  opening :
    v.layout.opening.map (·.write dialect) =
      w.layout.opening.map (·.write dialect)
  closing : v.layout.closing = w.layout.closing
  imported : v.imported = w.imported

theorem Visit.Agrees.draft {dialect : Dialect} {v w : Visit}
    {children others : Draft} (h : Visit.Agrees dialect v w)
    (hchildren : Draft.Agrees dialect children others) :
    Draft.Agrees dialect (v.draft children) (w.draft others) := by
  have hfinish : Draft.Agrees dialect (v.finish children) (w.finish others) := by
    unfold Visit.finish
    rw [h.closing]
    cases w.layout.closing with
    | none => exact Draft.Agrees.refl dialect Draft.empty
    | some line => exact hchildren.append (Draft.Agrees.refl dialect _)
  refine ⟨hfinish.error?, ?_, ?_⟩
  · show v.imported.toList ++ (v.finish children).imports =
      w.imported.toList ++ (w.finish others).imports
    rw [h.imported, hfinish.imports]
  · show (v.layout.opening ++ (v.finish children).lines).map _ =
      (w.layout.opening ++ (w.finish others).lines).map _
    rw [List.map_append, List.map_append, h.opening, hfinish.lines]

/-!
# Visits of nodes that look alike
-/

section

variable {m n : Node} {e f : Element}

theorem content_of_alike (h : m.Alike n) (shape : ContentShape)
    (isGeneric : Bool) (depth : Nat) :
    Layout.content shape isGeneric m depth =
      Layout.content shape isGeneric n depth := by
  unfold Layout.content
  rw [h.text?]
  cases shape with
  | wrapper => rfl
  | items property tag => simp only [h.itemsOf]
  | table property => simp only [h.tableOf]
  | selfClosing => rfl

theorem collapsed_of_alike (h : m.Alike n) (shape : ContentShape)
    (inner : List Line) :
    Layout.collapsed? shape m inner = Layout.collapsed? shape n inner := by
  unfold Layout.collapsed?
  rw [h.hasChildren, h.text?]

theorem ofElement_of_alike (dialect : Dialect) (he : e.Alike f) (h : m.Alike n)
    (shape : ContentShape) (isGeneric : Bool) (depth : Nat) :
    (Layout.ofElement e shape isGeneric m depth).opening.map
          (·.write dialect) =
        (Layout.ofElement f shape isGeneric n depth).opening.map
          (·.write dialect) ∧
      (Layout.ofElement e shape isGeneric m depth).closing =
        (Layout.ofElement f shape isGeneric n depth).closing := by
  have htags := he.writeAll dialect
  by_cases hshape : shape = .selfClosing
  · cases hshape
    refine ⟨?_, rfl⟩
    simp [Layout.ofElement, Line.write, Fragment.write, he.tag, htags]
  · rw [ofElement_of_ne e hshape, ofElement_of_ne f hshape,
      content_of_alike h, collapsed_of_alike h, he.tag]
    cases Layout.collapsed? shape n
        (Layout.content shape isGeneric n (depth + 1)) with
    | some fragments =>
        refine ⟨?_, rfl⟩
        simp [Line.write, Fragment.write, htags]
    | none =>
        refine ⟨?_, rfl⟩
        simp [Line.write, Fragment.write, htags]

theorem visitNode_of_alike {profile : Profile} (hp : profile.Steady)
    (h : m.Alike n) (descriptor : Descriptor) (depth : Nat) :
    Visit.Agrees profile.dialect (visitNode profile descriptor m depth)
      (visitNode profile descriptor n depth) := by
  rcases hp.element h descriptor with ⟨helement, hgeneric⟩
  have hlayout := ofElement_of_alike profile.dialect helement h descriptor.shape
    (profile.element descriptor m).2 depth
  have hsecond : (visitNode profile descriptor n depth).layout =
      Layout.ofElement (profile.element descriptor n).1 descriptor.shape
        (profile.element descriptor m).2 n depth := by
    rw [hgeneric]
    rfl
  constructor
  · rw [hsecond]
    exact hlayout.left
  · rw [hsecond]
    exact hlayout.right
  · exact helement.imported

end

/-!
# Answers
-/

theorem draftOfList_of_alike {profile : Profile} (hp : profile.Steady)
    (types : Registry) {ss ts : List Snapshot} (h : Snapshot.Alike ss ts) :
    forall depth parent slot,
      Draft.Agrees profile.dialect (draftOfList types profile depth parent ss)
        (draftOfList types profile depth slot ts) := by
  induction h with
  | nil => exact fun _ _ _ => Draft.Agrees.refl _ _
  | @cons id other type properties changed below rest below' rest' hproperties
      hbelow hrest ihbelow ihrest =>
      intro depth parent slot
      rw [draftOfList_cons, draftOfList_cons]
      apply Draft.Agrees.append _ (ihrest depth parent slot)
      cases htype : types.find? type with
      | none =>
          rw [draftOf_of_unknown htype, draftOf_of_unknown htype]
          exact Draft.Agrees.refl _ _
      | some descriptor =>
          rw [draftOf_of_known htype, draftOf_of_known htype]
          have hnode := Snapshot.alike_toNode id other type hproperties hbelow
            parent slot
          exact (visitNode_of_alike hp hnode descriptor depth).draft
            (ihbelow (depth + 1) (some id) (some other))

/-- What rendering nested nodes answers. -/
def answerOf (r : Renderer) (profileId : String) (slot : Option NodeId)
    (ss : List Snapshot) : Except RenderError String :=
  match r.profiles.get profileId with
  | .error e => .error e
  | .ok profile => ((draftOfList r.types profile 0 slot ss).report profile).answer

theorem answerOf_of_alike (types : Registry) (profileId : String)
    {ss ts : List Snapshot} (h : Snapshot.Alike ss ts)
    (parent slot : Option NodeId) :
    answerOf ⟨types, .standard⟩ profileId parent ss =
      answerOf ⟨types, .standard⟩ profileId slot ts := by
  unfold answerOf
  cases hget : ProfileRegistry.standard.get profileId with
  | error e => rfl
  | ok profile =>
      have hp := steady_of_standard hget
      exact (draftOfList_of_alike hp types h 0 parent slot).answer

theorem render_of_shows {forest : Forest} {ss : List Snapshot}
    (h : Forest.Shows forest ss) (r : Renderer) (profileId : String) :
    (r.render forest profileId).answer = answerOf r profileId none ss := by
  unfold Renderer.render answerOf
  cases r.profiles.get profileId with
  | error e => rfl
  | ok profile =>
      simp only [draft_of_roots h]

theorem renderSubtree_of_subtree {forest : Forest} {slot : Option NodeId}
    {s : Snapshot} (h : Forest.Subtree forest slot s) (r : Renderer)
    (profileId : String) :
    (r.renderSubtree forest s.id profileId).answer =
      answerOf r profileId slot [s] := by
  have hcontains : forest.contains s.id = true :=
    Forest.contains_iff.mpr (Forest.mem_of_entry h.find)
  unfold Renderer.renderSubtree answerOf
  cases r.profiles.get profileId with
  | error e => rfl
  | ok profile =>
      simp only [if_pos hcontains, draft_of_subtree h, draftOfList_singleton]

section

variable {forest forest' changed : Forest} {ss ts : List Snapshot}
  {s s' : Snapshot} {id id' copy : NodeId}

theorem render_of_erased (types : Registry) (profileId : String)
    (h : Forest.Shows forest ss) (h' : Forest.Shows forest' ts)
    (hequal : Snapshot.equalLists (Snapshot.eraseIdsOfList forest.snapshot)
      (Snapshot.eraseIdsOfList forest'.snapshot) = true) :
    (Renderer.render ⟨types, .standard⟩ forest profileId).answer =
      (Renderer.render ⟨types, .standard⟩ forest' profileId).answer := by
  rw [h.snapshot, h'.snapshot] at hequal
  rw [render_of_shows h, render_of_shows h']
  exact answerOf_of_alike types profileId
    (Snapshot.alike_of_equalLists ss ts hequal) none none

theorem renderSubtree_of_erased (types : Registry) (profileId : String)
    (h : Forest.Shows forest ss) (h' : Forest.Shows forest' ts)
    (hs : forest.snapshotOf? id = some s)
    (hs' : forest'.snapshotOf? id' = some s')
    (hequal : s.eraseIds.equal s'.eraseIds = true) :
    (Renderer.renderSubtree ⟨types, .standard⟩ forest id profileId).answer =
      (Renderer.renderSubtree ⟨types, .standard⟩ forest' id'
        profileId).answer := by
  rcases h.subtree_of_snapshotOf? hs with ⟨rfl, slot, hsub⟩
  rcases h'.subtree_of_snapshotOf? hs' with ⟨rfl, slot', hsub'⟩
  have hlists : Snapshot.equalLists (Snapshot.eraseIdsOfList [s])
      (Snapshot.eraseIdsOfList [s']) = true := by
    show (s.eraseIds.equal s'.eraseIds && true) = true
    rw [hequal]
    rfl
  rw [renderSubtree_of_subtree hsub, renderSubtree_of_subtree hsub']
  exact answerOf_of_alike types profileId
    (Snapshot.alike_of_equalLists [s] [s'] hlists) slot slot'

theorem renderSubtree_of_duplicate (types : Registry) (profileId : String)
    (h : Forest.Shows forest ss)
    (hduplicate : forest.duplicate id = .ok (copy, changed)) :
    (Renderer.renderSubtree ⟨types, .standard⟩ changed copy profileId).answer =
        (Renderer.renderSubtree ⟨types, .standard⟩ changed id
          profileId).answer ∧
      (Renderer.renderSubtree ⟨types, .standard⟩ changed id profileId).answer =
        (Renderer.renderSubtree ⟨types, .standard⟩ forest id
          profileId).answer := by
  rcases h.duplicated hduplicate with
    ⟨slot, s, rfl, rfl, hbefore, hsource, hcopy⟩
  rw [renderSubtree_of_subtree hbefore, renderSubtree_of_subtree hsource,
    renderSubtree_of_subtree hcopy]
  constructor
  · exact (answerOf_of_alike types profileId
      (Snapshot.alike_renumberList [s] forest.nextCount) slot slot).symm
  · rfl

end

/-- Rendering under a standard profile depends on nothing but the snapshots with
all identifiers erased, compared as values.  A copy made by duplicating a node
renders as the node does, before and after, whatever its properties are. -/
theorem answers_without_ids (types : Registry) (profileId : String)
    (registry registry' : Registry) (options options' : Options)
    (requests requests' : List Edit) :
    let r : Renderer := ⟨types, .standard⟩
    let forest := Forest.ofEdits registry options requests
    let forest' := Forest.ofEdits registry' options' requests'
    (Snapshot.equalLists (Snapshot.eraseIdsOfList forest.snapshot)
        (Snapshot.eraseIdsOfList forest'.snapshot) = true →
      (r.render forest profileId).answer =
        (r.render forest' profileId).answer) ∧
    (forall id id' s s', forest.snapshotOf? id = some s →
      forest'.snapshotOf? id' = some s' →
      s.eraseIds.equal s'.eraseIds = true →
      (r.renderSubtree forest id profileId).answer =
        (r.renderSubtree forest' id' profileId).answer) ∧
    forall id copy changed, forest.duplicate id = .ok (copy, changed) →
      (r.renderSubtree changed copy profileId).answer =
          (r.renderSubtree changed id profileId).answer ∧
        (r.renderSubtree changed id profileId).answer =
          (r.renderSubtree forest id profileId).answer := by
  intro r forest forest'
  rcases Forest.exists_shows_ofEdits registry options requests with ⟨ss, hss⟩
  rcases Forest.exists_shows_ofEdits registry' options' requests' with ⟨ts, hts⟩
  refine ⟨?_, ?_, ?_⟩
  · exact render_of_erased types profileId hss hts
  · intro id id' s s' hs hs' hequal
    exact renderSubtree_of_erased types profileId hss hts hs hs' hequal
  · intro id copy changed hduplicate
    exact renderSubtree_of_duplicate types profileId hss hduplicate

/-- A forest of one card of this width. -/
abbrev wideCard (width : Binary64) : Forest :=
  Forest.ofEdits .standard ⟨true⟩
    [.insert .card none,
      .setProperty (NodeId.generate .card 1) "width" (.number width)]

/-- The nested nodes of that forest. -/
def wideCardNodes (width : Binary64) : List Snapshot :=
  [.node (NodeId.generate .card 1) .card
    (((Registry.standard.find? .card).get rfl).defaults.insert "width"
      (.number width)) []]

theorem shows_wideCard (width : Binary64) :
    Forest.Shows (wideCard width) (wideCardNodes width) := by
  have hcontains : (Forest.ofEdits .standard ⟨true⟩
      [.insert .card none]).contains (NodeId.generate .card 1) = true :=
    Forest.contains_iff.mpr (Forest.mem_of_entry
      (shows_card.subtree_of_root List.mem_cons_self).find)
  have hedit : wideCard width =
      (Forest.ofEdits .standard ⟨true⟩ [.insert .card none]).modifyProperties
        (NodeId.generate .card 1) (·.insert "width" (.number width)) := by
    show ((Forest.ofEdits .standard ⟨true⟩ [.insert .card none]).edit
      (.setProperty (NodeId.generate .card 1) "width" (.number width))).forest = _
    simp only [Forest.edit, Forest.edit?, Forest.setProperty, hcontains]
    rfl
  have hshows := shows_card.modifyProperties (NodeId.generate .card 1)
    (·.insert "width" (.number width))
  rw [Snapshot.changePropertiesList_node_cons, if_pos rfl] at hshows
  rw [hedit]
  exact hshows

theorem answers_of_wideCard :
    let r : Renderer := ⟨.standard, .standard⟩
    let id := NodeId.generate .card 1
    let zero := wideCard (.finite false .zero)
    let minusZero := wideCard (.finite true .zero)
    (Snapshot.equalLists (Snapshot.eraseIdsOfList zero.snapshot)
        (Snapshot.eraseIdsOfList minusZero.snapshot) = true ∧
      (r.render zero ProfileId.inlineStyle).answer =
        (r.render minusZero ProfileId.inlineStyle).answer) ∧
    (exists s s', zero.snapshotOf? id = some s ∧
      minusZero.snapshotOf? id = some s' ∧
      s.eraseIds.equal s'.eraseIds = true ∧
      (r.renderSubtree zero id ProfileId.inlineStyle).answer =
        (r.renderSubtree minusZero id ProfileId.inlineStyle).answer) ∧
    exists copy changed, (wideCard .nan).duplicate id = .ok (copy, changed) ∧
      (r.renderSubtree changed copy ProfileId.inlineStyle).answer =
        (r.renderSubtree changed id ProfileId.inlineStyle).answer := by
  intro r id zero minusZero
  have hzero := shows_wideCard (.finite false .zero)
  have hminus := shows_wideCard (.finite true .zero)
  have hnan := (shows_wideCard .nan).subtree_of_root List.mem_cons_self
  have hequal : Snapshot.equalLists (Snapshot.eraseIdsOfList zero.snapshot)
      (Snapshot.eraseIdsOfList minusZero.snapshot) = true := by
    rw [hzero.snapshot, hminus.snapshot]
    rfl
  have hs := (hzero.subtree_of_root List.mem_cons_self).snapshotOf?
  have hs' := (hminus.subtree_of_root List.mem_cons_self).snapshotOf?
  rcases (shows_wideCard .nan).exists_duplicate hnan.find with
    ⟨s, after, _, _, hduplicate⟩
  refine ⟨⟨hequal, ?_⟩, ⟨_, _, hs, hs', rfl, ?_⟩, _, _, hduplicate, ?_⟩
  · exact (answers_without_ids .standard ProfileId.inlineStyle .standard .standard
      ⟨true⟩ ⟨true⟩ _ _).left hequal
  · exact (answers_without_ids .standard ProfileId.inlineStyle .standard .standard
      ⟨true⟩ ⟨true⟩ _ _).right.left id id _ _ hs hs' rfl
  · exact ((answers_without_ids .standard ProfileId.inlineStyle .standard
      .standard ⟨true⟩ ⟨true⟩ _ []).right.right id _ _ hduplicate).left

end Render

end MarkupForest
