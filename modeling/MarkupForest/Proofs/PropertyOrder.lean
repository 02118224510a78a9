import MarkupForest.Proofs.Anonymity
import MarkupForest.Proofs.PropertyEdits
import MarkupForest.Proofs.SameNodes

/-!
# The order of settings

Values of different nodes, or under different names, can be set in any order.  Only
the order of the names may differ, and this shows neither in comparisons nor in
what is rendered.
-/

namespace MarkupForest

namespace Forest

/-- Set properties one after the other, each of the node that it is given with. -/
def setAll (forest : Forest) (calls : List (NodeId × String × PropertyValue)) :
    Forest :=
  forest.change (calls.map fun call => (call.1, .ofEntry call.2))

/-- What is set for one node, in order. -/
def entriesOf (x : NodeId) (calls : List (NodeId × String × PropertyValue)) :
    List (String × PropertyValue) :=
  (calls.filter (·.1 = x)).map Prod.snd

/-!
# Settings in another order
-/

theorem changesOf_ofEntry (x : NodeId)
    (calls : List (NodeId × String × PropertyValue)) :
    changesOf x (calls.map fun call => (call.1, .ofEntry call.2)) =
      (entriesOf x calls).map .ofEntry := by
  unfold changesOf entriesOf
  rw [List.filter_map, List.map_map, List.map_map]
  rfl

theorem find?_setAll (forest : Forest)
    (calls : List (NodeId × String × PropertyValue)) (x : NodeId) :
    (forest.setAll calls).find? x =
      (forest.find? x).map fun node =>
        { node with properties := node.properties.insertAll (entriesOf x calls) } := by
  unfold setAll
  rw [find?_change, changesOf_ofEntry]
  congr 1
  funext node
  rw [PropertyChange.applyAll_map_ofEntry]

theorem nodup_entriesOf {calls : List (NodeId × String × PropertyValue)}
    (h : (calls.map fun call => (call.1, call.2.1)).Nodup) (x : NodeId) :
    ((entriesOf x calls).map Prod.fst).Nodup := by
  have hfilter : ((calls.filter (·.1 = x)).map
      fun call => (call.1, call.2.1)).Nodup :=
    (List.filter_sublist.map _).nodup h
  have hnames : (calls.filter (·.1 = x)).map (fun call => (call.1, call.2.1)) =
      ((entriesOf x calls).map Prod.fst).map (Prod.mk x) := by
    unfold entriesOf
    rw [List.map_map, List.map_map]
    apply List.map_congr_left
    intro call hcall
    have hx : call.1 = x := by simpa using (List.mem_filter.mp hcall).right
    show (call.1, call.2.1) = (x, call.2.1)
    rw [hx]
  rw [hnames] at hfilter
  exact hfilter.of_map _

/-- The same nodes in the same places, with the same values by name. -/
structure SameByName (one other : Forest) : Prop where
  roots : other.roots = one.roots
  node : forall x node, one.find? x = some node → exists properties,
    other.find? x = some { node with properties } ∧
      forall key, properties.find? key = node.properties.find? key
  missing : forall x, one.find? x = none → other.find? x = none

theorem sameByName_setAll (forest : Forest)
    {calls others : List (NodeId × String × PropertyValue)}
    (hperm : calls.Perm others)
    (hnodup : (calls.map fun call => (call.1, call.2.1)).Nodup) :
    SameByName (forest.setAll calls) (forest.setAll others) := by
  constructor
  · rcases frame_change forest
      (calls.map fun call => (call.1, .ofEntry call.2)) with ⟨_, hone⟩
    rcases frame_change forest
      (others.map fun call => (call.1, .ofEntry call.2)) with ⟨_, hother⟩
    unfold setAll
    rw [hone, hother]
  · intro x node hfind
    rw [find?_setAll] at hfind
    rcases Option.map_eq_some_iff.mp hfind with ⟨old, hold, rfl⟩
    refine ⟨old.properties.insertAll (entriesOf x others), ?_, ?_⟩
    · rw [find?_setAll, hold]
      rfl
    · intro key
      have hentries : (entriesOf x calls).Perm (entriesOf x others) :=
        (hperm.filter _).map _
      exact (OrderedMap.find?_insertAll_of_perm old.properties hentries
        (nodup_entriesOf hnodup x) key).symm
  · intro x hfind
    rw [find?_setAll, Option.map_eq_none_iff] at hfind
    rw [find?_setAll, hfind]
    rfl

end Forest

/-!
# Comparisons
-/

theorem OrderedMap.equalBy_iff_of_find?_eq {κ ν : Type} [DecidableEq κ]
    {related : ν → ν → Bool} {m n : OrderedMap κ ν}
    (h : forall key, n.find? key = m.find? key) :
    equalBy related m n = true ↔
      forall key value, m.find? key = some value → related value value = true := by
  have hperm : m.keys.Perm n.keys := by
    apply (List.perm_ext_iff_of_nodup m.keys_nodup n.keys_nodup).mpr
    intro key
    show key ∈ m.keys ↔ key ∈ n.keys
    rw [← not_iff_not, ← find?_eq_none_iff, ← find?_eq_none_iff, h key]
  have hsize : m.size = n.size := by
    have hlen := hperm.length_eq
    unfold keys at hlen
    rw [List.length_map, List.length_map] at hlen
    exact hlen
  unfold equalBy
  rw [hsize, beq_self_eq_true, Bool.true_and, List.all_eq_true]
  constructor
  · intro hall key value hvalue
    have hentry := hall (key, value) (mem_of_find? hvalue)
    simp only [h key, hvalue] at hentry
    exact hentry
  · intro hall entry hentry
    have hvalue : m.find? entry.1 = some entry.2 :=
      (lookup_eq_some_iff_mem m.keys_nodup).mpr hentry
    simp only [h entry.1, hvalue]
    exact hall entry.1 entry.2 hvalue

theorem Binary64.equal_self_iff (x : Binary64) : x.equal x = true ↔ x ≠ .nan := by
  cases x with
  | nan => simp [equal]
  | infinite negative => simp [equal]
  | finite negative x =>
      simpa [equal] using (Decidable.em (x.significand = 0)).symm

theorem PropertyValue.equal_self_iff (value : PropertyValue) :
    value.equal value = true ↔ value ≠ .number .nan := by
  cases value with
  | number x =>
      show x.equal x = true ↔ _
      rw [Binary64.equal_self_iff]
      simp
  | text content => simp [equal]
  | flag content => simp [equal]
  | list items => simp [equal]
  | table content => simp [equal]

theorem Properties.equal_iff_of_find?_eq {properties changed : Properties}
    (h : forall key, changed.find? key = properties.find? key) :
    Properties.equal properties changed = true ↔
      forall key, properties.find? key ≠ some (.number .nan) := by
  unfold Properties.equal
  rw [OrderedMap.equalBy_iff_of_find?_eq h]
  constructor
  · intro hall key hkey
    exact (PropertyValue.equal_self_iff _).mp (hall key _ hkey) rfl
  · intro hall key value hvalue
    rw [PropertyValue.equal_self_iff]
    rintro rfl
    exact hall key hvalue

/-- No property of a node is the number that is not equal to itself. -/
def Node.NanFree (node : Node) : Prop :=
  forall key, node.property? key ≠ some (.number .nan)

def Forest.NanFree (forest : Forest) : Prop :=
  forall x node, forest.find? x = some node → node.NanFree

namespace Snapshot

/-- The same nested nodes, with the same values by name. -/
inductive SameByName : List Snapshot → List Snapshot → Prop where
  | nil : SameByName [] []
  | cons {id : NodeId} {type : NodeType} {properties changed : Properties}
      {below rest below' rest' : List Snapshot} :
      (forall key, changed.find? key = properties.find? key) →
      SameByName below below' →
      SameByName rest rest' →
      SameByName (node id type properties below :: rest)
        (node id type changed below' :: rest')

variable {ss ts : List Snapshot} {arena : Arena} {parent : Option NodeId}

theorem SameByName.alike (h : SameByName ss ts) : Alike ss ts := by
  induction h with
  | nil => exact Alike.nil
  | cons hproperties _ _ ihbelow ihrest =>
      exact Alike.cons (fun key => by rw [hproperties]) ihbelow ihrest

/-- They compare as equal exactly if no number among their properties keeps a node
from being equal to itself. -/
theorem SameByName.equalLists_iff (h : SameByName ss ts)
    (hheld : Forest.Holds arena parent ss) :
    equalLists ss ts = true ↔
      forall x, x ∈ idsOfList ss → forall node, arena[x]? = some node →
        node.NanFree := by
  induction h generalizing parent with
  | nil =>
      refine iff_of_true rfl ?_
      intro x hx
      cases hx
  | @cons id type properties changed below rest below' rest' hproperties _ _
      ihbelow ihrest =>
      cases hheld with
      | cons hfind hbelow hrest =>
          have hself : Properties.equal properties changed = true ↔
              ((node id type properties below).toNode parent).NanFree :=
            Properties.equal_iff_of_find?_eq hproperties
          show (decide (id = id) && decide (type = type) &&
            Properties.equal properties changed && equalLists below below' &&
            equalLists rest rest') = true ↔ _
          rw [decide_eq_true rfl, decide_eq_true rfl, Bool.true_and, Bool.true_and,
            Bool.and_eq_true, Bool.and_eq_true, hself, ihbelow hbelow,
            ihrest hrest]
          constructor
          · rintro ⟨⟨hnode, hbelow⟩, hrest⟩ x hx node hnode'
            rw [idsOfList_node_cons, List.mem_cons, List.mem_append] at hx
            rcases hx with rfl | hx | hx
            · rw [hfind] at hnode'
              cases hnode'
              exact hnode
            · exact hbelow x hx node hnode'
            · exact hrest x hx node hnode'
          · intro hall
            refine ⟨⟨hall id ?_ _ hfind, fun x hx => hall x ?_⟩,
              fun x hx => hall x ?_⟩
            all_goals rw [idsOfList_node_cons, List.mem_cons, List.mem_append]
            · exact Or.inl rfl
            · exact Or.inr (Or.inl hx)
            · exact Or.inr (Or.inr hx)

end Snapshot

namespace Forest

open Snapshot (idsOfList)

variable {one other : Forest} {ss ts : List Snapshot} {slot parent : Option NodeId}

theorem SameByName.snapshots (hsame : SameByName one other)
    (h : Holds one.arena parent ss) (h' : Holds other.arena slot ts)
    (hids : ss.map Snapshot.id = ts.map Snapshot.id) :
    Snapshot.SameByName ss ts := by
  induction h generalizing slot ts with
  | nil =>
      rw [List.map_eq_nil_iff.mp hids.symm]
      exact .nil
  | cons hfind hbelow hrest ihbelow ihrest =>
      cases h' with
      | nil => cases hids
      | cons hfind' hbelow' hrest' =>
          rw [List.map_cons, List.map_cons, List.cons.injEq] at hids
          rcases hids with ⟨hid, hids⟩
          cases hid
          rcases hsame.node _ _ hfind with ⟨properties, hfound, hproperties⟩
          have hnode := Option.some_inj.mp (hfound.symm.trans hfind')
          injection hnode with _ htype hchanged _ hchildren
          cases htype
          cases hchanged
          exact .cons hproperties (ihbelow hbelow' hchildren)
            (ihrest hrest' hids)

theorem SameByName.nodes (hsame : SameByName one other) (h : Shows one ss)
    (h' : Shows other ts) : Snapshot.SameByName ss ts := by
  apply hsame.snapshots h.held h'.held
  rw [← h.roots, ← h'.roots, hsame.roots]

theorem SameByName.contains (hsame : SameByName one other) (x : NodeId) :
    other.contains x = one.contains x := by
  cases hfind : one.find? x with
  | none =>
      rw [contains_eq_false_iff.mpr hfind,
        contains_eq_false_iff.mpr (hsame.missing x hfind)]
  | some node =>
      rcases hsame.node x node hfind with ⟨_, hfound, _⟩
      rw [contains_of_find hfind, contains_of_find hfound]

theorem SameByName.equal_snapshots_iff (hsame : SameByName one other)
    (h : Shows one ss) (h' : Shows other ts) :
    Snapshot.equalLists one.snapshot other.snapshot = true ↔ one.NanFree := by
  rw [h.snapshot, h'.snapshot, (hsame.nodes h h').equalLists_iff h.held]
  constructor
  · intro hall x node hfind
    exact hall x (h.complete x (mem_of_entry hfind)) node hfind
  · intro hall x _ node hfind
    exact hall x node hfind

theorem SameByName.answers (hsame : SameByName one other) (h : Shows one ss)
    (h' : Shows other ts) (types : Registry) (profileId : String) :
    let r : Renderer := ⟨types, .standard⟩
    (r.render one profileId).answer = (r.render other profileId).answer ∧
      forall x, (r.renderSubtree one x profileId).answer =
        (r.renderSubtree other x profileId).answer := by
  intro r
  constructor
  · rw [Render.render_of_shows h, Render.render_of_shows h']
    exact Render.answerOf_of_alike types profileId (hsame.nodes h h').alike none none
  · intro x
    by_cases hx : one.contains x = true
    · have hx' : other.contains x = true := (hsame.contains x).trans hx
      rcases h.exists_subtree (contains_iff.mp hx) with ⟨slot, s, rfl, hs⟩
      rcases h'.exists_subtree (contains_iff.mp hx') with
        ⟨slot', s', hid, hs'⟩
      have hsnapshots : Snapshot.SameByName [s] [s'] :=
        hsame.snapshots hs.held hs'.held (congrArg (fun id => [id]) hid.symm)
      have hother := Render.renderSubtree_of_subtree hs' r profileId
      rw [hid] at hother
      rw [Render.renderSubtree_of_subtree hs, hother]
      exact Render.answerOf_of_alike types profileId hsnapshots.alike slot slot'
    · unfold Renderer.renderSubtree
      cases r.profiles.get profileId with
      | error e => rfl
      | ok profile => simp only [hsame.contains x, if_neg hx]

/-- Changes of properties, after any run of edits.  They are carried out on every
node that is there, and change nothing else.  A node then has what its last
replacement gave it, with what was set since on top: a name keeps its place, a new
one comes last, and the last value of a name wins.  Values of different nodes or
under different names can be set in any order: the forests compare as equal,
unless one of their properties is not a number, and render alike. -/
theorem ofEdits_properties_replayed (registry : Registry) (options : Options)
    (requests : List Edit) :
    let forest := ofEdits registry options requests
    (forall calls : PropertyCalls,
      (forall call, call ∈ calls → forest.contains call.1 = true) →
      forall before call after, calls = before ++ call :: after →
        ((forest.change before).edit (call.2.edit call.1)).answer = .ok .done) ∧
    (forall calls : PropertyCalls,
      (exists arena, forest.change calls = { forest with arena }) ∧
      forall x,
        (forest.find? x = none → (forest.change calls).find? x = none) ∧
        forall node, forest.find? x = some node → exists base entries,
          PropertyChange.Since node.properties (changesOf x calls) base entries ∧
          (forest.change calls).find? x =
            some { node with properties := base.insertAll entries } ∧
          forall key, (base.insertAll entries).find? key =
            (entries.reverse.lookup key).or (base.find? key)) ∧
    (forall (properties : Properties) key value,
      let changed := (PropertyChange.set key value).apply properties
      (key ∉ properties.keys ∧
        changed.entries = properties.entries ++ [(key, value)]) ∨
      exists before old after,
        properties.entries = before ++ (key, old) :: after ∧
        changed.entries = before ++ (key, value) :: after) ∧
    forall calls others : List (NodeId × String × PropertyValue),
      calls.Perm others →
      (calls.map fun call => (call.1, call.2.1)).Nodup →
      let one := forest.setAll calls
      let other := forest.setAll others
      (Snapshot.equalLists one.snapshot other.snapshot = true ↔ one.NanFree) ∧
      forall (types : Registry) profileId,
        let r : Renderer := ⟨types, .standard⟩
        (r.render one profileId).answer = (r.render other profileId).answer ∧
        forall x, (r.renderSubtree one x profileId).answer =
          (r.renderSubtree other x profileId).answer := by
  intro forest
  refine ⟨?_, ?_, fun properties key value =>
    PropertyChange.entries_set key value properties, ?_⟩
  · intro calls hcalls before call after heq
    exact answer_change hcalls heq
  · intro calls
    refine ⟨frame_change forest calls, fun x => ⟨?_, ?_⟩⟩
    · intro hfind
      rw [find?_change, hfind]
      rfl
    · intro node hfind
      rcases PropertyChange.exists_since node.properties (changesOf x calls) with
        ⟨base, entries, hsince⟩
      refine ⟨base, entries, hsince, ?_, OrderedMap.find?_insertAll base entries⟩
      rw [find?_change, hfind, Option.map_some, hsince.applyAll]
  · intro calls others hperm hnodup one other
    have hsame : SameByName one other := sameByName_setAll forest hperm hnodup
    rcases exists_shows_ofEdits registry options requests with ⟨nodes, hnodes⟩
    rcases hnodes.run _ with ⟨ss, hone⟩
    rcases hnodes.run _ with ⟨ts, hother⟩
    exact ⟨hsame.equal_snapshots_iff hone hother, hsame.answers hone hother⟩

theorem properties_replayed_of_card :
    let card := NodeId.generate .card 1
    let button := NodeId.generate .button 2
    let forest := ofEdits .standard ⟨false⟩
      [.insert .card none, .insert .button (some card)]
    let calls : PropertyCalls :=
      [(card, .set "color" (.text "red")),
        (button, .replace (.ofList [("text", .text "Go")])),
        (card, .set "color" (.text "navy"))]
    let width : PropertyValue := .number (.ofNat 12)
    let r : Renderer := ⟨.standard, .standard⟩
    (forall call, call ∈ calls → forest.contains call.1 = true) ∧
    ((forest.change (calls.take 2)).edit
      (.setProperty card "color" (.text "navy"))).answer = .ok .done ∧
    (exists node base entries, forest.find? card = some node ∧
      PropertyChange.Since node.properties (changesOf card calls) base entries ∧
      (forest.change calls).find? card =
        some { node with properties := base.insertAll entries }) ∧
    (r.render (forest.setAll [(card, "width", width), (button, "width", width)])
        ProfileId.inlineStyle).answer =
      (r.render (forest.setAll [(button, "width", width), (card, "width", width)])
        ProfileId.inlineStyle).answer := by
  intro card button forest calls width r
  have h : Shows forest _ := shows_nested rfl rfl
  have hcard : forest.contains card = true :=
    contains_iff.mpr (h.mem_iff.mpr (by simp [card]))
  have hbutton : forest.contains button = true :=
    contains_iff.mpr (h.mem_iff.mpr (by simp [button]))
  have hcalls : forall call, call ∈ calls → forest.contains call.1 = true := by
    simp only [calls, List.forall_mem_cons]
    exact ⟨hcard, hbutton, hcard, fun _ hmem => absurd hmem List.not_mem_nil⟩
  have hfind := h.held.find List.mem_cons_self
  have hne : (card, "width") ≠ (button, "width") := by
    intro heq
    simp [card, button, NodeId.generate_inj] at heq
  rcases ofEdits_properties_replayed .standard ⟨false⟩
    [.insert .card none, .insert .button (some card)] with
    ⟨hanswers, hreplayed, _, horders⟩
  refine ⟨hcalls, ?_, ?_, ?_⟩
  · exact hanswers calls hcalls (calls.take 2) _ [] rfl
  · rcases ((hreplayed calls).right card).right _ hfind with
      ⟨base, entries, hsince, hchanged, _⟩
    exact ⟨_, base, entries, hfind, hsince, hchanged⟩
  · refine ((horders [(card, "width", width), (button, "width", width)]
      [(button, "width", width), (card, "width", width)]
      (List.Perm.swap _ _ _) ?_).right .standard ProfileId.inlineStyle).left
    exact List.nodup_cons.mpr
      ⟨fun hmem => hne (List.mem_singleton.mp hmem), List.nodup_singleton _⟩

end Forest

end MarkupForest
