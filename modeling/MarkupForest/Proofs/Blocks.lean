import MarkupForest.Proofs.HiddenNodes
import MarkupForest.Proofs.Indentation

/-!
# Subtrees within a rendering

The rendering of a node on its own has the lines that the rendering of its
forest has for the node, except that they are not moved in.
`Renderer.Embeds` says so for a node, and `Renderer.Composes` puts a rendering
together from those of the roots.
-/

namespace MarkupForest

/-- A line that starts with the tag of an element. -/
def Render.Pretty.Opens (dialect : Dialect) (element : Element) (line : String) :
    Prop :=
  (exists markup, line = opening dialect element ++ markup) ∨
    line = selfClosing dialect element

namespace Renderer

open Render

/-- The lines of a rendering that starts at these nodes, written out. -/
def entries (r : Renderer) (profile : Profile) (forest : Forest)
    (start : List NodeId) : List String :=
  (r.draft profile forest start).lines.map (·.write profile.dialect)

/-- The components that a rendering that starts at these nodes uses. -/
def imports (r : Renderer) (profile : Profile) (forest : Forest)
    (start : List NodeId) : Imports :=
  Imports.collect (r.draft profile forest start).imports

/-- A text that has the lines of the rendering that starts at these nodes, behind
the preamble for the components that it uses. -/
def Writes (r : Renderer) (profile : Profile) (forest : Forest)
    (start : List NodeId) (text : String) : Prop :=
  Assembled (profile.preamble (r.imports profile forest start))
    (String.intercalate "\n" (r.entries profile forest start)) text

/-- How the rendering of a node stands in that of its forest. -/
structure Embeds (r : Renderer) (profileId : String) (profile : Profile)
    (forest : Forest) (depth : Nat) (node : Node) : Prop where
  answer : exists text,
    (r.renderSubtree forest node.id profileId).answer = .ok text ∧
    r.Writes profile forest [node.id] text
  /-- The lines of the node start with its own tag. -/
  opening : exists descriptor first rest,
    r.types.find? node.type = some descriptor ∧
    Pretty.Opens profile.dialect (profile.element descriptor node).1 first ∧
    r.entries profile forest [node.id] = first :: rest
  /-- They are written together, from where the node is opened, two spaces further
  in for each level. -/
  block : exists before after, (node.id, before) ∈ r.marks profile forest ∧
    r.entries profile forest forest.roots =
      before.map (·.write profile.dialect) ++
        ((r.entries profile forest [node.id]).map
          (String.join (List.replicate depth "  ") ++ ·) ++ after)

/-- How a rendering is made from those of its parts. -/
structure Composes (r : Renderer) (profileId : String) (profile : Profile)
    (forest : Forest) (text : String) : Prop where
  whole : r.Writes profile forest forest.roots text
  opened : (r.marks profile forest).map Prod.fst =
    (Forest.shown r.types forest).map Node.id
  once : ((r.marks profile forest).map Prod.fst).Nodup
  nodes : forall depth node, (depth, node) ∈ forest.rows →
    ¬ Forest.Hidden r.types forest node.id →
      r.Embeds profileId profile forest depth node
  body : r.entries profile forest forest.roots =
    forest.roots.flatMap fun root => r.entries profile forest [root]
  empty : String.intercalate "\n" (r.entries profile forest forest.roots) = "" ↔
    forest.isEmpty = true
  imports : forall module name,
    (r.imports profile forest forest.roots).Has module name ↔
      exists root, root ∈ forest.roots ∧
        (r.imports profile forest [root]).Has module name
  joined : (forall imports, profile.preamble imports = []) →
    exists texts,
      forest.roots.map (fun root =>
        (r.renderSubtree forest root profileId).answer) = texts.map .ok ∧
      text = String.intercalate "\n" texts

end Renderer

namespace Render

open Snapshot (nodesOfListAt)

variable {types : Registry} {profile : Profile} {arena : Arena}
  {parent slot : Option NodeId} {ss below rest : List Snapshot} {s : Snapshot}
  {descriptor : Descriptor} {depth top : Nat} {id x : NodeId} {type : NodeType}
  {properties : Properties} {written before after : List Line}

/-!
# Blocks of lines
-/

/-- The nested nodes `s` stand under `slot` among the nodes `ss`, and their draft
is a block of these lines, between `before` and `after`. -/
structure Block (types : Registry) (profile : Profile) (arena : Arena)
    (parent : Option NodeId) (top : Nat) (ss : List Snapshot) (lines : List Line)
    (slot : Option NodeId) (s : Snapshot) (depth : Nat)
    (before after : List Line) : Prop where
  held : Forest.Holds arena slot [s]
  inside : s.Inside ss
  row : (depth, s.toNode slot) ∈ nodesOfListAt top parent ss
  ok : (draftOf types profile depth slot s).error? = none
  lines : lines = before ++ ((draftOf types profile depth slot s).lines ++ after)

theorem mem_marksOf (htype : types.find? type = some descriptor)
    (hmark : (x, before) ∈
      marksOf types profile depth parent written (.node id type properties below)) :
    (x = id ∧ before = written) ∨
      exists closing,
        (visitNode profile descriptor
          ((Snapshot.node id type properties below).toNode parent)
          depth).layout.closing = some closing ∧
        (x, before) ∈ marksOfList types profile (depth + 1) (some id)
          (written ++ (visitNode profile descriptor
            ((Snapshot.node id type properties below).toNode parent)
            depth).layout.opening) below := by
  cases hclosing : (visitNode profile descriptor
      ((Snapshot.node id type properties below).toNode parent)
      depth).layout.closing with
  | none =>
      rw [marksOf_of_closed htype hclosing, List.mem_singleton] at hmark
      exact Or.inl (Prod.mk.inj hmark)
  | some closing =>
      rw [marksOf_of_open htype hclosing, List.mem_cons] at hmark
      rcases hmark with hself | hbelow
      · exact Or.inl (Prod.mk.inj hself)
      · exact Or.inr ⟨closing, rfl, hbelow⟩

/-- From every mark on, the draft of the marked node is written. -/
theorem exists_block_of_mark (h : Forest.Holds arena parent ss)
    (hok : (draftOfList types profile top parent ss).error? = none)
    (hmark : (x, before) ∈ marksOfList types profile top parent written ss) :
    exists slot s depth after, s.id = x ∧
      Block types profile arena parent top ss
        (written ++ (draftOfList types profile top parent ss).lines)
        slot s depth before after := by
  induction h generalizing top written with
  | nil => cases hmark
  | @cons parent id type properties below rest hfind hbelow hrest ihbelow ihrest =>
      rw [draftOfList_cons, Draft.append_ok_iff] at hok
      rcases hok with ⟨hfirst, hothers⟩
      rw [draftOfList_cons, Draft.append_lines hfirst, ← List.append_assoc]
      rw [marksOfList_cons, List.mem_append] at hmark
      rcases hmark with hmark | hmark
      · cases htype : types.find? type with
        | none =>
            rw [draftOf_of_unknown htype] at hfirst
            cases hfirst
        | some descriptor =>
            rcases mem_marksOf htype hmark with ⟨rfl, rfl⟩ | ⟨closing, hclosing, hmark⟩
            · exact ⟨parent, .node x type properties below, top, _, rfl,
                .cons hfind hbelow .nil, .level List.mem_cons_self,
                List.mem_cons_self, hfirst, List.append_assoc _ _ _⟩
            · have hdraft := hfirst
              rw [draftOf_of_known htype] at hdraft ⊢
              rcases Visit.draft_open hclosing hdraft with ⟨hinner, hlines, _⟩
              rcases ihbelow hinner hmark with ⟨slot, s, depth, after, hid, hblock⟩
              refine ⟨slot, s, depth,
                after ++ closing :: (draftOfList types profile top parent rest).lines,
                hid, hblock.held, .deeper List.mem_cons_self hblock.inside,
                List.mem_cons_of_mem _ (List.mem_append_left _ hblock.row),
                hblock.ok, ?_⟩
              rw [hlines, ← List.append_assoc written, ← List.append_assoc, hblock.lines]
              simp only [List.append_assoc, List.singleton_append]
      · rcases ihrest hothers hmark with ⟨slot, s, depth, after, hid, hblock⟩
        exact ⟨slot, s, depth, after, hid, hblock.held, hblock.inside.cons,
          List.mem_cons_of_mem _ (List.mem_append_right _ hblock.row),
          hblock.ok, hblock.lines⟩

/-!
# Drafts in parts
-/

theorem draftOfList_parts
    (hok : (draftOfList types profile depth parent ss).error? = none) :
    (forall s, s ∈ ss → (draftOf types profile depth parent s).error? = none) ∧
      (draftOfList types profile depth parent ss).lines =
        ss.flatMap (fun s => (draftOf types profile depth parent s).lines) ∧
      (draftOfList types profile depth parent ss).imports =
        ss.flatMap (fun s => (draftOf types profile depth parent s).imports) := by
  induction ss with
  | nil => exact ⟨fun s hs => absurd hs List.not_mem_nil, rfl, rfl⟩
  | cons first rest ih =>
      rw [draftOfList_cons, Draft.append_ok_iff] at hok
      rcases hok with ⟨hfirst, hothers⟩
      rcases ih hothers with ⟨hrest, hlines, himports⟩
      rw [draftOfList_cons, Draft.append_lines hfirst, Draft.append_imports hfirst,
        hlines, himports]
      refine ⟨?_, rfl, rfl⟩
      intro s hs
      rcases List.mem_cons.mp hs with rfl | hs
      · exact hfirst
      · exact hrest s hs

theorem Renderable.draft_ok (h : Renderable types ss) (hs : s ∈ ss) :
    (draftOf types profile depth parent s).error? = none :=
  (draftOfList_parts (draftOfList_ok_iff.mpr h)).left s hs

theorem Pretty.line_zero (markup : String) : Pretty.line 0 markup = markup :=
  String.empty_append

theorem Pretty.Opens.ne_empty {dialect : Dialect} {element : Element}
    {first : String} (h : Pretty.Opens dialect element first) : first ≠ "" := by
  rcases h with ⟨markup, rfl⟩ | rfl
  · simp [Pretty.opening]
  · simp [Pretty.selfClosing]

theorem exists_opening (profile : Profile) (descriptor : Descriptor) (node : Node)
    (depth : Nat) :
    exists first rest,
      Pretty.Opens profile.dialect (profile.element descriptor node).1 first ∧
      (visitNode profile descriptor node depth).layout.opening.map
          (·.write profile.dialect) = Pretty.line depth first :: rest := by
  cases written_visitNode profile descriptor node depth with
  | closed hshape hclosing hopening => exact ⟨_, [], Or.inr rfl, hopening⟩
  | collapsed hshape hcollapsed hclosing hopening =>
      rw [String.append_assoc] at hopening
      exact ⟨_, [], Or.inl ⟨_, rfl⟩, hopening⟩
  | opened hshape hcollapsed hclosing hfinish hopening =>
      exact ⟨_, _, Or.inl ⟨"", String.append_empty.symm⟩, hopening⟩

theorem exists_first_entry
    (hok : (draftOf types profile depth parent s).error? = none) :
    exists descriptor first rest,
      types.find? (s.toNode parent).type = some descriptor ∧
      Pretty.Opens profile.dialect
        (profile.element descriptor (s.toNode parent)).1 first ∧
      (draftOf types profile depth parent s).lines.map (·.write profile.dialect) =
        Pretty.line depth first :: rest := by
  cases s with
  | node id type properties below =>
      cases htype : types.find? type with
      | none =>
          rw [draftOf_of_unknown htype] at hok
          cases hok
      | some descriptor =>
          rcases exists_opening profile descriptor
            ((Snapshot.node id type properties below).toNode parent) depth with
            ⟨first, rest, hopens, hopening⟩
          rw [draftOf_of_known htype]
          unfold Visit.draft Draft.prepend
          rw [List.map_append, hopening]
          exact ⟨descriptor, first, _, htype, hopens, rfl⟩

theorem intercalate_ne_empty {separator first : String} (h : first ≠ "")
    (rest : List String) :
    String.intercalate separator (first :: rest) ≠ "" := by
  cases rest with
  | nil => simpa using h
  | cons next others => simp [String.intercalate_cons_cons, h]

theorem intercalate_flatMap {α : Type} {separator : String}
    {parts : α → List String} {groups : List α}
    (h : forall a, a ∈ groups → parts a ≠ []) :
    String.intercalate separator (groups.flatMap parts) =
      String.intercalate separator
        (groups.map fun a => String.intercalate separator (parts a)) := by
  induction groups with
  | nil => rfl
  | cons a rest ih =>
      have hrest := ih fun b hb => h b (List.mem_cons_of_mem a hb)
      rw [List.flatMap_cons, List.map_cons]
      cases rest with
      | nil => simp
      | cons b others =>
          have hnext : (b :: others).flatMap parts ≠ [] := by
            simp [h b (List.mem_cons_of_mem a List.mem_cons_self)]
          rw [String.intercalate_append_of_ne_nil (h a List.mem_cons_self) hnext,
            hrest, String.intercalate_cons_of_ne_nil (by simp)]

end Render

namespace Forest

open Render

variable {forest : Forest} {ss : List Snapshot} {s : Snapshot}
  {slot : Option NodeId} {r : Renderer} {profile : Profile} {profileId : String}
  {node : Node} {id : NodeId} {depth : Nat}

/-!
# The parts of a rendering
-/

theorem Subtree.entries (h : Subtree forest slot s) (r : Renderer)
    (profile : Profile) :
    r.entries profile forest [s.id] =
      (draftOf r.types profile 0 slot s).lines.map (·.write profile.dialect) := by
  unfold Renderer.entries
  rw [draft_of_subtree h]

/-- At some depth, all the lines of a node are moved in. -/
theorem Subtree.entries_at (h : Subtree forest slot s) (r : Renderer)
    (profile : Profile) (depth : Nat) :
    (draftOf r.types profile depth slot s).lines.map (·.write profile.dialect) =
      (r.entries profile forest [s.id]).map
        (String.join (List.replicate depth "  ") ++ ·) := by
  have hindent : draftOf r.types profile depth slot s =
      (draftOf r.types profile 0 slot s).indent depth :=
    draftOf_indent depth 0 slot s
  rw [hindent, h.entries, List.map_map]
  show List.map _ (List.map _ _) = _
  rw [List.map_map]
  apply List.map_congr_left
  intro line _
  rw [← Line.indentation_eq]
  exact Line.write_indent profile.dialect depth line

theorem Subtree.answer (h : Subtree forest slot s)
    (hprofile : r.profiles.get profileId = .ok profile)
    (hok : (draftOf r.types profile 0 slot s).error? = none) :
    exists text, (r.renderSubtree forest s.id profileId).answer = .ok text ∧
      r.Writes profile forest [s.id] text := by
  have hid : forest.contains s.id = true := contains_iff.mpr (mem_of_entry h.find)
  rw [← draft_of_subtree h] at hok
  unfold Renderer.renderSubtree
  rw [hprofile]
  simp only [hid, if_true]
  exact Draft.exists_answer profile hok

theorem Shows.map_fst_marks (h : Shows forest ss) (r : Renderer)
    (profile : Profile) (hok : Renderable r.types ss) :
    (r.marks profile forest).map Prod.fst =
      (shown r.types forest).map Node.id := by
  rw [marks_of_roots h r profile hok,
    map_fst_marksOfList (draftOfList_ok_iff.mpr hok), h.shown_eq hok]

theorem Shows.row_eq (h : Shows forest ss) {row other : Row}
    (hrow : row ∈ forest.rows) (hother : other ∈ forest.rows)
    (hid : row.2.id = other.2.id) : row = other :=
  List.inj_on_of_nodup_map h.coherent.visits.nodup hrow hother hid

theorem Shows.entries_roots (h : Shows forest ss) (r : Renderer)
    (profile : Profile) :
    r.entries profile forest forest.roots =
      (draftOfList r.types profile 0 none ss).lines.map (·.write profile.dialect) := by
  unfold Renderer.entries
  rw [draft_of_roots h]

theorem Shows.embeds (h : Shows forest ss)
    (hprofile : r.profiles.get profileId = .ok profile)
    (hok : Renderable r.types ss) (hrow : (depth, node) ∈ forest.rows)
    (hshown : ¬ Hidden r.types forest node.id) :
    r.Embeds profileId profile forest depth node := by
  have hdraft : (draftOfList r.types profile 0 none ss).error? = none :=
    draftOfList_ok_iff.mpr hok
  have hmem : node.id ∈ (r.marks profile forest).map Prod.fst := by
    rw [h.map_fst_marks r profile hok]
    exact List.mem_map_of_mem (mem_shown_iff.mpr ⟨depth, hrow, hshown⟩)
  rcases List.mem_map.mp hmem with ⟨⟨x, before⟩, hmark, hx⟩
  have hheld := hmark
  rw [marks_of_roots h r profile hok] at hheld
  rcases exists_block_of_mark h.held hdraft hheld with
    ⟨slot, s, top, after, hid, hblock⟩
  have hsub := h.subtree_of_held hblock.inside hblock.held
  have hplace := hblock.row
  rw [← h.rows] at hplace
  have hself : s.id = node.id := hid.trans hx
  cases h.row_eq hplace hrow ((Snapshot.toNode_id slot s).trans hself)
  have hparts : (draftOf r.types profile 0 slot s).error? = none := by
    have hmoved := hblock.ok
    rw [show draftOf r.types profile depth slot s =
      (draftOf r.types profile 0 slot s).indent depth from
        draftOf_indent depth 0 slot s] at hmoved
    exact hmoved
  have hentries := hsub.entries r profile
  refine ⟨?_, ?_, before, after.map (·.write profile.dialect), ?_, ?_⟩
  · rw [Snapshot.toNode_id]
    exact hsub.answer hprofile hparts
  · rw [Snapshot.toNode_id, hentries]
    rcases exists_first_entry hparts with
      ⟨descriptor, first, rest, htype, hopens, hfirst⟩
    rw [Pretty.line_zero] at hfirst
    exact ⟨descriptor, first, rest, htype, hopens, hfirst⟩
  · rw [← hx]
    exact hmark
  · rw [Snapshot.toNode_id, h.entries_roots, ← hsub.entries_at,
      ← List.map_append, ← List.map_append, ← hblock.lines, List.nil_append]

theorem Shows.entries_flatMap (h : Shows forest ss) (hok : Renderable r.types ss) :
    r.entries profile forest forest.roots =
      forest.roots.flatMap fun root => r.entries profile forest [root] := by
  rcases draftOfList_parts (draftOfList_ok_iff.mpr hok) with ⟨_, hlines, _⟩
  rw [h.entries_roots, hlines, List.map_flatMap, h.roots, List.flatMap_map]
  apply List.flatMap_congr
  intro s hs
  exact ((h.subtree_of_root hs).entries r profile).symm

theorem Shows.has_imports_iff (h : Shows forest ss) (hok : Renderable r.types ss)
    {module name : String} :
    (r.imports profile forest forest.roots).Has module name ↔
      exists root, root ∈ forest.roots ∧
        (r.imports profile forest [root]).Has module name := by
  rcases draftOfList_parts (draftOfList_ok_iff.mpr hok) with ⟨_, _, himports⟩
  unfold Renderer.imports
  rw [draft_of_roots h, Imports.has_collect, himports, List.mem_flatMap, h.roots]
  constructor
  · rintro ⟨s, hs, hname⟩
    refine ⟨s.id, List.mem_map_of_mem hs, ?_⟩
    rw [draft_of_subtree (h.subtree_of_root hs), Imports.has_collect]
    exact hname
  · rintro ⟨root, hroot, hname⟩
    rcases List.mem_map.mp hroot with ⟨s, hs, rfl⟩
    rw [draft_of_subtree (h.subtree_of_root hs), Imports.has_collect] at hname
    exact ⟨s, hs, hname⟩

theorem Shows.exists_first_of_root (h : Shows forest ss)
    (hok : Renderable r.types ss) (profile : Profile) (hs : s ∈ ss) :
    exists first rest, r.entries profile forest [s.id] = first :: rest ∧
      first ≠ "" := by
  rcases exists_first_entry (hok.draft_ok hs) with
    ⟨descriptor, first, rest, _, hopens, hfirst⟩
  rw [Pretty.line_zero] at hfirst
  exact ⟨first, rest, ((h.subtree_of_root hs).entries r profile).trans hfirst,
    hopens.ne_empty⟩

theorem Shows.isEmpty_iff (h : Shows forest ss) :
    forest.isEmpty = true ↔ ss = [] := by
  have hsize : forest.arena.size = (Snapshot.idsOfList ss).length := h.size
  unfold isEmpty
  rw [Std.ExtHashMap.isEmpty_iff, Std.ExtHashMap.eq_empty_iff_size_eq_zero, hsize]
  cases ss with
  | nil => exact iff_of_true rfl rfl
  | cons s rest =>
      cases s with
      | node id type properties below => simp

theorem Shows.body_eq_empty_iff (h : Shows forest ss)
    (hok : Renderable r.types ss) (profile : Profile) :
    String.intercalate "\n" (r.entries profile forest forest.roots) = "" ↔
      forest.isEmpty = true := by
  rw [h.isEmpty_iff, h.entries_flatMap hok, h.roots]
  cases ss with
  | nil => exact iff_of_true rfl rfl
  | cons s rest =>
      rcases h.exists_first_of_root hok profile List.mem_cons_self with
        ⟨first, others, hfirst, hne⟩
      rw [List.map_cons, List.flatMap_cons, hfirst, List.cons_append]
      exact iff_of_false (intercalate_ne_empty hne _) (List.cons_ne_nil s rest)

theorem Shows.joined (h : Shows forest ss)
    (hprofile : r.profiles.get profileId = .ok profile)
    (hok : Renderable r.types ss)
    (hbare : forall imports, profile.preamble imports = []) {text : String}
    (htext : r.Writes profile forest forest.roots text) :
    exists texts,
      forest.roots.map (fun root =>
        (r.renderSubtree forest root profileId).answer) = texts.map .ok ∧
      text = String.intercalate "\n" texts := by
  refine ⟨forest.roots.map fun root =>
    String.intercalate "\n" (r.entries profile forest [root]), ?_, ?_⟩
  · rw [h.roots, List.map_map, List.map_map, List.map_map]
    apply List.map_congr_left
    intro s hs
    rcases (h.subtree_of_root hs).answer hprofile (hok.draft_ok hs) with
      ⟨part, hpart, hwrites⟩
    exact hpart.trans (congrArg _ (hwrites.bare (hbare _)))
  · rw [htext.bare (hbare _), h.entries_flatMap hok, intercalate_flatMap]
    intro root hroot
    rw [h.roots] at hroot
    rcases List.mem_map.mp hroot with ⟨s, hs, rfl⟩
    rcases h.exists_first_of_root hok profile hs with ⟨first, rest, hfirst, _⟩
    rw [hfirst]
    exact List.cons_ne_nil first rest

theorem Shows.composes (h : Shows forest ss)
    (hprofile : r.profiles.get profileId = .ok profile)
    (hok : Renderable r.types ss) {text : String}
    (htext : r.Writes profile forest forest.roots text) :
    r.Composes profileId profile forest text where
  whole := htext
  opened := h.map_fst_marks r profile hok
  once := by
    rw [h.map_fst_marks r profile hok]
    exact h.shown_nodup
  nodes := fun _ _ hrow hshown => h.embeds hprofile hok hrow hshown
  body := h.entries_flatMap hok
  empty := h.body_eq_empty_iff hok profile
  imports := fun _ _ => h.has_imports_iff hok
  joined := fun hbare => h.joined hprofile hok hbare htext

theorem Shows.renderable_of_render (h : Shows forest ss) {text : String}
    (hprofile : r.profiles.get profileId = .ok profile)
    (htext : (r.render forest profileId).answer = .ok text) :
    Renderable r.types ss ∧ r.Writes profile forest forest.roots text := by
  have hok := (h.report_ok_iff r profile).mp
  unfold Renderer.render at htext
  rw [hprofile] at htext
  exact ⟨hok ⟨text, htext⟩, Draft.assembled_of_answer htext⟩

/-- In every rendering of every forest that edits can make, the lines of each
node that is not hidden stand together, and are those of the node on its own. -/
theorem ofEdits_renderings_compose (registry : Registry) (options : Options)
    (requests : List Edit) (r : Renderer) (profileId text : String)
    (htext : (r.render (ofEdits registry options requests) profileId).answer =
      .ok text) :
    exists profile, r.profiles.get profileId = .ok profile ∧
      r.Composes profileId profile (ofEdits registry options requests) text := by
  rcases exists_shows_ofEdits registry options requests with ⟨ss, h⟩
  cases hprofile : r.profiles.get profileId with
  | error e =>
      unfold Renderer.render at htext
      rw [hprofile] at htext
      cases htext
  | ok profile =>
      rcases h.renderable_of_render hprofile htext with ⟨hok, hwrites⟩
      exact ⟨profile, rfl, h.composes hprofile hok hwrites⟩

theorem renderings_compose_of_card :
    let forest := ofEdits .standard ⟨true⟩
      [.insert .card none, .insert .text (some (NodeId.generate .card 1))]
    exists text profile,
      (Renderer.render ⟨.standard, .standard⟩ forest ProfileId.semantic).answer =
        .ok text ∧
      ProfileRegistry.standard.get ProfileId.semantic = .ok profile ∧
      Renderer.Composes ⟨.standard, .standard⟩ ProfileId.semantic profile forest
        text := by
  intro forest
  rcases exists_shows_ofEdits .standard ⟨true⟩
    [.insert .card none, .insert .text (some (NodeId.generate .card 1))] with
    ⟨ss, h⟩
  have hok : Renderable .standard ss :=
    h.renderable_iff.mpr fun node _ => Registry.contains_standard node.type
  rcases (h.report_ok_iff ⟨.standard, .standard⟩ Semantic.profile).mpr hok with
    ⟨text, htext⟩
  rcases ofEdits_renderings_compose .standard ⟨true⟩
    [.insert .card none, .insert .text (some (NodeId.generate .card 1))]
    ⟨.standard, .standard⟩ ProfileId.semantic text htext with
    ⟨profile, hprofile, hcomposes⟩
  exact ⟨text, profile, htext, hprofile, hcomposes⟩

end Forest

end MarkupForest
