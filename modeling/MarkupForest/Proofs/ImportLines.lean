import MarkupForest.Proofs.Blocks
import MarkupForest.Proofs.ByteOrder
import MarkupForest.Proofs.MarkupLiterals

/-!
# Import lines

A rendering with components starts with a line for each module that it needs,
which lists the components that it uses from there.  `ComponentCall.Uses` says
which nodes use a component, and `Renderer.ImportsUsed` that the lines have
these components and no others.
-/

namespace MarkupForest

namespace ComponentCall

/-- Nodes of this type are rendered as a component of a module. -/
def Uses (types : Registry) (type : NodeType) (module name : String) : Prop :=
  profile.supports type = true ∧
    exists descriptor, types.find? type = some descriptor ∧
      descriptor.strategy? ProfileId.componentCall =
        some (.component name (some module))

/-- The nodes that are rendered, by their types and what their descriptors have
for components. -/
noncomputable def choices (types : Registry) (forest : Forest) :
    List (NodeType × Option Strategy) :=
  (Forest.shown types forest).map fun node =>
    (node.type,
      (types.find? node.type).bind (·.strategy? ProfileId.componentCall))

/-- A line for each module, with the names that are imported from it, and a blank
line behind them. -/
def front (imports : Imports) : String :=
  String.join (imports.map fun entry =>
      "import \x7b " ++ String.intercalate ", " entry.2 ++ " \x7d from " ++
        Text.markupFreeLiteral entry.1 ++ ";\n") ++
    if imports.isEmpty then "" else "\n"

end ComponentCall

open Render Forest ComponentCall in
/-- What a rendering with components imports. -/
structure Renderer.ImportsUsed (r : Renderer) (forest : Forest) (text : String) :
    Prop where
  lines : text = front (r.imports ComponentCall.profile forest forest.roots) ++
    String.intercalate "\n" (r.entries ComponentCall.profile forest forest.roots)
  /-- A module is written as a literal that reads back as the module.  Without
  characters that need an escape it stands between quotation marks as it is. -/
  literals : forall module,
    Text.MarkupLiteral module (Text.markupFreeLiteral module) ∧
    ((forall c, c ∈ module.toList → Text.StandsForItself c) →
      Text.markupFreeLiteral module = "\"" ++ module ++ "\"")
  /-- There is one line for a module. -/
  ascending : ((r.imports ComponentCall.profile forest forest.roots).map
    Prod.fst).Pairwise fun module other => Text.bytes module < Text.bytes other
  modules : forall module,
    module ∈ (r.imports ComponentCall.profile forest forest.roots).map Prod.fst ↔
      exists node name, node ∈ shown r.types forest ∧
        Uses r.types node.type module name
  names : forall module names,
    (module, names) ∈ r.imports ComponentCall.profile forest forest.roots →
      (names.Pairwise fun name other => Text.bytes name < Text.bytes other) ∧
      forall name, name ∈ names ↔
        exists node, node ∈ shown r.types forest ∧
          Uses r.types node.type module name
  opened : (r.marks ComponentCall.profile forest).map Prod.fst =
    (shown r.types forest).map Node.id
  /-- A component is opened by the name that is imported. -/
  tags : forall node module name, node ∈ shown r.types forest →
    Uses r.types node.type module name →
      exists names before depth first rest,
        (module, names) ∈ r.imports ComponentCall.profile forest forest.roots ∧
        name ∈ names ∧
        (node.id, before) ∈ r.marks ComponentCall.profile forest ∧
        Pretty.Opens .jsx ⟨name, attributes node, some ⟨name, module⟩⟩ first ∧
        r.entries ComponentCall.profile forest forest.roots =
          before.map (·.write .jsx) ++ Pretty.line depth first :: rest

namespace ComponentCall

open Render

variable {types : Registry} {node : Node} {descriptor : Descriptor}
  {module name : String}

/-!
# Components of nodes
-/

theorem element_of_uses (huses : Uses types node.type module name)
    (htype : types.find? node.type = some descriptor) :
    (profile.element descriptor node).1 =
      ⟨name, attributes node, some ⟨name, module⟩⟩ := by
  rcases huses with ⟨hsupports, found, hfound, hstrategy⟩
  rw [htype] at hfound
  cases hfound
  rcases Option.isSome_iff_exists.mp hsupports with ⟨rule, hrule⟩
  have hstrategy' : descriptor.strategy? profile.id =
      some (.component name (some module)) := hstrategy
  have hemit : rule = emit := Profile.emitter_of_withEmitter hrule
  unfold Profile.element
  rw [hrule, hstrategy', hemit]
  rfl

theorem imported_styled (node : Node) (descriptor : Descriptor) (base : String) :
    (UtilityClass.styled node descriptor base).imported = none := by
  unfold UtilityClass.styled
  simp only
  split
  · rfl
  · rfl

theorem uses_of_imported (htype : types.find? node.type = some descriptor)
    (himported : (profile.element descriptor node).1.imported =
      some ⟨name, module⟩) : Uses types node.type module name := by
  unfold Profile.element at himported
  cases hrule : profile.emitters node.type with
  | none =>
      rw [hrule] at himported
      cases himported
  | some rule =>
      cases hstrategy : descriptor.strategy? profile.id with
      | none =>
          rw [hrule, hstrategy] at himported
          cases himported
      | some strategy =>
          have hemit : rule = emit := Profile.emitter_of_withEmitter hrule
          rw [hrule, hstrategy, hemit] at himported
          refine ⟨Option.isSome_of_eq_some hrule, descriptor, htype, ?_⟩
          cases strategy with
          | declarations list => cases himported
          | classes tokens => cases himported
          | semantic => cases himported
          | component found module? =>
              cases module? with
              | none =>
                  have hnone := imported_styled node descriptor
                    (UtilityClass.baseTokens
                      (descriptor.strategy? ProfileId.utilityClass))
                  exact absurd (hnone.symm.trans himported) (by simp)
              | some m =>
                  cases himported
                  exact hstrategy

theorem imported?_eq_some_iff :
    Pretty.imported? types profile node = some ⟨name, module⟩ ↔
      Uses types node.type module name := by
  unfold Pretty.imported?
  constructor
  · intro himported
    rcases Option.bind_eq_some_iff.mp himported with ⟨descriptor, htype, hself⟩
    exact uses_of_imported htype hself
  · intro huses
    rcases huses.right with ⟨descriptor, htype, _⟩
    rw [htype, Option.bind_some, element_of_uses huses htype]

end ComponentCall

namespace Forest

open Render ComponentCall

variable {forest : Forest} {ss : List Snapshot} {r : Renderer} {node : Node}
  {module name : String}

/-!
# The imports of a rendering
-/

theorem Shows.draft_imports (h : Shows forest ss) (hok : Renderable r.types ss)
    (profile : Profile) :
    (r.draft profile forest forest.roots).imports =
      (shown r.types forest).filterMap (Pretty.imported? r.types profile) := by
  have hdraft : (draftOfList r.types profile 0 none ss).error? = none :=
    draftOfList_ok_iff.mpr hok
  rw [draft_of_roots h, h.shown_eq hok]
  exact (drafted_draftOfList ss 0 none hdraft).printed.right

theorem Shows.has_imports_iff_uses (h : Shows forest ss)
    (hok : Renderable r.types ss) :
    (r.imports ComponentCall.profile forest forest.roots).Has module name ↔
      exists node, node ∈ shown r.types forest ∧
        Uses r.types node.type module name := by
  unfold Renderer.imports
  rw [Imports.has_collect, h.draft_imports hok, List.mem_filterMap]
  exact exists_congr fun node => and_congr_right fun _ => imported?_eq_some_iff

theorem Shows.exists_tag (h : Shows forest ss) (hok : Renderable r.types ss)
    (hprofile : r.profiles.get ProfileId.componentCall = .ok ComponentCall.profile)
    (hnode : node ∈ shown r.types forest)
    (huses : Uses r.types node.type module name) :
    exists before depth first rest,
      (node.id, before) ∈ r.marks ComponentCall.profile forest ∧
      Pretty.Opens .jsx ⟨name, attributes node, some ⟨name, module⟩⟩ first ∧
      r.entries ComponentCall.profile forest forest.roots =
        before.map (·.write .jsx) ++ Pretty.line depth first :: rest := by
  rcases mem_shown_iff.mp hnode with ⟨depth, hrow, hshown⟩
  have hembeds := h.embeds hprofile hok hrow hshown
  rcases hembeds.opening with ⟨descriptor, first, rest, htype, hopens, hfirst⟩
  rcases hembeds.block with ⟨before, after, hmark, hentries⟩
  rw [element_of_uses huses htype] at hopens
  rw [hfirst, List.map_cons, List.cons_append] at hentries
  exact ⟨before, depth, first, _, hmark, hopens, hentries⟩

theorem join_importLines (imports : Imports) :
    String.join ((preamble imports).map (· ++ "\n")) =
      String.join (imports.map fun entry =>
        "import \x7b " ++ String.intercalate ", " entry.2 ++ " \x7d from " ++
          Text.markupFreeLiteral entry.1 ++ ";\n") := by
  unfold preamble
  rw [List.map_map]
  congr 1
  apply List.map_congr_left
  intro entry _
  show _ ++ ";" ++ "\n" = _ ++ ";\n"
  rw [String.append_assoc]
  rfl

theorem Shows.imports_eq_nil (h : Shows forest ss) (hok : Renderable r.types ss)
    (hbody : String.intercalate "\n"
      (r.entries ComponentCall.profile forest forest.roots) = "") :
    r.imports ComponentCall.profile forest forest.roots = [] := by
  have hempty := h.isEmpty_iff.mp ((h.body_eq_empty_iff hok _).mp hbody)
  subst hempty
  unfold Renderer.imports
  rw [draft_of_roots h]
  rfl

theorem Shows.text_eq_front (h : Shows forest ss) (hok : Renderable r.types ss)
    {text : String}
    (htext : r.Writes ComponentCall.profile forest forest.roots text) :
    text = front (r.imports ComponentCall.profile forest forest.roots) ++
      String.intercalate "\n"
        (r.entries ComponentCall.profile forest forest.roots) := by
  have htext : Assembled
      (preamble (r.imports ComponentCall.profile forest forest.roots)) _ text := htext
  unfold front
  rw [← join_importLines]
  by_cases himports : r.imports ComponentCall.profile forest forest.roots = []
  · rw [himports] at htext ⊢
    exact (htext.bare rfl).trans String.empty_append.symm
  · have hlines : preamble (r.imports ComponentCall.profile forest forest.roots) ≠ [] :=
      fun hnil => himports (List.map_eq_nil_iff.mp hnil)
    rw [htext.whole hlines fun hbody => himports (h.imports_eq_nil hok hbody),
      if_neg (by simpa using himports), String.append_assoc]

theorem Shows.importsUsed (h : Shows forest ss) (hok : Renderable r.types ss)
    (hprofile : r.profiles.get ProfileId.componentCall = .ok ComponentCall.profile)
    {text : String}
    (htext : r.Writes ComponentCall.profile forest forest.roots text) :
    r.ImportsUsed forest text := by
  have hascending :
      (r.imports ComponentCall.profile forest forest.roots).Ascending :=
    Imports.ascending_collect _
  refine ⟨h.text_eq_front hok htext, ?_, ?_, ?_, ?_,
    h.map_fst_marks r _ hok, ?_⟩
  · exact fun module =>
      ⟨Text.markupLiteral module, Text.markupFreeLiteral_of_standsForItself⟩
  · rw [List.pairwise_map]
    exact hascending.modules.imp Text.bytes_lt_iff.mpr
  · intro module
    rw [hascending.mem_modules_iff, exists_comm]
    exact exists_congr fun name => h.has_imports_iff_uses hok
  · intro module names hmem
    refine ⟨(hascending.names module names hmem).right.imp Text.bytes_lt_iff.mpr, ?_⟩
    intro name
    exact (hascending.mem_names_iff hmem).trans (h.has_imports_iff_uses hok)
  · intro node module name hnode huses
    rcases (h.has_imports_iff_uses hok).mpr ⟨node, hnode, huses⟩ with
      ⟨names, hmem, hname⟩
    rcases h.exists_tag hok hprofile hnode huses with
      ⟨before, depth, first, rest, htag⟩
    exact ⟨names, before, depth, first, rest, hmem, hname, htag⟩

/-- What is used can be read off the types and their strategies. -/
theorem exists_uses_iff {types : Registry} :
    (exists node, node ∈ shown types forest ∧
        Uses types node.type module name) ↔
      exists type, ComponentCall.profile.supports type = true ∧
        (type, some (.component name (some module))) ∈ choices types forest := by
  unfold choices
  simp only [List.mem_map, Prod.mk.injEq]
  constructor
  · rintro ⟨node, hnode, hsupports, hstrategy⟩
    exact ⟨node.type, hsupports, node, hnode, rfl,
      Option.bind_eq_some_iff.mpr hstrategy⟩
  · rintro ⟨type, hsupports, node, hnode, rfl, hstrategy⟩
    exact ⟨node, hnode, hsupports, Option.bind_eq_some_iff.mp hstrategy⟩

theorem Shows.imports_eq {other : Forest} {others : List Snapshot}
    {s : Renderer} (h : Shows forest ss) (hok : Renderable r.types ss)
    (hother : Shows other others) (hothers : Renderable s.types others)
    (hchoices : (choices r.types forest).Perm (choices s.types other)) :
    r.imports ComponentCall.profile forest forest.roots =
      s.imports ComponentCall.profile other other.roots := by
  refine (Imports.ascending_collect _).eq_of_has_iff (Imports.ascending_collect _) ?_
  intro module name
  refine (h.has_imports_iff_uses hok).trans
    (Iff.trans ?_ (hother.has_imports_iff_uses hothers).symm)
  rw [exists_uses_iff, exists_uses_iff]
  exact exists_congr fun type => and_congr_right fun _ => hchoices.mem_iff

/-- In every rendering with components of every forest that edits can make, what
is imported is what is used, and the import lines do not depend on the order of the
nodes. -/
theorem ofEdits_imports_used (registry : Registry) (options : Options)
    (requests : List Edit) (r : Renderer) (text : String)
    (hprofile : r.profiles.get ProfileId.componentCall = .ok ComponentCall.profile)
    (htext : (r.render (ofEdits registry options requests)
      ProfileId.componentCall).answer = .ok text) :
    let forest := ofEdits registry options requests
    r.ImportsUsed forest text ∧
    forall (types : Registry) (settings : Options) (others : List Edit)
        (s : Renderer) (result : String),
      let other := ofEdits types settings others
      s.profiles.get ProfileId.componentCall = .ok ComponentCall.profile →
      (s.render other ProfileId.componentCall).answer = .ok result →
      (choices r.types forest).Perm (choices s.types other) →
        s.ImportsUsed other result ∧
        r.imports ComponentCall.profile forest forest.roots =
          s.imports ComponentCall.profile other other.roots := by
  intro forest
  rcases exists_shows_ofEdits registry options requests with ⟨ss, h⟩
  rcases h.renderable_of_render hprofile htext with ⟨hok, hwrites⟩
  refine ⟨h.importsUsed hok hprofile hwrites, ?_⟩
  intro types settings others s result other hprofile' hresult hchoices
  rcases exists_shows_ofEdits types settings others with ⟨nested, hother⟩
  rcases hother.renderable_of_render hprofile' hresult with ⟨hothers, hwrites'⟩
  exact ⟨hother.importsUsed hothers hprofile' hwrites',
    h.imports_eq hok hother hothers hchoices⟩

theorem imports_used_by_switch_and_button :
    let r : Renderer := ⟨.standard, .standard⟩
    let forest := ofEdits .standard ⟨true⟩ [.insert .switch none, .insert .button none]
    let other := ofEdits .standard ⟨true⟩ [.insert .button none, .insert .switch none]
    let lines := "import \x7b Button \x7d from \"@/components/ui/button\";\n" ++
      "import \x7b Switch \x7d from \"@/components/ui/switch\";\n\n"
    exists text result,
      (r.render forest ProfileId.componentCall).answer = .ok text ∧
      r.ImportsUsed forest text ∧
      (r.render other ProfileId.componentCall).answer = .ok result ∧
      r.ImportsUsed other result ∧
      (exists body, text = lines ++ body) ∧ exists body, result = lines ++ body := by
  intro r forest other lines
  have h : Shows forest _ := shows_pair rfl rfl
  have hother : Shows other _ := shows_pair rfl rfl
  have hok : forall {forest ss}, Shows forest ss → Renderable r.types ss :=
    fun h => h.renderable_iff.mpr fun node _ => Registry.contains_standard node.type
  rcases (h.report_ok_iff r ComponentCall.profile).mpr (hok h) with ⟨text, htext⟩
  rcases (hother.report_ok_iff r ComponentCall.profile).mpr (hok hother) with
    ⟨result, hresult⟩
  have hchoices : (choices r.types forest).Perm (choices r.types other) := by
    unfold choices
    rw [← h.exposed_eq, ← hother.exposed_eq]
    exact List.Perm.swap _ _ []
  rcases ofEdits_imports_used .standard ⟨true⟩
    [.insert .switch none, .insert .button none] r text rfl htext with
    ⟨hused, horder⟩
  rcases horder .standard ⟨true⟩ _ r result rfl hresult hchoices with
    ⟨hused', hsame⟩
  have hfront : front (r.imports ComponentCall.profile forest forest.roots) =
      lines := by
    unfold Renderer.imports
    rw [draft_of_roots h]
    decide +kernel
  have hfront' := hsame ▸ hfront
  exact ⟨text, result, htext, hused, hresult, hused',
    ⟨_, hfront ▸ hused.lines⟩, ⟨_, hfront' ▸ hused'.lines⟩⟩

end Forest

end MarkupForest
