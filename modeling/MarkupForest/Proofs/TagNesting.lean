import MarkupForest.Proofs.Printing
import MarkupForest.Proofs.TagScan

/-!
# Nested elements

Tags that are balanced with equal names stand for nested elements.  The tags of
a rendering stand for one element per node, nested as the nodes are, with the
elements of items and tables in front of those of the children.
-/

namespace MarkupForest

namespace Markup

/-- An element and the elements in it. -/
inductive Nest where
  | element (name : String) (content : List Nest)

mutual

def Nest.decideEq : (m n : Nest) → Decidable (m = n)
  | .element a xs, .element b ys =>
      match decEq a b, Nest.decideEqList xs ys with
      | isTrue ha, isTrue hxs => isTrue (by rw [ha, hxs])
      | isFalse ha, _ => isFalse fun h => ha (Nest.element.inj h).left
      | _, isFalse hxs => isFalse fun h => hxs (Nest.element.inj h).right

def Nest.decideEqList : (xs ys : List Nest) → Decidable (xs = ys)
  | [], [] => isTrue rfl
  | [], _ :: _ => isFalse nofun
  | _ :: _, [] => isFalse nofun
  | x :: xs, y :: ys =>
      match Nest.decideEq x y, Nest.decideEqList xs ys with
      | isTrue hx, isTrue hxs => isTrue (by rw [hx, hxs])
      | isFalse hx, _ => isFalse fun h => hx (List.cons.inj h).left
      | _, isFalse hxs => isFalse fun h => hxs (List.cons.inj h).right

end

instance : DecidableEq Nest := Nest.decideEq

/-- Put tags together into elements.  The elements that are still open are kept
with the elements before them, those of the innermost one are `done`, all with
the latest first.  A tag that closes another element than the innermost one is
an error, and so is an element that stays open. -/
def nest (above : List (String × List Nest)) (done : List Nest) :
    List Tag → Option (List Nest)
  | [] =>
      match above with
      | [] => some done.reverse
      | _ :: _ => none
  | .opening name :: rest => nest ((name, done) :: above) [] rest
  | .closing name :: rest =>
      match above with
      | (opened, before) :: above =>
          if opened = name then
            nest above (.element name done.reverse :: before) rest
          else
            none
      | [] => none
  | .selfClosing name :: rest => nest above (.element name [] :: done) rest

/-- The elements that a text consists of. -/
def elements? (text : String) : Option (List Nest) :=
  (scan none text.toList).bind (nest [] [])

/-- Tags that make these elements, wherever they stand. -/
def Balanced (tags : List Tag) (nests : List Nest) : Prop :=
  forall above done rest,
    nest above done (tags ++ rest) = nest above (nests.reverse ++ done) rest

variable {tags others : List Tag} {nests more : List Nest}

theorem balanced_nil : Balanced [] [] := fun _ _ _ => rfl

theorem Balanced.append (h : Balanced tags nests) (h' : Balanced others more) :
    Balanced (tags ++ others) (nests ++ more) := by
  intro above done rest
  rw [List.append_assoc, h, h', List.reverse_append, List.append_assoc]

theorem balanced_selfClosing (name : String) :
    Balanced [.selfClosing name] [.element name []] := fun _ _ _ => rfl

theorem Balanced.enclose (name : String) (h : Balanced tags nests) :
    Balanced (.opening name :: (tags ++ [.closing name]))
      [.element name nests] := by
  intro above done rest
  show nest ((name, done) :: above) [] ((tags ++ [.closing name]) ++ rest) = _
  rw [List.append_assoc, h, List.append_nil]
  show (if name = name then
    nest above (.element name nests.reverse.reverse :: done) rest else none) = _
  rw [if_pos rfl, List.reverse_reverse]
  rfl

theorem balanced_flatMap {xs : List alpha} {f : alpha → List Tag}
    {g : alpha → Nest} (h : forall x, x ∈ xs → Balanced (f x) [g x]) :
    Balanced (xs.flatMap f) (xs.map g) := by
  induction xs with
  | nil => exact balanced_nil
  | cons x xs ih =>
      have hxs := ih fun y hy => h y (List.mem_cons_of_mem _ hy)
      exact (h x List.mem_cons_self).append hxs

theorem Balanced.nest_eq (h : Balanced tags nests) :
    nest [] [] tags = some nests := by
  have hall := h [] [] []
  rw [List.append_nil, List.append_nil] at hall
  rw [hall]
  show some nests.reverse.reverse = some nests
  rw [List.reverse_reverse]

end Markup

namespace Render

open Markup (Nest Tag Balanced balanced_nil balanced_selfClosing
  balanced_flatMap)

/-!
# The elements of nested nodes
-/

/-- One element per item. -/
def itemNests (tag : String) (items : List String) : List Nest :=
  items.map fun _ => .element tag []

def rowNest (tag : String) (cells : List String) : Nest :=
  .element "tr" (cells.map fun _ => .element tag [])

/-- Head and body of a table; a part without content has no element. -/
def tableNests (data : TableData) : List Nest :=
  (match data.headers with
    | [] => []
    | headers => [.element "thead" [rowNest "th" headers]]) ++
  (match data.rows with
    | [] => []
    | rows => [.element "tbody" (rows.map (rowNest "td"))])

/-- The elements of the items or the table of a node. -/
def contentNests (shape : ContentShape) (node : Node) : List Nest :=
  match shape with
  | .items property tag => itemNests tag (Pretty.items node property)
  | .table property => tableNests (Pretty.table node property)
  | _ => []

/-- The elements in the element of a node: those of its items or table, then
those of its children; there are none where the element closes itself. -/
def innerNests (shape : ContentShape) (node : Node) (children : List Nest) :
    List Nest :=
  match shape with
  | .selfClosing => []
  | shape => contentNests shape node ++ children

section

variable (types : Registry) (profile : Profile)

mutual

/-- The element of a node. -/
def nestOf (parent : Option NodeId) : Snapshot → Nest
  | .node id type properties below =>
      match types.find? type with
      | none => .element type.name []
      | some descriptor =>
          let node := (Snapshot.node id type properties below).toNode parent
          .element (profile.element descriptor node).1.tag
            (innerNests descriptor.shape node (nestsOf (some id) below))

def nestsOf (parent : Option NodeId) : List Snapshot → List Nest
  | [] => []
  | s :: rest => nestOf parent s :: nestsOf parent rest

end

end

theorem nestsOf_eq_map {types : Registry} {profile : Profile}
    (parent : Option NodeId) (ss : List Snapshot) :
    nestsOf types profile parent ss = ss.map (nestOf types profile parent) := by
  induction ss with
  | nil => rfl
  | cons s rest ih =>
      rw [List.map_cons, ← ih]
      rfl

/-!
# Tags of content
-/

variable {depth : Nat}

theorem tags_wrapped (tag content : String) :
    Balanced ((Fragment.wrapped tag content).flatMap Fragment.tags)
      [.element tag []] :=
  balanced_nil.enclose tag

theorem tags_ofText (content : String) :
    (Line.ofText depth content).flatMap Line.tags = [] := by
  unfold Line.ofText
  split
  · rfl
  · rfl

theorem balanced_ofItems (tag : String) (items : List String) :
    Balanced ((Line.ofItems depth tag items).flatMap Line.tags)
      (itemNests tag items) := by
  unfold Line.ofItems
  rw [List.flatMap_map]
  exact balanced_flatMap fun item _ => tags_wrapped tag item

theorem balanced_ofCells (tag : String) (cells : List String) :
    Balanced (Line.ofCells depth tag cells).tags [rowNest tag cells] := by
  have hcells : Balanced
      ((cells.flatMap (Fragment.wrapped tag)).flatMap Fragment.tags)
      (cells.map fun _ => Nest.element tag []) := by
    rw [List.flatMap_assoc]
    exact balanced_flatMap fun cell _ => tags_wrapped tag cell
  have hrow := hcells.enclose "tr"
  unfold Line.tags Line.ofCells
  rw [List.flatMap_cons, List.flatMap_append]
  exact hrow

theorem balanced_enclosed {lines : List Line} {nests : List Nest}
    (tag : String) (h : Balanced (lines.flatMap Line.tags) nests) :
    Balanced ((Line.enclosed depth tag lines).flatMap Line.tags)
      [.element tag nests] := by
  have hall := h.enclose tag
  unfold Line.enclosed
  rw [List.flatMap_cons, List.flatMap_append]
  exact hall

theorem balanced_ofTable (data : TableData) :
    Balanced ((Line.ofTable depth data).flatMap Line.tags) (tableNests data) := by
  rcases data with ⟨headers, rows⟩
  unfold Line.ofTable tableNests
  rw [List.flatMap_append]
  apply Balanced.append
  · cases headers with
    | nil => exact balanced_nil
    | cons header others =>
        apply balanced_enclosed
        rw [List.flatMap_singleton]
        exact balanced_ofCells "th" (header :: others)
  · cases rows with
    | nil => exact balanced_nil
    | cons cells others =>
        apply balanced_enclosed
        rw [List.flatMap_map]
        exact balanced_flatMap fun cells _ => balanced_ofCells "td" cells

theorem balanced_content (depth : Nat) (shape : ContentShape)
    (isGeneric : Bool) (node : Node) :
    Balanced ((Layout.content shape isGeneric node depth).flatMap Line.tags)
      (contentNests shape node) := by
  cases shape with
  | wrapper =>
      show Balanced ((Line.ofText depth _).flatMap Line.tags) []
      rw [tags_ofText]
      exact balanced_nil
  | items property tag =>
      show Balanced ((Line.ofText depth _ ++ Line.ofItems depth tag _).flatMap
        Line.tags) _
      rw [List.flatMap_append, tags_ofText, itemsOf_eq]
      exact balanced_ofItems tag _
  | table property =>
      show Balanced ((Line.ofText depth _ ++ Line.ofTable depth _).flatMap
        Line.tags) _
      rw [List.flatMap_append, tags_ofText, tableOf_eq]
      exact balanced_ofTable _
  | selfClosing => exact balanced_nil

/-!
# Tags of nodes
-/

theorem collapsed?_of_ne {shape : ContentShape} (h : shape ≠ .wrapper)
    (node : Node) (inner : List Line) :
    Layout.collapsed? shape node inner =
      if node.hasChildren then none
      else if inner.isEmpty then some []
      else none := by
  cases shape with
  | wrapper => exact absurd rfl h
  | items property tag => rfl
  | table property => rfl
  | selfClosing => rfl

theorem collapsed_content {shape : ContentShape} {isGeneric : Bool}
    {node : Node} {fragments : List Fragment}
    (h : Layout.collapsed? shape node
      (Layout.content shape isGeneric node depth) = some fragments) :
    fragments.flatMap Fragment.tags = [] ∧ contentNests shape node = [] ∧
      node.hasChildren = false := by
  cases hchildren : node.hasChildren with
  | true => simp [Layout.collapsed?, hchildren] at h
  | false =>
      by_cases hwrapper : shape = .wrapper
      · cases hwrapper
        simp only [Layout.collapsed?, hchildren] at h
        cases h
        exact ⟨rfl, rfl, rfl⟩
      · rw [collapsed?_of_ne hwrapper, hchildren] at h
        cases hlines : (Layout.content shape isGeneric node depth).isEmpty with
        | false => simp [hlines] at h
        | true =>
            have hcontent := balanced_content depth shape isGeneric node
            rw [List.isEmpty_iff.mp hlines] at hcontent
            simp only [hlines] at h
            cases h
            exact ⟨rfl, (Option.some_inj.mp hcontent.nest_eq).symm, rfl⟩

variable {types : Registry} {profile : Profile} {descriptor : Descriptor}
  {id : NodeId} {type : NodeType} {properties : Properties}
  {below : List Snapshot} {parent : Option NodeId}

theorem nestOf_of_known (h : types.find? type = some descriptor) :
    nestOf types profile parent (.node id type properties below) =
      .element
        (profile.element descriptor
          ((Snapshot.node id type properties below).toNode parent)).1.tag
        (innerNests descriptor.shape
          ((Snapshot.node id type properties below).toNode parent)
          (nestsOf types profile (some id) below)) := by
  unfold nestOf
  rw [h]

theorem innerNests_of_ne {shape : ContentShape} (h : shape ≠ .selfClosing)
    (node : Node) (children : List Nest) :
    innerNests shape node children = contentNests shape node ++ children := by
  cases shape with
  | selfClosing => exact absurd rfl h
  | wrapper => rfl
  | items property tag => rfl
  | table property => rfl

theorem balanced_closed (htype : types.find? type = some descriptor)
    (hclosing : (visitNode profile descriptor
      ((Snapshot.node id type properties below).toNode parent)
      depth).layout.closing = none) :
    Balanced
      ((visitNode profile descriptor
        ((Snapshot.node id type properties below).toNode parent)
        depth).layout.opening.flatMap Line.tags)
      [nestOf types profile parent (.node id type properties below)] := by
  let node := (Snapshot.node id type properties below).toNode parent
  let element := (profile.element descriptor node).1
  let isGeneric := (profile.element descriptor node).2
  have hlayout : (visitNode profile descriptor node depth).layout =
      Layout.ofElement element descriptor.shape isGeneric node depth := rfl
  rw [nestOf_of_known htype]
  rw [hlayout] at hclosing ⊢
  by_cases hshape : descriptor.shape = .selfClosing
  · rw [hshape]
    exact balanced_selfClosing element.tag
  · rw [ofElement_of_ne element hshape] at hclosing ⊢
    rw [innerNests_of_ne hshape]
    cases hinner : Layout.collapsed? descriptor.shape node
        (Layout.content descriptor.shape isGeneric node (depth + 1)) with
    | none =>
        rw [hinner] at hclosing
        cases hclosing
    | some fragments =>
        rcases collapsed_content hinner with ⟨htags, hnests, hchildren⟩
        have hbelow : below = [] := by
          have hmap : (below.map Snapshot.id).isEmpty = true := by
            simpa [Node.hasChildren, node] using hchildren
          simpa using hmap
        have hcontent : contentNests descriptor.shape node ++
            nestsOf types profile (some id) below = [] := by
          rw [hnests, hbelow]
          rfl
        have hline : [(⟨depth, .openTag element.tag element.attributes ::
            (fragments ++ [.closeTag element.tag])⟩ : Line)].flatMap Line.tags =
              .opening element.tag :: ([] ++ [.closing element.tag]) := by
          rw [List.flatMap_singleton]
          unfold Line.tags
          rw [List.flatMap_cons, List.flatMap_append, htags]
          rfl
        simp only
        rw [hline, hcontent]
        exact balanced_nil.enclose element.tag

/-- The tags of a node around those of its children. -/
theorem balanced_opened {finish : Line} {tags : List Tag}
    (htype : types.find? type = some descriptor)
    (hclosing : (visitNode profile descriptor
      ((Snapshot.node id type properties below).toNode parent)
      depth).layout.closing = some finish)
    (hbelow : Balanced tags (nestsOf types profile (some id) below)) :
    Balanced
      ((visitNode profile descriptor
          ((Snapshot.node id type properties below).toNode parent)
          depth).layout.opening.flatMap Line.tags ++ (tags ++ finish.tags))
      [nestOf types profile parent (.node id type properties below)] := by
  let node := (Snapshot.node id type properties below).toNode parent
  let element := (profile.element descriptor node).1
  let isGeneric := (profile.element descriptor node).2
  have hlayout : (visitNode profile descriptor node depth).layout =
      Layout.ofElement element descriptor.shape isGeneric node depth := rfl
  rw [nestOf_of_known htype]
  rw [hlayout] at hclosing ⊢
  by_cases hshape : descriptor.shape = .selfClosing
  · rw [hshape] at hclosing
    cases hclosing
  · rw [ofElement_of_ne element hshape] at hclosing ⊢
    rw [innerNests_of_ne hshape]
    cases hinner : Layout.collapsed? descriptor.shape node
        (Layout.content descriptor.shape isGeneric node (depth + 1)) with
    | some fragments =>
        rw [hinner] at hclosing
        cases hclosing
    | none =>
        rw [hinner] at hclosing
        cases hclosing
        have hall := ((balanced_content (depth + 1) descriptor.shape isGeneric
          node).append hbelow).enclose element.tag
        simp only
        rw [List.flatMap_cons, List.append_assoc, ← List.append_assoc _ tags]
        exact hall

theorem Drafted.balanced {ss : List Snapshot} {lines : List Line}
    {imports : List Import}
    (h : Drafted types profile depth parent ss lines imports) :
    Balanced (lines.flatMap Line.tags) (nestsOf types profile parent ss) := by
  induction h with
  | nil => exact balanced_nil
  | closed htype hclosing hrest ihrest =>
      rw [List.flatMap_append]
      exact (balanced_closed htype hclosing).append ihrest
  | opened htype hclosing hbelow hrest ihbelow ihrest =>
      rw [List.flatMap_append, List.flatMap_append, List.flatMap_append,
        List.flatMap_singleton]
      exact (balanced_opened htype hclosing ihbelow).append ihrest

end Render

end MarkupForest
