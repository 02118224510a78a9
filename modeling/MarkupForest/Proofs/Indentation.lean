import MarkupForest.Proofs.Printing

/-!
# Indentation

Where a node stands only shows in the depth of its lines.  A draft that starts
some levels further in has the same lines, moved in by as many levels.
-/

namespace MarkupForest

namespace Line

variable {levels depth : Nat}

theorem indentation_add (m n : Nat) :
    indentation (m + n) = indentation m ++ indentation n := by
  unfold indentation
  rw [Nat.mul_add, List.replicate_add, String.ofList_append]

theorem write_indent (dialect : Dialect) (levels : Nat) (line : Line) :
    (line.indent levels).write dialect =
      indentation levels ++ line.write dialect := by
  unfold write indent
  rw [indentation_add, String.append_assoc]

theorem indent_ofText (content : String) :
    (ofText depth content).map (indent levels) =
      ofText (levels + depth) content := by
  unfold ofText
  cases content.isEmpty with
  | true => rfl
  | false => rfl

theorem indent_ofItems (tag : String) (items : List String) :
    (ofItems depth tag items).map (indent levels) =
      ofItems (levels + depth) tag items := by
  unfold ofItems
  rw [List.map_map]
  rfl

theorem indent_enclosed (tag : String) (lines : List Line) :
    (enclosed depth tag lines).map (indent levels) =
      enclosed (levels + depth) tag (lines.map (indent levels)) := by
  unfold enclosed
  rw [List.map_cons, List.map_append]
  rfl

theorem indent_ofTable (data : TableData) :
    (ofTable depth data).map (indent levels) = ofTable (levels + depth) data := by
  rcases data with ⟨headers, rows⟩
  unfold ofTable
  rw [List.map_append]
  congr 1
  · cases headers with
    | nil => rfl
    | cons header others => exact indent_enclosed "thead" _
  · cases rows with
    | nil => rfl
    | cons cells others =>
        refine (indent_enclosed "tbody" _).trans ?_
        rw [List.map_map]
        rfl

end Line

namespace Layout

variable {levels depth : Nat} {shape : ContentShape} {isGeneric : Bool}
  {node : Node}

def indent (levels : Nat) (layout : Layout) : Layout where
  opening := layout.opening.map (Line.indent levels)
  closing := layout.closing.map (Line.indent levels)

theorem indent_content :
    (content shape isGeneric node depth).map (Line.indent levels) =
      content shape isGeneric node (levels + depth) := by
  cases shape with
  | wrapper => exact Line.indent_ofText _
  | items property tag =>
      simp only [content, List.map_append, Line.indent_ofText, Line.indent_ofItems]
  | table property =>
      simp only [content, List.map_append, Line.indent_ofText, Line.indent_ofTable]
  | selfClosing => rfl

theorem collapsed?_indent (inner : List Line) :
    collapsed? shape node (inner.map (Line.indent levels)) =
      collapsed? shape node inner := by
  unfold collapsed?
  rw [List.isEmpty_map]

theorem ofElement_indent (element : Element) (shape : ContentShape)
    (isGeneric : Bool) (node : Node) (levels depth : Nat) :
    ofElement element shape isGeneric node (levels + depth) =
      (ofElement element shape isGeneric node depth).indent levels := by
  by_cases hshape : shape = .selfClosing
  · cases hshape
    rfl
  · have hcontent : content shape isGeneric node (levels + depth + 1) =
        (content shape isGeneric node (depth + 1)).map (Line.indent levels) := by
      rw [indent_content, Nat.add_assoc]
    rw [Render.ofElement_of_ne element hshape, Render.ofElement_of_ne element hshape,
      hcontent, collapsed?_indent]
    cases collapsed? shape node (content shape isGeneric node (depth + 1)) with
    | none => rfl
    | some fragments => rfl

end Layout

namespace Render

def Visit.indent (levels : Nat) (v : Visit) : Visit :=
  { v with layout := v.layout.indent levels }

def Draft.indent (levels : Nat) (draft : Draft) : Draft :=
  { draft with lines := draft.lines.map (Line.indent levels) }

variable {types : Registry} {profile : Profile} {parent : Option NodeId}

theorem Draft.indent_append (levels : Nat) (first second : Draft) :
    (first.append second).indent levels =
      (first.indent levels).append (second.indent levels) := by
  rcases first with ⟨lines, imports, notices, error?⟩
  cases error? with
  | none => simp [append, prepend, indent]
  | some e => rfl

theorem visitNode_indent (profile : Profile) (descriptor : Descriptor)
    (node : Node) (levels depth : Nat) :
    visitNode profile descriptor node (levels + depth) =
      (visitNode profile descriptor node depth).indent levels := by
  unfold visitNode Visit.indent Layout.indent
  simp only [Layout.ofElement_indent, Layout.indent, Option.isSome_map]

theorem Visit.draft_indent (levels : Nat) (v : Visit) (children : Draft) :
    (v.indent levels).draft (children.indent levels) =
      (v.draft children).indent levels := by
  have hfinish : (v.indent levels).finish (children.indent levels) =
      (v.finish children).indent levels := by
    rcases v with ⟨⟨opening, closing⟩, imported, notices, below⟩
    cases closing with
    | none => rfl
    | some closing =>
        exact (Draft.indent_append levels children (Draft.ofLine closing)).symm
  unfold draft
  rw [hfinish]
  simp [Draft.prepend, Draft.indent, Visit.indent, Layout.indent]

/-- A draft that starts further in has the same lines, moved in. -/
theorem draftOfList_indent (levels : Nat) (ss : List Snapshot) :
    forall depth parent,
      draftOfList types profile (levels + depth) parent ss =
        (draftOfList types profile depth parent ss).indent levels := by
  induction ss using Snapshot.nested_induction with
  | nil =>
      intro depth parent
      rfl
  | cons id type properties below rest ihbelow ihrest =>
      intro depth parent
      rw [draftOfList_cons, draftOfList_cons, Draft.indent_append, ihrest]
      congr 1
      cases htype : types.find? type with
      | none =>
          rw [draftOf_of_unknown htype, draftOf_of_unknown htype]
          rfl
      | some descriptor =>
          rw [draftOf_of_known htype, draftOf_of_known htype, visitNode_indent,
            Nat.add_assoc, ihbelow, Visit.draft_indent]

theorem draftOf_indent (levels depth : Nat) (parent : Option NodeId)
    (s : Snapshot) :
    draftOf types profile (levels + depth) parent s =
      (draftOf types profile depth parent s).indent levels := by
  rw [← draftOfList_singleton, ← draftOfList_singleton]
  exact draftOfList_indent levels [s] depth parent

end Render

end MarkupForest
