import MarkupForest.Error
import MarkupForest.Render.Imports

/-!
# Render profiles

A profile is a dialect, a rule for some of the node types, and the lines that
go in front of a rendering.  Types without a rule are rendered generically.
-/

namespace MarkupForest

/-- The lines in front of a rendering, by the components it uses. -/
abbrev Preamble := Imports → List String

structure Profile where
  id : String
  dialect : Dialect
  emitters : NodeType → Option Emitter
  preamble : Preamble

namespace Profile

def bare (id : String) (dialect : Dialect) : Profile where
  id := id
  dialect := dialect
  emitters := fun _ => none
  preamble := fun _ => []

instance : Inhabited Profile := ⟨bare "" .html⟩

/-- Use a rule for every type in a list, replacing earlier rules. -/
def withEmitter (p : Profile) (types : List NodeType) (emitter : Emitter) :
    Profile :=
  { p with
    emitters := fun type => if type ∈ types then some emitter else p.emitters type }

theorem emitter_of_withEmitter {id : String} {dialect : Dialect}
    {types : List NodeType} {rule emit : Emitter} {type : NodeType}
    (h : ((bare id dialect).withEmitter types rule).emitters type =
      some emit) : emit = rule := by
  unfold withEmitter bare at h
  simp only at h
  split at h
  · exact (Option.some_inj.mp h).symm
  · cases h

def withPreamble (p : Profile) (preamble : Preamble) : Profile :=
  { p with preamble }

def supports (p : Profile) (type : NodeType) : Bool :=
  (p.emitters type).isSome

def supported (p : Profile) : List NodeType :=
  NodeType.all.filter p.supports

/-- The element of a node, and whether it is the generic one. -/
def element (p : Profile) (descriptor : Descriptor) (node : Node) :
    Element × Bool :=
  match p.emitters node.type, descriptor.strategy? p.id with
  | some emit, some strategy =>
      (emit { node, descriptor, strategy, dialect := p.dialect }, false)
  | _, _ => (Element.generic node descriptor, true)

end Profile

/-! ## Collections of profiles -/

structure ProfileRegistry where
  profiles : OrderedMap String Profile

namespace ProfileRegistry

protected def empty : ProfileRegistry := ⟨∅⟩

instance : Inhabited ProfileRegistry := ⟨ProfileRegistry.empty⟩

/-- Register a profile; an earlier one of the same identifier is replaced. -/
def register (r : ProfileRegistry) (p : Profile) : ProfileRegistry :=
  ⟨r.profiles.insert p.id p⟩

def find? (r : ProfileRegistry) (id : String) : Option Profile :=
  r.profiles.find? id

def get (r : ProfileRegistry) (id : String) : Except RenderError Profile :=
  match r.find? id with
  | some p => .ok p
  | none => .error (.unknownProfile id)

def ids (r : ProfileRegistry) : List String := r.profiles.keys

theorem exists_of_mem_ids {r : ProfileRegistry} {id : String} (h : id ∈ r.ids) :
    exists p, r.get id = .ok p := by
  unfold get
  cases hfind : r.find? id with
  | none => exact absurd h (OrderedMap.find?_eq_none_iff.mp hfind)
  | some p => exact ⟨p, rfl⟩

theorem get_of_not_mem_ids {r : ProfileRegistry} {id : String} (h : id ∉ r.ids) :
    r.get id = .error (.unknownProfile id) := by
  unfold get find?
  rw [OrderedMap.find?_eq_none_iff.mpr h]

theorem find?_of_get {r : ProfileRegistry} {id : String} {p : Profile}
    (h : r.get id = .ok p) : r.find? id = some p := by
  unfold get at h
  cases hfind : r.find? id with
  | none =>
      rw [hfind] at h
      cases h
  | some q =>
      rw [hfind] at h
      cases h
      rfl

end ProfileRegistry

end MarkupForest
