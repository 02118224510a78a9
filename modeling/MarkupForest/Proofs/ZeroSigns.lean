import MarkupForest.Profile.InlineStyle
import MarkupForest.Render.Line
import Mathlib.Data.List.Perm.Subperm

/-!
# The sign of zero

The two zeros are equal as numbers, and no writer tells them apart.  Values
that are compared numerically become equal once the sign of zero is dropped, so
what is written is a function of the value without it.
-/

namespace MarkupForest

/-!
# Numbers
-/

namespace Binary64

/-- The number, where a zero loses its sign. -/
def dropZeroSign : Binary64 → Binary64
  | nan => nan
  | infinite negative => infinite negative
  | finite negative x =>
      if x.significand = 0 then Binary64.zero else finite negative x

theorem dropZeroSign_of_zero {x : Magnitude} (h : x.significand = 0)
    (negative : Bool) : (finite negative x).dropZeroSign = Binary64.zero :=
  if_pos h

theorem dropZeroSign_of_ne {x : Magnitude} (h : x.significand ≠ 0)
    (negative : Bool) :
    (finite negative x).dropZeroSign = finite negative x :=
  if_neg h

theorem dropZeroSign_eq_of_equal {x y : Binary64} (h : x.equal y = true) :
    x.dropZeroSign = y.dropZeroSign := by
  cases x with
  | nan => cases h
  | infinite s =>
      cases y with
      | nan => cases h
      | infinite t =>
          rw [eq_of_beq h]
      | finite t y => cases h
  | finite s x =>
      cases y with
      | nan => cases h
      | infinite t => cases h
      | finite t y =>
          change (if x.significand = 0 then y.significand == 0
            else s == t && decide (x = y)) = true at h
          by_cases hx : x.significand = 0
          · rw [if_pos hx] at h
            rw [dropZeroSign_of_zero hx, dropZeroSign_of_zero (eq_of_beq h)]
          · rw [if_neg hx, Bool.and_eq_true, decide_eq_true_eq] at h
            rcases h with ⟨hsign, rfl⟩
            rw [eq_of_beq hsign]

theorem floor_of_zero {x : Magnitude} (h : x.significand = 0) : x.floor = 0 := by
  unfold Magnitude.floor Magnitude.units
  rw [h, Nat.zero_mul, Nat.zero_div]

theorem isWhole_of_zero {x : Magnitude} (h : x.significand = 0) :
    x.isWhole = true := by
  unfold Magnitude.isWhole Magnitude.units
  rw [h, Nat.zero_mul, Nat.zero_mod]
  rfl

theorem truncate_of_zero {x : Magnitude} (h : x.significand = 0)
    (negative : Bool) : (finite negative x).truncate = 0 := by
  show (if negative = true then max wordMin (-(x.floor : Int))
    else min wordMax (x.floor : Int)) = 0
  rw [floor_of_zero h]
  cases negative <;> rfl

theorem plainText_of_zero {x : Magnitude} (h : x.significand = 0)
    (negative : Bool) : (finite negative x).plainText = toString (0 : Int) := by
  have hplain : (finite negative x).isPlainInteger = true := by
    show (x.isWhole && decide (x.floor < integerBound)) = true
    rw [isWhole_of_zero h, floor_of_zero h]
    rfl
  unfold plainText
  rw [if_pos hplain, truncate_of_zero h]

@[simp] theorem dropZeroSign_dropZeroSign (x : Binary64) :
    x.dropZeroSign.dropZeroSign = x.dropZeroSign := by
  cases x with
  | nan => rfl
  | infinite negative => rfl
  | finite negative x =>
      by_cases hx : x.significand = 0
      · rw [dropZeroSign_of_zero hx]
        rfl
      · rw [dropZeroSign_of_ne hx, dropZeroSign_of_ne hx]

@[simp] theorem truncate_dropZeroSign (x : Binary64) :
    x.dropZeroSign.truncate = x.truncate := by
  cases x with
  | nan => rfl
  | infinite negative => rfl
  | finite negative x =>
      by_cases hx : x.significand = 0
      · rw [dropZeroSign_of_zero hx, truncate_of_zero hx]
        exact truncate_of_zero rfl false
      · rw [dropZeroSign_of_ne hx]

@[simp] theorem plainText_dropZeroSign (x : Binary64) :
    x.dropZeroSign.plainText = x.plainText := by
  cases x with
  | nan => rfl
  | infinite negative => rfl
  | finite negative x =>
      by_cases hx : x.significand = 0
      · rw [dropZeroSign_of_zero hx, plainText_of_zero hx]
        exact plainText_of_zero rfl false
      · rw [dropZeroSign_of_ne hx]

theorem truncate_eq {x y : Binary64} (h : x.dropZeroSign = y.dropZeroSign) :
    x.truncate = y.truncate := by
  rw [← truncate_dropZeroSign x, h, truncate_dropZeroSign]

end Binary64

/-!
# Maps
-/

namespace OrderedMap

variable {κ ν ω : Type} [DecidableEq κ]

theorem find?_rel_of_equalBy {related : ν → ω → Bool} {m : OrderedMap κ ν}
    {n : OrderedMap κ ω} (h : equalBy related m n = true) (key : κ) :
    Option.Rel (fun v w => related v w = true) (m.find? key) (n.find? key) := by
  unfold equalBy at h
  rw [Bool.and_eq_true, beq_iff_eq, List.all_eq_true] at h
  rcases h with ⟨hsize, hentries⟩
  have hfound : forall key value, (key, value) ∈ m.entries →
      exists other, n.find? key = some other ∧ related value other = true := by
    intro key value hmem
    have hentry := hentries (key, value) hmem
    cases hother : n.find? key with
    | none => simp [hother] at hentry
    | some other => exact ⟨other, rfl, by simpa [hother] using hentry⟩
  have hsubset : m.keys ⊆ n.keys := by
    intro key hkey
    rcases List.mem_map.mp hkey with ⟨entry, hentry, rfl⟩
    rcases hfound entry.1 entry.2 hentry with ⟨other, hother, _⟩
    exact List.mem_map_of_mem (mem_of_find? hother)
  -- equally many distinct keys, so no key is left over on the right
  have hperm : m.keys.Perm n.keys := by
    apply (List.subperm_of_subset m.keys_nodup hsubset).perm_of_length_le
    unfold keys
    rw [List.length_map, List.length_map]
    exact Nat.le_of_eq hsize.symm
  cases hvalue : m.find? key with
  | some value =>
      rcases hfound key value (mem_of_find? hvalue) with ⟨other, hother, hrelated⟩
      rw [hother]
      exact Option.Rel.some hrelated
  | none =>
      rw [find?_eq_none_iff, hperm.mem_iff, ← find?_eq_none_iff] at hvalue
      rw [hvalue]
      exact Option.Rel.none

end OrderedMap

/-!
# Property values
-/

namespace PropertyValue

def dropZeroSign : PropertyValue → PropertyValue
  | number x => number x.dropZeroSign
  | value => value

theorem dropZeroSign_eq_of_equal {v w : PropertyValue} (h : v.equal w = true) :
    v.dropZeroSign = w.dropZeroSign := by
  unfold equal at h
  split at h
  · rename_i x y
    show number x.dropZeroSign = number y.dropZeroSign
    rw [Binary64.dropZeroSign_eq_of_equal h]
  · rw [of_decide_eq_true h]

@[simp] theorem text?_dropZeroSign (v : PropertyValue) :
    v.dropZeroSign.text? = v.text? := by
  cases v <;> rfl

@[simp] theorem flag?_dropZeroSign (v : PropertyValue) :
    v.dropZeroSign.flag? = v.flag? := by
  cases v <;> rfl

@[simp] theorem list?_dropZeroSign (v : PropertyValue) :
    v.dropZeroSign.list? = v.list? := by
  cases v <;> rfl

@[simp] theorem table?_dropZeroSign (v : PropertyValue) :
    v.dropZeroSign.table? = v.table? := by
  cases v <;> rfl

@[simp] theorem number?_dropZeroSign (v : PropertyValue) :
    v.dropZeroSign.number? = v.number?.map Binary64.dropZeroSign := by
  cases v <;> rfl

@[simp] theorem lengthText_dropZeroSign (v : PropertyValue) :
    InlineStyle.lengthText v.dropZeroSign = InlineStyle.lengthText v := by
  cases v with
  | number x =>
      show x.dropZeroSign.plainText ++ "px" = x.plainText ++ "px"
      rw [Binary64.plainText_dropZeroSign]
  | text content => rfl
  | flag content => rfl
  | list items => rfl
  | table content => rfl

end PropertyValue

theorem Properties.find?_of_equal {p q : Properties}
    (h : Properties.equal p q = true) (key : String) :
    (p.find? key).map PropertyValue.dropZeroSign =
      (q.find? key).map PropertyValue.dropZeroSign := by
  have hrel := OrderedMap.find?_rel_of_equalBy h key
  generalize p.find? key = v at hrel ⊢
  generalize q.find? key = w at hrel ⊢
  cases hrel with
  | some hrelated =>
      rw [Option.map_some, Option.map_some,
        PropertyValue.dropZeroSign_eq_of_equal hrelated]
  | none => rfl

/-!
# Attributes
-/

namespace Attribute

def dropZeroSign : Attribute → Attribute
  | ⟨name, .number x⟩ => ⟨name, .number x.dropZeroSign⟩
  | a => a

theorem dropZeroSign_dropZeroSign (a : Attribute) :
    a.dropZeroSign.dropZeroSign = a.dropZeroSign := by
  rcases a with ⟨name, value⟩
  cases value with
  | number x =>
      show number name x.dropZeroSign.dropZeroSign = number name x.dropZeroSign
      rw [Binary64.dropZeroSign_dropZeroSign]
  | text content => rfl
  | flag content => rfl

theorem ofProperty?_dropZeroSign (name : String) (v : PropertyValue) :
    ofProperty? name v.dropZeroSign = (ofProperty? name v).map dropZeroSign := by
  cases v <;> rfl

theorem write?_dropZeroSign (dialect : Dialect) (a : Attribute) :
    a.dropZeroSign.write? dialect = a.write? dialect := by
  rcases a with ⟨name, value⟩
  cases value with
  | number x =>
      cases dialect with
      | html => simp [dropZeroSign, write?, valueText?]
      | jsx => simp [dropZeroSign, write?, valueText?]
  | text content => rfl
  | flag content => rfl

theorem writeAll_dropZeroSign (dialect : Dialect) (attributes : List Attribute) :
    writeAll dialect (attributes.map dropZeroSign) = writeAll dialect attributes := by
  have hwrite : write? dialect ∘ dropZeroSign = write? dialect :=
    funext (write?_dropZeroSign dialect)
  unfold writeAll
  rw [List.filterMap_map, hwrite]

end Attribute

/-- Elements that are written alike. -/
structure Element.Alike (e f : Element) : Prop where
  tag : e.tag = f.tag
  attributes :
    e.attributes.map Attribute.dropZeroSign =
      f.attributes.map Attribute.dropZeroSign
  imported : e.imported = f.imported

theorem Element.Alike.writeAll {e f : Element} (h : e.Alike f)
    (dialect : Dialect) :
    Attribute.writeAll dialect e.attributes =
      Attribute.writeAll dialect f.attributes := by
  rw [← Attribute.writeAll_dropZeroSign, h.attributes,
    Attribute.writeAll_dropZeroSign]

end MarkupForest
