/-!
# Maps in insertion order

A finite map that remembers the order in which its keys were first inserted.
Inserting a key that is present replaces its value in place.  Every key occurs
once; the type keeps that as a proof, so two maps with the same entries are
equal.

The view of a map is `find?`; the lemmas at the end say what it finds, and what
each operation does to it and to the order of the keys.
-/

namespace MarkupForest

universe u v w

/-- Pairs of a key and a value, in order, with distinct keys. -/
structure OrderedMap (κ : Type u) (ν : Type v) where
  entries : List (κ × ν)
  keys_nodup : (entries.map Prod.fst).Nodup

namespace OrderedMap

variable {κ : Type u} {ν : Type v} {ω : Type w}

protected def empty : OrderedMap κ ν :=
  ⟨[], List.nodup_nil⟩

instance : EmptyCollection (OrderedMap κ ν) := ⟨OrderedMap.empty⟩

instance : Inhabited (OrderedMap κ ν) := ⟨OrderedMap.empty⟩

instance [DecidableEq κ] [DecidableEq ν] : DecidableEq (OrderedMap κ ν) :=
  fun m n =>
    decidable_of_iff (m.entries = n.entries) (by
      cases m
      cases n
      simp)

def keys (m : OrderedMap κ ν) : List κ :=
  m.entries.map Prod.fst

def size (m : OrderedMap κ ν) : Nat :=
  m.entries.length

def isEmpty (m : OrderedMap κ ν) : Bool :=
  m.entries.isEmpty

section Lookup

variable [DecidableEq κ]

def find? (m : OrderedMap κ ν) (key : κ) : Option ν :=
  m.entries.lookup key

def contains (m : OrderedMap κ ν) (key : κ) : Bool :=
  (m.find? key).isSome

/-- Replace the value of a key in place, or add the key at the end. -/
def insertEntry (key : κ) (value : ν) : List (κ × ν) → List (κ × ν)
  | [] => [(key, value)]
  | (k, v) :: rest =>
      if key = k then
        (k, value) :: rest
      else
        (k, v) :: insertEntry key value rest

theorem keys_insertEntry (key : κ) (value : ν) (entries : List (κ × ν)) :
    (insertEntry key value entries).map Prod.fst =
      if key ∈ entries.map Prod.fst then
        entries.map Prod.fst
      else
        entries.map Prod.fst ++ [key] := by
  induction entries with
  | nil => rfl
  | cons entry rest ih =>
      obtain ⟨k, v⟩ := entry
      by_cases h : key = k
      · simp [insertEntry, h]
      · by_cases hmem : key ∈ rest.map Prod.fst <;>
          simp_all [insertEntry]

theorem nodup_insertEntry {key : κ} {value : ν} {entries : List (κ × ν)}
    (h : (entries.map Prod.fst).Nodup) :
    ((insertEntry key value entries).map Prod.fst).Nodup := by
  rw [keys_insertEntry]
  split
  · exact h
  · next hnot =>
      rw [List.nodup_append]
      refine ⟨h, by simp, ?_⟩
      intro a ha b hb
      rw [List.mem_singleton] at hb
      rintro rfl
      exact hnot (hb ▸ ha)

def insert (m : OrderedMap κ ν) (key : κ) (value : ν) : OrderedMap κ ν :=
  ⟨insertEntry key value m.entries, nodup_insertEntry m.keys_nodup⟩

def insertAll (m : OrderedMap κ ν) (pairs : List (κ × ν)) : OrderedMap κ ν :=
  pairs.foldl (fun m pair => m.insert pair.1 pair.2) m

def ofList (pairs : List (κ × ν)) : OrderedMap κ ν :=
  OrderedMap.empty.insertAll pairs

/--
Equality as finite maps: the same number of keys, and every key of one has a
related value in the other.  The order of the keys does not matter.
-/
def equalBy (related : ν → ω → Bool) (m : OrderedMap κ ν)
    (n : OrderedMap κ ω) : Bool :=
  m.size == n.size &&
    m.entries.all fun entry =>
      match n.find? entry.1 with
      | some value => related entry.2 value
      | none => false

/-! ## Entries and keys -/

theorem mem_of_lookup {entries : List (κ × ν)} {key : κ} {value : ν}
    (h : entries.lookup key = some value) : (key, value) ∈ entries := by
  rcases List.lookup_eq_some_iff.mp h with ⟨before, after, hentries, _⟩
  rw [hentries]
  exact List.mem_append_right _ List.mem_cons_self

theorem mem_of_find? {m : OrderedMap κ ν} {key : κ} {value : ν}
    (h : m.find? key = some value) : (key, value) ∈ m.entries :=
  mem_of_lookup h

theorem find?_eq_none_iff {m : OrderedMap κ ν} {key : κ} :
    m.find? key = none ↔ key ∉ m.keys := by
  unfold find? keys
  rw [List.lookup_eq_none_iff]
  constructor
  · intro h hkey
    rcases List.mem_map.mp hkey with ⟨entry, hentry, heq⟩
    simpa [heq] using h entry hentry
  · intro h entry hentry
    have hne : key ≠ entry.1 :=
      fun heq => h (heq ▸ List.mem_map_of_mem hentry)
    simpa using hne

/-! ## Look-up after an operation -/

theorem lookup_cons_eq_ite (key other : κ) (value : ν)
    (entries : List (κ × ν)) :
    ((key, value) :: entries).lookup other =
      if other = key then some value else entries.lookup other := by
  rw [List.lookup_cons]
  by_cases h : other = key
  · simp [h]
  · rw [beq_false_of_ne h, if_neg h]

theorem lookup_insertEntry (key other : κ) (value : ν)
    (entries : List (κ × ν)) :
    (insertEntry key value entries).lookup other =
      if other = key then some value else entries.lookup other := by
  induction entries with
  | nil => exact lookup_cons_eq_ite key other value []
  | cons entry rest ih =>
      obtain ⟨k, v⟩ := entry
      by_cases hkey : key = k
      · subst hkey
        simp only [insertEntry, if_true, lookup_cons_eq_ite]
        split <;> rfl
      · simp only [insertEntry, hkey, if_false, lookup_cons_eq_ite, ih]
        by_cases h : other = k
        · have hne : ¬ other = key := fun e => hkey (e.symm.trans h)
          rw [if_pos h, if_neg hne, if_pos h]
        · simp [h]

theorem find?_insert (m : OrderedMap κ ν) (key other : κ) (value : ν) :
    (m.insert key value).find? other =
      if other = key then some value else m.find? other :=
  lookup_insertEntry key other value m.entries

@[simp] theorem find?_insert_self (m : OrderedMap κ ν) (key : κ) (value : ν) :
    (m.insert key value).find? key = some value := by
  rw [find?_insert, if_pos rfl]

theorem find?_insert_of_ne (m : OrderedMap κ ν) {key other : κ} (value : ν)
    (h : other ≠ key) :
    (m.insert key value).find? other = m.find? other := by
  rw [find?_insert, if_neg h]

theorem keys_insert (m : OrderedMap κ ν) (key : κ) (value : ν) :
    (m.insert key value).keys =
      if key ∈ m.keys then m.keys else m.keys ++ [key] :=
  keys_insertEntry key value m.entries

theorem lookup_foldl_insertEntry (pairs entries : List (κ × ν)) (key : κ) :
    (pairs.foldl (fun entries pair => insertEntry pair.1 pair.2 entries)
      entries).lookup key = (pairs.reverse.lookup key).or (entries.lookup key) := by
  induction pairs generalizing entries with
  | nil => rfl
  | cons pair rest ih =>
      obtain ⟨k, v⟩ := pair
      rw [List.foldl_cons, ih, lookup_insertEntry, List.reverse_cons,
        List.lookup_append, lookup_cons_eq_ite, Option.or_assoc]
      congr 1
      split <;> rfl

theorem find?_insertAll (m : OrderedMap κ ν) (pairs : List (κ × ν)) (key : κ) :
    (m.insertAll pairs).find? key =
      (pairs.reverse.lookup key).or (m.find? key) := by
  have hentries : (m.insertAll pairs).entries =
      pairs.foldl (fun entries pair => insertEntry pair.1 pair.2 entries) m.entries :=
    (List.foldl_hom entries fun _ _ => rfl).symm
  unfold find?
  rw [hentries, lookup_foldl_insertEntry]

theorem lookup_eq_some_iff_mem {entries : List (κ × ν)}
    (h : (entries.map Prod.fst).Nodup) {key : κ} {value : ν} :
    entries.lookup key = some value ↔ (key, value) ∈ entries := by
  refine ⟨mem_of_lookup, ?_⟩
  induction entries with
  | nil => exact fun hmem => absurd hmem List.not_mem_nil
  | cons entry rest ih =>
      obtain ⟨k, v⟩ := entry
      rw [List.map_cons, List.nodup_cons] at h
      intro hmem
      rw [lookup_cons_eq_ite]
      rcases List.mem_cons.mp hmem with heq | hmem
      · cases heq
        exact if_pos rfl
      · have hkey : key ∈ rest.map Prod.fst := List.mem_map.mpr ⟨_, hmem, rfl⟩
        have hne : key ≠ k := fun heq => h.left (heq ▸ hkey)
        rw [if_neg hne]
        exact ih h.right hmem

theorem find?_insertAll_of_perm (m : OrderedMap κ ν) {one other : List (κ × ν)}
    (hperm : one.Perm other) (hnodup : (one.map Prod.fst).Nodup) (key : κ) :
    (m.insertAll one).find? key = (m.insertAll other).find? key := by
  have hreversed : one.reverse.Perm other.reverse :=
    (List.reverse_perm one).trans (hperm.trans (List.reverse_perm other).symm)
  have hone : (one.reverse.map Prod.fst).Nodup :=
    ((List.reverse_perm one).map Prod.fst).nodup_iff.mpr hnodup
  have hother : (other.reverse.map Prod.fst).Nodup :=
    (hreversed.map Prod.fst).nodup_iff.mp hone
  rw [find?_insertAll, find?_insertAll]
  congr 1
  apply Option.ext
  intro value
  rw [lookup_eq_some_iff_mem hone, lookup_eq_some_iff_mem hother,
    hreversed.mem_iff]

/-! ## Entries in order -/

theorem insertEntry_of_not_mem {key : κ} {value : ν} {entries : List (κ × ν)}
    (h : key ∉ entries.map Prod.fst) :
    insertEntry key value entries = entries ++ [(key, value)] := by
  induction entries with
  | nil => rfl
  | cons entry rest ih =>
      obtain ⟨k, v⟩ := entry
      rw [List.map_cons, List.mem_cons, not_or] at h
      rw [insertEntry, if_neg h.left, ih h.right, List.cons_append]

/-- Where a key is new it comes last.  Otherwise the first entry of the key gets the
value, and everything around it stays. -/
theorem insertEntry_cases (key : κ) (value : ν) (entries : List (κ × ν)) :
    (key ∉ entries.map Prod.fst ∧
      insertEntry key value entries = entries ++ [(key, value)]) ∨
    exists before old after,
      entries = before ++ (key, old) :: after ∧
      key ∉ before.map Prod.fst ∧
      insertEntry key value entries = before ++ (key, value) :: after := by
  induction entries with
  | nil => exact Or.inl ⟨List.not_mem_nil, rfl⟩
  | cons entry rest ih =>
      obtain ⟨k, v⟩ := entry
      by_cases hkey : key = k
      · right
        refine ⟨[], v, rest, by rw [hkey]; rfl, List.not_mem_nil, ?_⟩
        rw [insertEntry, if_pos hkey, hkey]
        rfl
      · rw [insertEntry, if_neg hkey]
        rcases ih with ⟨hnew, hinsert⟩ | ⟨before, old, after, hrest, hnew, hinsert⟩
        · left
          rw [List.map_cons, List.mem_cons, not_or, hinsert]
          exact ⟨⟨hkey, hnew⟩, rfl⟩
        · right
          refine ⟨(k, v) :: before, old, after, by rw [hrest]; rfl, ?_, by rw [hinsert]; rfl⟩
          rw [List.map_cons, List.mem_cons, not_or]
          exact ⟨hkey, hnew⟩

theorem entries_insertAll (m : OrderedMap κ ν) (pairs : List (κ × ν))
    (h : (m.keys ++ pairs.map Prod.fst).Nodup) :
    (m.insertAll pairs).entries = m.entries ++ pairs := by
  induction pairs generalizing m with
  | nil => exact (List.append_nil m.entries).symm
  | cons pair rest ih =>
      obtain ⟨key, value⟩ := pair
      have hnew : key ∉ m.keys := by
        intro hmem
        exact (List.nodup_append.mp h).2.2 key hmem key List.mem_cons_self rfl
      have hentries : (m.insert key value).entries = m.entries ++ [(key, value)] :=
        insertEntry_of_not_mem hnew
      have hkeys : (m.insert key value).keys = m.keys ++ [key] := by
        rw [keys_insert, if_neg hnew]
      have hrest : ((m.insert key value).keys ++ rest.map Prod.fst).Nodup := by
        rw [hkeys, List.append_assoc]
        exact h
      have hstep := ih (m.insert key value) hrest
      rw [hentries, List.append_assoc] at hstep
      exact hstep

theorem ofList_entries (m : OrderedMap κ ν) : ofList m.entries = m := by
  have h : (ofList m.entries).entries = m.entries :=
    entries_insertAll OrderedMap.empty m.entries m.keys_nodup
  cases hm : ofList m.entries with
  | mk entries keys_nodup =>
      rw [hm] at h
      cases m
      cases h
      rfl

end Lookup

end OrderedMap

end MarkupForest
