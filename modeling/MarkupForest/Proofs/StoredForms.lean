import MarkupForest.Proofs.JsonText
import MarkupForest.Proofs.Nesting
import MarkupForest.Proofs.ShortestDigits
import MarkupForest.Storage.Reader
import MarkupForest.Storage.Writer

/-!
# Stored forms read back

A stored form holds texts only, each field under a name of its own, and opens no
more arrays and objects than the reader has levels.  Each kind of content is then
read back by its own reader, and the text of the whole leads back to the value
that was written.
-/

namespace MarkupForest

namespace Json

mutual

/-- The most arrays and objects that are open at once. -/
def depth : Json → Nat
  | array items => depthOfItems items + 1
  | object members => depthOfMembers members + 1
  | _ => 0

def depthOfItems : List Json → Nat
  | [] => 0
  | item :: rest => max (depth item) (depthOfItems rest)

def depthOfMembers : List (Option String × Json) → Nat
  | [] => 0
  | (_, value) :: rest => max (depth value) (depthOfMembers rest)

end

/-- A value that holds texts only and opens no more than so many arrays and
objects. -/
structure Fits (levels : Nat) (j : Json) : Prop where
  textual : j.Textual
  depth : j.depth ≤ levels

variable {alpha beta : Type} {values : List alpha}
variable {write : alpha → Json} {levels more : Nat} {members : List (String × Json)}

theorem Fits.mono {j : Json} (h : Fits levels j) (hle : levels ≤ more) :
    Fits more j :=
  ⟨h.textual, Nat.le_trans h.depth hle⟩

/-!
# Arrays
-/

theorem depth_le_of_mem_items {items : List Json} {item : Json}
    (h : item ∈ items) : depth item ≤ depthOfItems items := by
  induction items with
  | nil => cases h
  | cons other items ih =>
      rw [depthOfItems]
      rcases List.mem_cons.mp h with rfl | h
      · exact Nat.le_max_left _ _
      · exact Nat.le_trans (ih h) (Nat.le_max_right _ _)

theorem mapM_written {key : alpha → beta} {read : beta → Option alpha}
    (h : forall value, value ∈ values → read (key value) = some value) :
    (values.map key).mapM read = some values := by
  have hread : (values.map key).mapM read = some (values.map id) := mapM_found h
  rw [List.map_id] at hread
  exact hread

theorem items?_written {read : Nat → Json → Option alpha}
    (hdepth : (array (values.map write)).depth ≤ levels)
    (h : forall value levels, value ∈ values → (write value).depth ≤ levels →
      read levels (write value) = some value) :
    items? read levels (array (values.map write)) = some values := by
  rw [depth] at hdepth
  cases levels with
  | zero => cases hdepth
  | succ levels =>
      refine mapM_written fun value hmem => h value levels hmem ?_
      have hitem := depth_le_of_mem_items (List.mem_map_of_mem (f := write) hmem)
      omega

theorem textual_written (h : forall value, value ∈ values → (write value).Textual) :
    (array (values.map write)).Textual := by
  refine .array fun item hitem => ?_
  rcases List.mem_map.mp hitem with ⟨value, hvalue, rfl⟩
  exact h value hvalue

theorem fits_written (h : forall value, value ∈ values → Fits levels (write value)) :
    Fits (levels + 1) (array (values.map write)) := by
  refine ⟨textual_written fun value hmem => (h value hmem).textual, ?_⟩
  rw [depth]
  refine Nat.succ_le_succ ?_
  induction values with
  | nil => exact Nat.zero_le levels
  | cons value values ih =>
      rw [List.map_cons, depthOfItems]
      exact Nat.max_le.mpr ⟨(h value List.mem_cons_self).depth,
        ih fun other hmem => h other (List.mem_cons_of_mem value hmem)⟩

/-!
# Records
-/

theorem depth_of_mem_members {name : String} {value : Json}
    (h : (name, value) ∈ members) : value.depth < (ofMembers members).depth := by
  unfold ofMembers
  rw [depth]
  induction members with
  | nil => cases h
  | cons member members ih =>
      rw [List.map_cons, depthOfMembers]
      rcases List.mem_cons.mp h with rfl | h
      · exact Nat.lt_succ_of_le (Nat.le_max_left _ _)
      · have hrest := ih h
        omega

theorem textual_ofMembers (h : forall member, member ∈ members → member.2.Textual) :
    (ofMembers members).Textual := by
  refine .object ?_ ?_
  · intro member hmember
    rcases List.mem_map.mp hmember with ⟨entry, _, rfl⟩
    rfl
  · intro member hmember
    rcases List.mem_map.mp hmember with ⟨entry, hentry, rfl⟩
    exact h entry hentry

theorem fits_ofMembers (h : forall member, member ∈ members → Fits levels member.2) :
    Fits (levels + 1) (ofMembers members) := by
  refine ⟨textual_ofMembers fun member hmem => (h member hmem).textual, ?_⟩
  unfold ofMembers
  rw [depth]
  refine Nat.succ_le_succ ?_
  induction members with
  | nil => exact Nat.zero_le levels
  | cons member members ih =>
      rw [List.map_cons, depthOfMembers]
      exact Nat.max_le.mpr ⟨(h member List.mem_cons_self).depth,
        ih fun other hmem => h other (List.mem_cons_of_mem member hmem)⟩

theorem filter_members (hnodup : (members.map Prod.fst).Nodup) {name : String}
    {value : Json} (h : (name, value) ∈ members) :
    (members.map fun member => (some member.1, member.2)).filter
      (fun member => member.1 == some name) = [(some name, value)] := by
  induction members with
  | nil => cases h
  | cons member members ih =>
      rw [List.map_cons, List.nodup_cons] at hnodup
      rw [List.map_cons]
      rcases List.mem_cons.mp h with rfl | h
      · rw [List.filter_cons_of_pos (by simp), List.filter_eq_nil_iff.mpr]
        intro other hother
        rcases List.mem_map.mp hother with ⟨entry, hentry, rfl⟩
        have hne : entry.1 ≠ name := fun heq =>
          hnodup.left (List.mem_map.mpr ⟨entry, hentry, heq⟩)
        simpa using hne
      · have hne : member.1 ≠ name := fun heq =>
          hnodup.left (List.mem_map.mpr ⟨(name, value), h, heq.symm⟩)
        rw [List.filter_cons_of_neg (by simpa using hne)]
        exact ih hnodup.right h

/-- The fields of a record are found under their names. -/
theorem fields?_ofMembers (hnodup : (members.map Prod.fst).Nodup) :
    (ofMembers members).fields? (members.map Prod.fst) =
      some (members.map Prod.snd) := by
  unfold ofMembers fields?
  simp only
  rw [if_pos (by simp)]
  refine mapM_found fun member hmember => ?_
  unfold member?
  rw [filter_members hnodup hmember]

end Json

open Json (depth)

/-!
# Property values
-/

namespace PropertyValue

variable {levels : Nat}

/-- A number is finite; whatever else is no matter. -/
def isFinite : PropertyValue → Bool
  | number x => x.isFinite
  | _ => true

theorem readTexts?_textsToJson {texts : List String}
    (hdepth : (textsToJson texts).depth ≤ levels) :
    Json.readTexts? levels (textsToJson texts) = some texts :=
  Json.items?_written hdepth fun _ _ _ _ => rfl

theorem tableOfJson?_tableToJson {data : TableData}
    (hdepth : (tableToJson data).depth ≤ levels) :
    tableOfJson? levels (tableToJson data) = some data := by
  have hheaders : (textsToJson data.headers).depth < (tableToJson data).depth :=
    Json.depth_of_mem_members (List.mem_cons_self (a := ("headers", _)))
  have hrows : (Json.array (data.rows.map textsToJson)).depth <
      (tableToJson data).depth :=
    Json.depth_of_mem_members (List.mem_cons_of_mem _ List.mem_cons_self)
  cases levels with
  | zero => omega
  | succ levels =>
      have hfields : (tableToJson data).fields? ["headers", "rows"] =
          some [textsToJson data.headers, .array (data.rows.map textsToJson)] :=
        Json.fields?_ofMembers (by simp)
      have hread : Json.items? Json.readTexts? levels
          (.array (data.rows.map textsToJson)) = some data.rows :=
        Json.items?_written (by omega) fun _ _ _ => readTexts?_textsToJson
      rw [tableOfJson?, hfields]
      simp only [Option.bind_eq_bind, Option.bind_some]
      rw [readTexts?_textsToJson (by omega), hread]
      rfl

theorem ofJson?_member {kind : String} {content : Json} {value : PropertyValue}
    (hdepth : (Json.ofMembers [(kind, content)]).depth ≤ levels)
    (h : forall levels, content.depth ≤ levels →
      ofContent? levels kind content = some value) :
    ofJson? levels (.ofMembers [(kind, content)]) = some value := by
  have hcontent : content.depth < (Json.ofMembers [(kind, content)]).depth :=
    Json.depth_of_mem_members List.mem_cons_self
  cases levels with
  | zero => omega
  | succ levels => exact h levels (by omega)

theorem ofJson?_toJson {value : PropertyValue} (hfinite : value.isFinite = true)
    (hdepth : value.toJson.depth ≤ levels) :
    ofJson? levels value.toJson = some value := by
  cases value with
  | text s => exact ofJson?_member hdepth fun _ _ => rfl
  | number x =>
      refine ofJson?_member hdepth fun levels _ => ?_
      show (Json.ofNumber x).number?.map number = _
      rw [Json.number?_ofNumber hfinite]
      rfl
  | flag b => exact ofJson?_member hdepth fun _ _ => rfl
  | list items =>
      refine ofJson?_member hdepth fun levels hcontent => ?_
      show (Json.readTexts? levels (textsToJson items)).map list = _
      rw [readTexts?_textsToJson hcontent]
      rfl
  | table data =>
      refine ofJson?_member hdepth fun levels hcontent => ?_
      show (tableOfJson? levels (tableToJson data)).map table = _
      rw [tableOfJson?_tableToJson hcontent]
      rfl

theorem fits_textsToJson (texts : List String) : (textsToJson texts).Fits 1 :=
  Json.fits_written fun s _ => ⟨.string s, Nat.le_refl 0⟩

theorem fits_tableToJson (data : TableData) : (tableToJson data).Fits 3 := by
  refine Json.fits_ofMembers fun member hmember => ?_
  rcases List.mem_cons.mp hmember with rfl | hmember
  · exact (fits_textsToJson data.headers).mono (by decide)
  · rw [List.mem_singleton.mp hmember]
    exact Json.fits_written fun row _ => fits_textsToJson row

theorem fits_member {content : Json} (kind : String) (h : content.Fits levels) :
    (Json.ofMembers [(kind, content)]).Fits (levels + 1) := by
  refine Json.fits_ofMembers fun member hmember => ?_
  rw [List.mem_singleton.mp hmember]
  exact h

/-- A table opens its own object, an array of rows and an array for each row, all
inside the object that names its kind. -/
theorem fits_toJson (value : PropertyValue) : value.toJson.Fits 4 := by
  cases value with
  | text s => exact fits_member _ ⟨.string s, Nat.zero_le 3⟩
  | number x =>
      refine fits_member _ ?_
      cases x with
      | nan => exact ⟨.null, Nat.zero_le 3⟩
      | infinite negative => exact ⟨.null, Nat.zero_le 3⟩
      | finite negative magnitude => exact ⟨.number _, Nat.zero_le 3⟩
  | flag b => exact fits_member _ ⟨.bool b, Nat.zero_le 3⟩
  | list items => exact fits_member _ ((fits_textsToJson items).mono (by decide))
  | table data => exact fits_member _ (fits_tableToJson data)

end PropertyValue

/-!
# Property maps
-/

namespace Properties

variable {levels : Nat} {properties : Properties}

def isFinite (properties : Properties) : Bool :=
  properties.entries.all fun entry => entry.2.isFinite

theorem ofJson?_toJson (hfinite : isFinite properties = true)
    (hdepth : (toJson properties).depth ≤ levels) :
    ofJson? levels (toJson properties) = some properties := by
  cases levels with
  | zero =>
      unfold toJson Json.ofMembers at hdepth
      rw [depth] at hdepth
      cases hdepth
  | succ levels =>
      have hread : (properties.entries.map fun entry =>
          (some entry.1, entry.2.toJson)).mapM (entryOfJson? levels) =
            some properties.entries := by
        refine Json.mapM_written fun entry hentry => ?_
        have hvalue : entry.2.toJson.depth < (toJson properties).depth :=
          Json.depth_of_mem_members (List.mem_map_of_mem hentry)
        unfold entryOfJson?
        simp only [Option.bind_eq_bind, Option.bind_some]
        rw [PropertyValue.ofJson?_toJson (List.all_eq_true.mp hfinite entry hentry)
          (by omega)]
        rfl
      unfold toJson Json.ofMembers
      rw [ofJson?, List.map_map]
      show ((properties.entries.map fun entry =>
          (some entry.1, entry.2.toJson)).mapM (entryOfJson? levels)).map
            OrderedMap.ofList = some properties
      rw [hread, Option.map_some, OrderedMap.ofList_entries]

theorem fits_toJson (properties : Properties) : (toJson properties).Fits 5 := by
  refine Json.fits_ofMembers fun member hmember => ?_
  rcases List.mem_map.mp hmember with ⟨entry, _, rfl⟩
  exact PropertyValue.fits_toJson entry.2

end Properties

/-!
# Snapshots
-/

namespace Snapshot

mutual

/-- Every number in a snapshot is finite. -/
def isFinite : Snapshot → Bool
  | node _ _ properties children =>
      Properties.isFinite properties && allFinite children

def allFinite : List Snapshot → Bool
  | [] => true
  | s :: rest => isFinite s && allFinite rest

end

variable {s : Snapshot} {ss : List Snapshot}

theorem allFinite_eq_all : allFinite ss = ss.all isFinite := by
  induction ss with
  | nil => rfl
  | cons s ss ih => rw [allFinite, List.all_cons, ih]

theorem toJsonItems_eq_map : toJsonItems ss = ss.map toJson := by
  induction ss with
  | nil => rfl
  | cons s ss ih => rw [toJsonItems, List.map_cons, ih]

/-- The fields of a snapshot, with the stored forms of its children. -/
def fields : Snapshot → List (String × Json)
  | node id type properties children =>
      [ ("id", id.toJson), ("node_type", type.toJson),
        ("props", Properties.toJson properties),
        ("children", .array (children.map toJson)) ]

theorem toJson_eq (s : Snapshot) : s.toJson = .ofMembers s.fields := by
  cases s with
  | node id type properties children =>
      rw [toJson, toJsonItems_eq_map]
      rfl

theorem textual_of_children
    (hchildren : forall t, t ∈ s.children → t.toJson.Textual) : s.toJson.Textual := by
  rw [toJson_eq]
  refine Json.textual_ofMembers fun member hmember => ?_
  cases s with
  | node id type properties children =>
      simp only [fields, List.mem_cons, List.not_mem_nil, or_false] at hmember
      rcases hmember with rfl | rfl | rfl | rfl
      · exact .string id.text
      · exact .string type.name
      · exact (Properties.fits_toJson properties).textual
      · exact Json.textual_written hchildren

theorem textual_of_mem : forall s, s ∈ ss → s.toJson.Textual := by
  induction ss using nested_induction with
  | nil =>
      intro s hs
      cases hs
  | cons id type properties below rest hbelow hrest =>
      intro s hs
      rcases List.mem_cons.mp hs with rfl | hs
      · exact textual_of_children hbelow
      · exact hrest s hs

theorem textual_toJson (s : Snapshot) : s.toJson.Textual :=
  textual_of_mem s (List.mem_singleton_self s)

theorem ofJson?_of_children {levels : Nat} (hfinite : s.isFinite = true)
    (hdepth : s.toJson.depth ≤ levels)
    (hchildren : forall t, t ∈ s.children → forall levels,
      t.isFinite = true → t.toJson.depth ≤ levels →
        ofJson? levels t.toJson = some t) :
    ofJson? levels s.toJson = some s := by
  cases s with
  | node id type properties children =>
      rw [toJson_eq] at hdepth ⊢
      have hprops : (Properties.toJson properties).depth < levels :=
        Nat.lt_of_lt_of_le (Json.depth_of_mem_members
          (List.mem_of_getElem? (i := 2) rfl)) hdepth
      have hlist : (Json.array (children.map toJson)).depth < levels :=
        Nat.lt_of_lt_of_le (Json.depth_of_mem_members
          (List.mem_of_getElem? (i := 3) rfl)) hdepth
      rw [depth] at hlist
      rw [isFinite, allFinite_eq_all, Bool.and_eq_true, List.all_eq_true] at hfinite
      match levels with
      | 0 | 1 => omega
      | levels + 2 =>
          have hread : (children.map toJson).mapM (ofJson? levels) =
              some children := by
            refine Json.mapM_written fun t ht =>
              hchildren t ht levels (hfinite.right t ht) ?_
            have hitem := Json.depth_le_of_mem_items
              (List.mem_map_of_mem (f := toJson) ht)
            omega
          have hfields : (Json.ofMembers
              (node id type properties children).fields).fields?
                ["id", "node_type", "props", "children"] = _ :=
            Json.fields?_ofMembers (by simp [fields])
          have htype : NodeType.ofJson? (levels + 1) type.toJson = some type :=
            NodeType.ofName?_name type
          rw [ofJson?, hfields]
          simp only [fields, List.map_cons, List.map_nil, Option.bind_eq_bind,
            Option.bind_some]
          rw [htype, Properties.ofJson?_toJson hfinite.left (by omega), hread]
          rfl

theorem ofJson?_of_mem : forall s, s ∈ ss → forall levels, s.isFinite = true →
    s.toJson.depth ≤ levels → ofJson? levels s.toJson = some s := by
  induction ss using nested_induction with
  | nil =>
      intro s hs
      cases hs
  | cons id type properties below rest hbelow hrest =>
      intro s hs levels hfinite hdepth
      rcases List.mem_cons.mp hs with rfl | hs
      · exact ofJson?_of_children hfinite hdepth hbelow
      · exact hrest s hs levels hfinite hdepth

theorem ofJson?_toJson {levels : Nat} (hfinite : s.isFinite = true)
    (hdepth : s.toJson.depth ≤ levels) : ofJson? levels s.toJson = some s :=
  ofJson?_of_mem s (List.mem_singleton_self s) levels hfinite hdepth

end Snapshot

/-!
# Texts
-/

namespace Json

/-- What a document stores. -/
def load? {alpha : Type} (read : Nat → Json → Option alpha) (text : String) :
    Option alpha :=
  (parse? text).bind (read documentLevels)

/-- A value is loaded from the text of its stored form, and whatever is loaded from
that text has the same text again. -/
structure Preserves {alpha : Type} (write : alpha → Json)
    (read : Nat → Json → Option alpha) (value : alpha) : Prop where
  loaded : load? read (write value).compact = some value
  stored : forall other, load? read (write value).compact = some other →
    (write other).compact = (write value).compact

theorem Textual.preserves {alpha : Type} {write : alpha → Json}
    {read : Nat → Json → Option alpha} {value : alpha}
    (htextual : (write value).Textual)
    (hread : read documentLevels (write value) = some value) :
    Preserves write read value := by
  have hloaded : load? read (write value).compact = some value := by
    unfold load?
    rw [parse?_compact htextual]
    exact hread
  refine ⟨hloaded, fun other hother => ?_⟩
  rw [hloaded] at hother
  cases hother
  rfl

end Json

/-- Snapshots with finite numbers are preserved by their text as long as it opens no
more arrays and objects than a document may; property values and property maps
with finite numbers always are. -/
theorem stored_texts_preserve :
    (forall s : Snapshot, s.isFinite = true →
      s.toJson.depth ≤ Json.documentLevels →
        Json.Preserves Snapshot.toJson Snapshot.ofJson? s) ∧
    (forall value : PropertyValue, value.isFinite = true →
      Json.Preserves PropertyValue.toJson PropertyValue.ofJson? value) ∧
    (forall properties : Properties, Properties.isFinite properties = true →
      Json.Preserves Properties.toJson Properties.ofJson? properties) := by
  refine ⟨fun s hfinite hdepth => ?_, fun value hfinite => ?_,
    fun properties hfinite => ?_⟩
  · exact (Snapshot.textual_toJson s).preserves
      (Snapshot.ofJson?_toJson hfinite hdepth)
  · have hfits : value.toJson.Fits Json.documentLevels :=
      (PropertyValue.fits_toJson value).mono (by decide)
    exact hfits.textual.preserves (PropertyValue.ofJson?_toJson hfinite hfits.depth)
  · have hfits : (Properties.toJson properties).Fits Json.documentLevels :=
      (Properties.fits_toJson properties).mono (by decide)
    exact hfits.textual.preserves (Properties.ofJson?_toJson hfinite hfits.depth)

/-- A name and a text that have to be escaped, and a zero with a sign. -/
def quotedProperties : Properties :=
  ⟨[("say \"\\\"", .text "tab\t line\n \x01"),
    ("ratio", .number (.finite true .zero)),
    ("data", .table ⟨["a"], [["b", ""], []]⟩)], by decide⟩

def quotedCard : Snapshot :=
  .node ⟨"card-1"⟩ .card quotedProperties [.node ⟨""⟩ .text ∅ [], default]

theorem stored_texts_preserve_quoted :
    quotedCard.isFinite = true ∧ quotedCard.toJson.depth ≤ Json.documentLevels ∧
      Json.Preserves Snapshot.toJson Snapshot.ofJson? quotedCard ∧
      Json.Preserves PropertyValue.toJson PropertyValue.ofJson?
        (.number (.finite true .zero)) ∧
      Json.Preserves Properties.toJson Properties.ofJson? quotedProperties :=
  ⟨by decide, by decide, stored_texts_preserve.left _ (by decide) (by decide),
    stored_texts_preserve.right.left _ rfl,
    stored_texts_preserve.right.right _ (by decide)⟩

end MarkupForest
