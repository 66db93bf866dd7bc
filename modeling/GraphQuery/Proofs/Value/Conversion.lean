/-
# Values and documents are converted without loss

A value is written as a document and read back.  What comes back is the value with null in place of
every infinity and NaN (**`Value.ofJson_toJson`**), since these have no form in a document.  All else
is as it was: whole and floating point numbers stay apart, and so do the two zeros.

A canonical document is read as a value and written again.  It comes back just if its whole numbers fit
64 bits with a sign (**`Value.toJson_ofJson_iff`**); one that does not fit has become a floating point
number and is written as one.

Maps are in key order on either side, so nothing moves when one is rebuilt entry by entry.
-/
import GraphQuery.Proofs.Entries
import GraphQuery.Proofs.Json.Text

namespace GraphQuery

namespace Json

variable {items : List Json} {entries : List (String × Json)}

/-! ## 1. Canonical documents -/

theorem canonicalItems_eq_map (items : List Json) : canonicalItems items = items.map canonical :=
  eq_map_of_cons rfl (fun _ _ => rfl) items

theorem canonicalEntries_eq_mapValues (entries : List (String × Json)) :
    canonicalEntries entries = Keyed.mapValues canonical entries :=
  eq_map_of_cons rfl (fun _ _ => rfl) entries

theorem canonical_array_eq_self_iff :
    (array items).canonical = array items ↔ ∀ j ∈ items, j.canonical = j := by
  rw [canonical, canonicalItems_eq_map, array.injEq, map_eq_self_iff]

/-- An object is canonical if it is a map in key order and its values are canonical. -/
theorem canonical_object_eq_self_iff :
    (object entries).canonical = object entries ↔
      Keyed.Sorted entries ∧ ∀ e ∈ entries, e.2.canonical = e.2 := by
  rw [canonical, canonicalEntries_eq_mapValues, object.injEq, ← Keyed.mapValues_eq_self_iff]
  constructor
  · intro h
    have hsorted : Keyed.Sorted entries := h ▸ Keyed.sorted_ofList _
    rw [Keyed.ofList_of_sorted (Keyed.sorted_mapValues_iff.mpr hsorted)] at h
    exact ⟨hsorted, h⟩
  · rintro ⟨hsorted, h⟩
    rw [h, Keyed.ofList_of_sorted hsorted]

/-- Every whole number in the document fits 64 bits with a sign. -/
inductive WholesFit : Json → Prop where
  | null : WholesFit null
  | bool {b : Bool} : WholesFit (bool b)
  | integer {i : Int} (h : FitsInt64 i) : WholesFit (integer i)
  | real {x : Binary64} : WholesFit (real x)
  | string {s : String} : WholesFit (string s)
  | array {items : List Json} (h : ∀ j ∈ items, WholesFit j) : WholesFit (array items)
  | object {entries : List (String × Json)} (h : ∀ e ∈ entries, WholesFit e.2) :
      WholesFit (object entries)

theorem wholesFit_integer_iff {i : Int} : (integer i).WholesFit ↔ FitsInt64 i :=
  ⟨fun | .integer h => h, .integer⟩

theorem wholesFit_array_iff : (array items).WholesFit ↔ ∀ j ∈ items, j.WholesFit :=
  ⟨fun | .array h => h, .array⟩

theorem wholesFit_object_iff : (object entries).WholesFit ↔ ∀ e ∈ entries, e.2.WholesFit :=
  ⟨fun | .object h => h, .object⟩

end Json

namespace Value

variable {items : List Value} {entries : List (String × Value)}

/-! ## 2. Items and entries -/

theorem orderedItems_iff : OrderedItems items ↔ ∀ v ∈ items, v.Ordered := by
  induction items with
  | nil => simp [OrderedItems]
  | cons v rest ih => simp [OrderedItems, ih]

theorem orderedEntries_iff : OrderedEntries entries ↔ ∀ e ∈ entries, e.2.Ordered := by
  induction entries with
  | nil => simp [OrderedEntries]
  | cons e rest ih =>
    obtain ⟨k, v⟩ := e
    rw [OrderedEntries, ih, List.forall_mem_cons]

theorem itemsOfJson_eq_map (items : List Json) : itemsOfJson items = items.map ofJson :=
  eq_map_of_cons rfl (fun _ _ => rfl) items

theorem entriesOfJson_eq_mapValues (entries : List (String × Json)) :
    entriesOfJson entries = Keyed.mapValues ofJson entries :=
  eq_map_of_cons rfl (fun _ _ => rfl) entries

/-! ## 3. The finite part -/

mutual
/-- The value with null in place of every infinity and NaN. -/
def finitePart : Value → Value
  | float x => if x.isFinite then float x else null
  | list items => list (finiteItems items)
  | map entries => map (finiteEntries entries)
  | v => v
/-- The finite parts of the items. -/
def finiteItems : List Value → List Value
  | [] => []
  | v :: rest => finitePart v :: finiteItems rest
/-- The entries with the finite parts of their values. -/
def finiteEntries : List (String × Value) → List (String × Value)
  | [] => []
  | (k, v) :: rest => (k, finitePart v) :: finiteEntries rest
end

theorem finiteItems_eq_map (items : List Value) : finiteItems items = items.map finitePart :=
  eq_map_of_cons rfl (fun _ _ => rfl) items

theorem finiteEntries_eq_mapValues (entries : List (String × Value)) :
    finiteEntries entries = Keyed.mapValues finitePart entries :=
  eq_map_of_cons rfl (fun _ _ => rfl) entries

theorem allFinite_finitePart (v : Value) : v.finitePart.AllFinite := by
  induction v using partsInduction with
  | null => exact .null
  | bool b => exact .bool
  | int i => exact .int
  | float x =>
    rw [finitePart]
    split
    · next hx => exact .float hx
    · exact .null
  | string s => exact .string
  | list items ih =>
    rw [finitePart, finiteItems_eq_map]
    refine .list fun w hw => ?_
    obtain ⟨v, hv, rfl⟩ := List.mem_map.mp hw
    exact ih v hv
  | map entries ih =>
    rw [finitePart, finiteEntries_eq_mapValues]
    refine .map fun e he => ?_
    obtain ⟨e', he', rfl⟩ := List.mem_map.mp he
    exact ih e' he'

/-- Nothing is replaced just if all numbers are finite. -/
theorem finitePart_eq_self_iff {v : Value} : v.finitePart = v ↔ v.AllFinite := by
  constructor
  · intro h
    rw [← h]
    exact allFinite_finitePart v
  · intro h
    induction h with
    | float hx => rw [finitePart, if_pos hx]
    | list _ ih => rw [finitePart, finiteItems_eq_map, map_eq_self_iff.mpr ih]
    | map _ ih =>
      rw [finitePart, finiteEntries_eq_mapValues, Keyed.mapValues_eq_self_iff.mpr ih]
    | _ => rfl

/-- A document does not tell the infinities and NaN from null. -/
theorem toJson_finitePart (v : Value) : v.finitePart.toJson = v.toJson := by
  induction v using partsInduction with
  | float x =>
    rw [finitePart, toJson]
    split
    · next hx => rw [toJson, if_pos hx]
    · rfl
  | list items ih =>
    rw [finitePart, toJson, toJson, finiteItems_eq_map, itemsToJson_eq_map, itemsToJson_eq_map,
      List.map_map]
    exact congrArg _ (List.map_congr_left ih)
  | map entries ih =>
    rw [finitePart, toJson, toJson, finiteEntries_eq_mapValues, entriesToJson_eq_mapValues,
      entriesToJson_eq_mapValues, Keyed.mapValues_mapValues, Keyed.mapValues_congr ih]
  | _ => rfl

/-! ## 4. From a value to its document and back -/

theorem ofInteger_toInt (i : Int64) : ofInteger i.toInt = int i := by
  rw [ofInteger, if_pos (fitsInt64_toInt i), Int64.ofInt_toInt]

/-- **A value comes back from its document** with null in place of every infinity and NaN. -/
theorem ofJson_toJson {v : Value} (h : v.Ordered) : ofJson v.toJson = v.finitePart := by
  induction v using partsInduction with
  | int i => exact ofInteger_toInt i
  | float x =>
    rw [toJson, finitePart]
    split <;> rfl
  | list items ih =>
    have hitems := orderedItems_iff.mp h
    rw [toJson, ofJson, finitePart, itemsToJson_eq_map, itemsOfJson_eq_map, finiteItems_eq_map,
      List.map_map]
    exact congrArg _ (List.map_congr_left fun v hv => ih v hv (hitems v hv))
  | map entries ih =>
    obtain ⟨hsorted, hentries⟩ := h
    have hentries := orderedEntries_iff.mp hentries
    have hback : entriesOfJson (entriesToJson entries) = Keyed.mapValues finitePart entries := by
      rw [entriesOfJson_eq_mapValues, entriesToJson_eq_mapValues, Keyed.mapValues_mapValues]
      exact Keyed.mapValues_congr fun e he => ih e he (hentries e he)
    rw [toJson, ofJson, finitePart, finiteEntries_eq_mapValues, hback,
      Keyed.ofList_of_sorted (Keyed.sorted_mapValues_iff.mpr hsorted)]
  | _ => rfl

/-! ## 5. From a document to its value and back -/

theorem toJson_ofInteger_eq_iff {i : Int} : (ofInteger i).toJson = .integer i ↔ FitsInt64 i := by
  rw [ofInteger]
  split
  · next hfits => exact iff_of_true (by rw [toJson, toInt_ofInt_of_fits hfits]) hfits
  · next hfits =>
    refine iff_of_false ?_ hfits
    rw [toJson]
    split <;> simp

/-- **A canonical document comes back from its value** just if its whole numbers fit 64 bits with a
sign. -/
theorem toJson_ofJson_iff {j : Json} (hfinite : j.AllFinite) (hcanonical : j.canonical = j) :
    (ofJson j).toJson = j ↔ j.WholesFit := by
  induction hfinite with
  | null => exact iff_of_true rfl .null
  | bool => exact iff_of_true rfl .bool
  | integer => rw [ofJson, toJson_ofInteger_eq_iff, Json.wholesFit_integer_iff]
  | real hx => exact iff_of_true (by rw [ofJson, toJson, if_pos hx]) .real
  | string => exact iff_of_true rfl .string
  | array _ ih =>
    have hitems := Json.canonical_array_eq_self_iff.mp hcanonical
    rw [ofJson, toJson, itemsOfJson_eq_map, itemsToJson_eq_map, List.map_map, Json.array.injEq,
      map_eq_self_iff, Json.wholesFit_array_iff]
    exact forall₂_congr fun j hj => ih j hj (hitems j hj)
  | object _ ih =>
    obtain ⟨hsorted, hentries⟩ := Json.canonical_object_eq_self_iff.mp hcanonical
    rw [ofJson, toJson, entriesOfJson_eq_mapValues,
      Keyed.ofList_of_sorted (Keyed.sorted_mapValues_iff.mpr hsorted), entriesToJson_eq_mapValues,
      Keyed.mapValues_mapValues, Json.object.injEq, Keyed.mapValues_eq_self_iff,
      Json.wholesFit_object_iff]
    exact forall₂_congr fun e he => ih e he (hentries e he)

/-! ## 6. Both ways -/

/-- **Nothing is lost but what has no form on the other side.**  A value that is written and read is the
value with null in place of every infinity and NaN, hence itself just if all its numbers are finite, and
a second round changes nothing.  A canonical document that is read and written is itself just if its
whole numbers fit 64 bits with a sign. -/
theorem conversions_lossless :
    (∀ v : Value, v.Ordered →
      ofJson v.toJson = v.finitePart ∧ (ofJson v.toJson = v ↔ v.AllFinite) ∧
        ofJson (ofJson v.toJson).toJson = ofJson v.toJson) ∧
      ∀ j : Json, j.AllFinite → j.canonical = j → ((ofJson j).toJson = j ↔ j.WholesFit) := by
  constructor
  · intro v h
    refine ⟨ofJson_toJson h, ?_, ?_⟩
    · rw [ofJson_toJson h, finitePart_eq_self_iff]
    · rw [ofJson_toJson h, toJson_finitePart, ofJson_toJson h]
  · intro j hfinite hcanonical
    exact toJson_ofJson_iff hfinite hcanonical

/-- Whole numbers of every size and a zero with its sign come back; infinities and NaN do not. -/
theorem conversions_lossless_limits :
    let limits := list [int (-0x8000000000000000), int 9007199254740993, float (.zero true),
      float (.ofInt 3)]
    let v := map [("beyond", list [float (.infinity true), float (.nan false)]), ("within", limits)]
    let j := Json.object [("greatest", .integer 0x7fffffffffffffff), ("least", .real (.zero true))]
    let beyond := Json.array [.integer 0x8000000000000000]
    v.Ordered ∧ limits.Ordered ∧ limits.AllFinite ∧ ofJson limits.toJson = limits ∧
      ofJson v.toJson = map [("beyond", list [null, null]), ("within", limits)] ∧
      j.AllFinite ∧ j.canonical = j ∧ (ofJson j).toJson = j ∧
      beyond.AllFinite ∧ beyond.canonical = beyond ∧ (ofJson beyond).toJson ≠ beyond := by
  intro limits v j beyond
  obtain ⟨hvalues, hdocuments⟩ := conversions_lossless
  have hlimits : limits.Ordered := by simp [limits, Ordered, OrderedItems]
  have hv : v.Ordered := by
    simp only [v, Ordered, OrderedEntries, OrderedItems, Keyed.Sorted]
    exact ⟨by decide, ⟨trivial, trivial, trivial⟩, hlimits, trivial⟩
  have hfinite : limits.AllFinite := finitePart_eq_self_iff.mp (by decide +kernel)
  have hj : j.AllFinite := .object <| by
    simp only [List.forall_mem_cons]
    exact ⟨.integer, .real (by decide), by simp⟩
  have hbeyond : beyond.AllFinite := .array (List.forall_mem_singleton.mpr .integer)
  refine ⟨hv, hlimits, hfinite, (hvalues limits hlimits).2.1.mpr hfinite,
    (hvalues v hv).1.trans (by decide +kernel), hj, rfl, ?_, hbeyond, rfl, ?_⟩
  · refine (hdocuments j hj rfl).mpr (.object ?_)
    simp only [List.forall_mem_cons]
    exact ⟨.integer (by decide), .real, by simp⟩
  · refine mt (hdocuments beyond hbeyond rfl).mp ?_
    simp [beyond, Json.wholesFit_array_iff, Json.wholesFit_integer_iff, FitsInt64]

end Value

end GraphQuery
