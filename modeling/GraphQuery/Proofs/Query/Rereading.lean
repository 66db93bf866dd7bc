/-
# The canonical document reads back

`QueryOf.toValue` writes a query in full.  Reading that document again gives the same query, so the
canonical document loses nothing and reading settles after one round.

Of a query in normal form every clause is taken back by the branch of the reader that it came from:

* a filter by the entry of its own tag (`readFilter_toValue`), since a path never has the form of a
  tag and an expression never has a tag that combines filters;
* a selection entry by entry (`readAs_toRow`), since the entries are in key order;
* a sub-query as a sub-query and not as an expression, since its document has the keys `select` and
  `type` and so more than one entry.

**`normalize_toValue`** is the result for documents: what `normalize` gives, written in full, is
normalized to itself.
-/
import GraphQuery.Proofs.Query.NormalForm

namespace GraphQuery

/-! ## 1. Filters -/

theorem Filter.partsToValues_eq_map (parts : List Filter) :
    Filter.partsToValues parts = parts.map Filter.toValue :=
  eq_map_of_cons rfl (fun _ _ => rfl) parts

/-- A path that is no tag is none of the tags that combine filters. -/
theorem not_mem_connectives_of_isTag {path : String} (h : isTag path = false) :
    path ∉ Filter.connectives := by
  intro hmem
  have hall : ∀ tag ∈ Filter.connectives, isTag tag = true := by decide
  rw [hall path hmem] at h
  exact absurd h (by simp)

namespace OperatorTable

variable {t : OperatorTable}

/-- A filter with one entry stands for itself. -/
theorem readFilter_singleton (key : String) (v : Value) :
    t.readFilter (.map [(key, v)]) = t.readFilterEntry key v := by
  rw [readFilter_map, List.mapM_cons, List.mapM_nil]
  cases t.readFilterEntry key v <;> rfl

/-- A key that combines no filters is a tag of an expression or a path. -/
theorem readFilterEntry_of_not_mem {key : String} (h : key ∉ Filter.connectives) (v : Value) :
    t.readFilterEntry key v =
      if isTag key then t.readRowTest key v else (t.readCondition v).map (.field key) := by
  simp only [Filter.connectives, List.mem_cons, List.not_mem_nil, or_false, not_or] at h
  rw [readFilterEntry, if_neg h.1, if_neg h.2.1, if_neg h.2.2]

/-- **A normal filter is read back.** -/
theorem readFilter_toValue {f : Filter} (h : f.Normal t) : t.readFilter f.toValue = .ok f := by
  induction h with
  | conjunction _ ih =>
    rw [Filter.toValue, readFilter_singleton, readFilterEntry, if_pos rfl, readParts,
      Filter.partsToValues_eq_map, mapM_map_eq_ok ih]
    rfl
  | disjunction _ ih =>
    rw [Filter.toValue, readFilter_singleton, readFilterEntry, if_neg (by decide), if_pos rfl,
      readParts, Filter.partsToValues_eq_map, mapM_map_eq_ok ih]
    rfl
  | negation _ ih =>
    rw [Filter.toValue, readFilter_singleton, readFilterEntry, if_neg (by decide),
      if_neg (by decide), if_pos rfl, ih]
    rfl
  | @field path c hpath hc =>
    have hentry : ∀ v, t.readFilterEntry path v = (t.readCondition v).map (.field path) := by
      intro v
      rw [readFilterEntry_of_not_mem (not_mem_connectives_of_isTag hpath), hpath]
      rfl
    cases c with
    | equals v =>
      obtain ⟨hexpr, htag⟩ := hc
      rw [Filter.toValue, readFilter_singleton, hentry, readCondition, hexpr, htag]
      rfl
    | expression e =>
      obtain ⟨hexpr, hops⟩ := hc
      rw [Filter.toValue, readFilter_singleton, hentry, readCondition, if_pos hexpr, hops]
      rfl
  | expression htag hconn haccepts =>
    rw [Filter.toValue, readFilter_singleton, readFilterEntry_of_not_mem hconn, if_pos htag,
      readRowTest, requireExpression_eq_ok_iff.mpr haccepts]
    rfl

/-- The document of a normal filter is a map with one entry. -/
theorem toValue_eq_singleton {f : Filter} (h : f.Normal t) : ∃ e, f.toValue = .map [e] := by
  cases h with
  | conjunction _ => exact ⟨_, rfl⟩
  | disjunction _ => exact ⟨_, rfl⟩
  | negation _ => exact ⟨_, rfl⟩
  | @field _ c _ _ => cases c <;> exact ⟨_, rfl⟩
  | expression _ _ _ => exact ⟨_, rfl⟩

theorem readFilter?_toValue {f? : Option Filter} (h : ∀ f, f? = some f → f.Normal t) :
    t.readFilter? (f?.map Filter.toValue) = .ok f? := by
  cases f? with
  | none => rfl
  | some f =>
    have hread := readFilter_toValue (h f rfl)
    obtain ⟨e, he⟩ := toValue_eq_singleton (h f rfl)
    rw [he] at hread
    rw [Option.map_some, he, readFilter?, hread]
    · rfl
    all_goals simp

end OperatorTable

/-! ## 2. Orders and slices -/

theorem OrderKey.ofValue_toValue (k : OrderKey) : OrderKey.ofValue k.toValue = .ok k := by
  obtain ⟨field, direction⟩ := k
  cases direction <;> rfl

theorem readOrder_toValue? (order : List OrderKey) :
    readOrder (orderToValue? order) = .ok order := by
  cases order with
  | nil => rfl
  | cons k rest => exact mapM_map_eq_ok fun k _ => k.ofValue_toValue

theorem Section.check_eq_ok_iff {s : Section} {entries : Row} :
    s.check entries = .ok () ↔ ∀ key ∈ Keyed.keys entries, key ∈ s.keys := by
  unfold Section.check Section.unexpectedKey?
  split
  · next key h =>
    have hkey := List.find?_some h
    have hmem := List.mem_of_find?_eq_some h
    simp only [reduceCtorEq, false_iff]
    intro hall
    simp [hall key hmem] at hkey
  · next h =>
    rw [List.find?_eq_none] at h
    simpa using h

/-- Optional entries under the keys of a section may stand there. -/
theorem Section.check_ofOptions {s : Section} {entries : List (String × Option Value)}
    (h : ∀ key ∈ Keyed.keys entries, key ∈ s.keys) : s.check (Row.ofOptions entries) = .ok () :=
  Section.check_eq_ok_iff.mpr fun key hkey =>
    h key ((Row.keys_ofOptions_sublist entries).subset hkey)

theorem readCount_countToValue {key : String} {n : UInt64} (h : 0 ≤ n.toInt64) :
    readCount key (countToValue n) = .ok n := by
  rw [countToValue, readCount, if_pos h, UInt64.toUInt64_toInt64]

theorem readAnchor_map (key : String) (a : Anchor) : readAnchor key (.map a) = .ok a := rfl

namespace Slice

/-- What the object of a slice holds, as optional entries. -/
def slots (s : Slice) : List (String × Option Value) :=
  [("after", s.after.map .map), ("before", s.before.map .map),
    ("limit", s.limit.map countToValue), ("offset", s.offset.map countToValue)]

theorem toValue_eq (s : Slice) : s.toValue = .map (Row.ofOptions s.slots) := rfl

theorem get?_ofOptions_slots (s : Slice) (key : String) :
    Keyed.get? key (Row.ofOptions s.slots) = (Keyed.get? key s.slots).join :=
  Row.get?_ofOptions (by simp [Keyed.keys, slots]) key

/-- A normal slice is read back from its own object. -/
theorem ofEntries_slots {s : Slice} (h : s.Normal) : ofEntries (Row.ofOptions s.slots) = .ok s := by
  have hkeys : Section.slice.check (Row.ofOptions s.slots) = .ok () :=
    Section.check_ofOptions (by simp [Keyed.keys, slots, Section.keys])
  have hafter : Keyed.get? "after" (Row.ofOptions s.slots) = s.after.map .map := by
    rw [get?_ofOptions_slots]; rfl
  have hbefore : Keyed.get? "before" (Row.ofOptions s.slots) = s.before.map .map := by
    rw [get?_ofOptions_slots]; rfl
  have hlimit : Keyed.get? "limit" (Row.ofOptions s.slots) = s.limit.map countToValue := by
    rw [get?_ofOptions_slots]; rfl
  have hoffset : Keyed.get? "offset" (Row.ofOptions s.slots) = s.offset.map countToValue := by
    rw [get?_ofOptions_slots]; rfl
  rw [ofEntries, ofCounts, hkeys, hafter, hbefore, hlimit, hoffset,
    option_mapM_map_eq_ok fun n hn => readCount_countToValue (h.limit n hn),
    option_mapM_map_eq_ok fun n hn => readCount_countToValue (h.offset n hn),
    option_mapM_map_eq_ok fun a _ => readAnchor_map "before" a,
    option_mapM_map_eq_ok fun a _ => readAnchor_map "after" a]
  rfl

theorem eq_empty_of_isUnbounded {s : Slice} (h : s.isUnbounded = true) : s = {} := by
  obtain ⟨limit, offset, before, after⟩ := s
  simp [isUnbounded, hasAnchor] at h
  simp [h]

/-- A normal slice is read back from among clauses that hold it under its own key only. -/
theorem ofClauses_of_get? {s : Slice} {entries : Row} (h : s.Normal)
    (hslice : Keyed.get? "slice" entries = s.toValue?) (hlimit : Keyed.get? "limit" entries = none)
    (hoffset : Keyed.get? "offset" entries = none) : ofClauses entries = .ok s := by
  rw [ofClauses, hslice, toValue?]
  by_cases hs : s.isUnbounded = true
  · rw [if_pos hs, eq_empty_of_isUnbounded hs]
    simp only [ofCounts, hlimit, hoffset]
    rfl
  · rw [if_neg hs, toValue_eq]
    simp only [Keyed.contains, hlimit, hoffset]
    exact ofEntries_slots h

end Slice

/-! ## 3. Selections -/

theorem Select.toRow_eq_map (select : Select) :
    Select.toRow select = select.map fun e => (e.1, e.2.toValue) :=
  eq_map_of_cons (by rw [toRow]) (fun _ _ => by rw [toRow]) select

/-- A selection whose entries are read back is read back as a whole. -/
theorem readAs_toRow {read : String → Value → Except QueryError Selection} {select : Select}
    (h : ∀ e ∈ select, read e.1 e.2.toValue = .ok e.2) :
    ReadAs read (Select.toRow select) select := by
  rw [ReadAs, Select.toRow_eq_map, List.forall₂_map_left_iff, List.forall₂_same]
  exact fun e he => ⟨rfl, h e he⟩

namespace OperatorTable

variable {t : OperatorTable}

theorem readGroupSelection_toValue {s : Selection} (h : s.GroupNormal t) :
    t.readGroupSelection s.toValue = .ok s := by
  cases s with
  | field source => rw [Selection.toValue]; rfl
  | expression e =>
    rw [Selection.toValue]
    obtain ⟨tag, operand, rfl, -⟩ := OperatorTable.Accepts.exists_entry h
    rw [readGroupSelection, requireExpression_eq_ok_iff.mpr h]
    · rfl
    · simp
  | subquery q => exact absurd h id

theorem readGroupSelect_toRow {keys : List String} {select : Select}
    (hsorted : Keyed.Sorted select) (h : ∀ e ∈ select, e.2.GroupNormal t) :
    t.readGroupSelect keys (some (.map (Select.toRow select))) = .ok select := by
  have hread : ReadAs (fun _ v => t.readGroupSelection v) (Select.toRow select) select :=
    readAs_toRow fun e he => readGroupSelection_toValue (h e he)
  exact hread.foldlM_nil_eq hsorted

theorem readAggregates_toValue? {aggregates : Row} (h : ∀ e ∈ aggregates, t.Accepts e.2) :
    t.readAggregates (aggregatesToValue? aggregates) = .ok aggregates := by
  cases aggregates with
  | nil => rfl
  | cons e rest =>
    rw [aggregatesToValue?, readAggregates,
      forM_eq_ok_iff.mpr fun e he => requireExpression_eq_ok_iff.mpr (h e he)]
    · rfl
    · simp

end OperatorTable

theorem readGroupKeys_strings (keys : List String) :
    readGroupKeys (some (.list (keys.map .string))) = .ok keys :=
  mapM_map_eq_ok fun _ _ => rfl

/-! ## 4. Group levels -/

/-- What the object of a group level holds, as optional entries. -/
def GroupOf.slots (g : Group) (inner : List Group) : List (String × Option Value) :=
  [("aggregates", aggregatesToValue? g.aggregates), ("by", some (.list (g.keys.map .string))),
    ("group", groupsToValue? inner), ("order", orderToValue? g.order),
    ("select", some (.map (Select.toRow g.select))), ("slice", g.slice.toValue?),
    ("where", g.filter.map Filter.toValue)]

theorem groupsToValue?_cons (g : Group) (inner : List Group) :
    groupsToValue? (g :: inner) = some (.map (Row.ofOptions (g.slots inner))) := by
  rw [groupsToValue?, GroupOf.slots]

theorem GroupOf.get?_ofOptions_slots (g : Group) (inner : List Group) (key : String) :
    Keyed.get? key (Row.ofOptions (g.slots inner)) = (Keyed.get? key (g.slots inner)).join :=
  Row.get?_ofOptions (by simp [Keyed.keys, GroupOf.slots]) key

namespace Dialect

variable {d : Dialect}

/-- A clause that holds group levels is read as they are. -/
theorem readGroupsAmong_of_get? {depth : Nat} {groups : List Group} {entries : Row}
    (hget : Keyed.get? "group" entries = groupsToValue? groups)
    (h : ∀ v, groupsToValue? groups = some v → d.readGroups depth v = .ok groups) :
    d.readGroupsAmong depth entries = .ok groups := by
  rw [readGroupsAmong_eq, hget]
  cases groups with
  | nil => rw [groupsToValue?]
  | cons g inner =>
    rw [groupsToValue?_cons] at h ⊢
    exact h _ rfl

/-- **Normal group levels are read back.** -/
theorem readGroups_toValue? {groups : List Group} {depth : Nat} {v : Value}
    (h : d.GroupsNormal depth groups) (hv : groupsToValue? groups = some v) :
    d.readGroups depth v = .ok groups := by
  induction groups generalizing depth v with
  | nil => rw [groupsToValue?] at hv; exact absurd hv (by simp)
  | cons g inner ih =>
    obtain ⟨hdepth, hg, hinner⟩ := h
    rw [groupsToValue?_cons] at hv
    obtain rfl := Option.some.inj hv
    have hget := g.get?_ofOptions_slots inner
    refine readGroups_map_eq_ok_iff.mpr ⟨hdepth, ?_, ?_, ?_, ?_, ?_, ?_, ?_, ?_⟩
    · exact Section.check_ofOptions (by simp [Keyed.keys, GroupOf.slots, Section.keys])
    · exact (congrArg _ (hget "by")).trans (readGroupKeys_strings g.keys)
    · exact (congrArg _ (hget "select")).trans
        (OperatorTable.readGroupSelect_toRow hg.sorted hg.select)
    · exact (congrArg _ (hget "aggregates")).trans
        (OperatorTable.readAggregates_toValue? hg.aggregates)
    · exact readGroupsAmong_of_get? (hget "group") fun w hw => ih hinner hw
    · exact (congrArg _ (hget "where")).trans (OperatorTable.readFilter?_toValue hg.filter)
    · exact (congrArg _ (hget "order")).trans (readOrder_toValue? g.order)
    · exact Slice.ofClauses_of_get? hg.slice (hget "slice") (hget "limit") (hget "offset")

end Dialect

/-! ## 5. Queries -/

/-- What the object of a query holds, as optional entries. -/
def QueryOf.slots (q : Query) : List (String × Option Value) :=
  [("group", groupsToValue? q.groups), ("id", q.id.map .string),
    ("order", orderToValue? q.order), ("select", some (.map (Select.toRow q.select))),
    ("slice", q.slice.toValue?), ("type", some (.string q.typeName)),
    ("where", q.filter.map Filter.toValue)]

namespace QueryOf

theorem toValue_eq (q : Query) : q.toValue = .map (Row.ofOptions q.slots) := by
  rw [QueryOf.toValue, Selection.toValue, QueryOf.slots]

theorem get?_ofOptions_slots (q : Query) (key : String) :
    Keyed.get? key (Row.ofOptions q.slots) = (Keyed.get? key q.slots).join :=
  Row.get?_ofOptions (by simp [Keyed.keys, slots]) key

/-- The document of a query is no expression: it has a selection and a type. -/
theorem isExpression_toValue (t : OperatorTable) (q : Query) : t.isExpression q.toValue = false := by
  have hmem : ∀ key, Keyed.get? key (Row.ofOptions q.slots) ≠ none →
      key ∈ Keyed.keys (Row.ofOptions q.slots) := by
    intro key hkey
    by_contra hnot
    exact hkey (Keyed.get?_eq_none_iff.mpr hnot)
  have hselect : Keyed.get? "select" (Row.ofOptions q.slots) ≠ none := by
    rw [get?_ofOptions_slots]
    exact Option.some_ne_none _
  have htype : Keyed.get? "type" (Row.ofOptions q.slots) ≠ none := by
    rw [get?_ofOptions_slots]
    exact Option.some_ne_none _
  rw [toValue_eq]
  exact OperatorTable.isExpression_of_two_keys (hmem _ hselect) (hmem _ htype) (by decide)

end QueryOf

namespace Dialect

variable {d : Dialect}

/-- A normal query is read back if the selections inside it are. -/
theorem readQuery_toValue_of_select {expected : Option String} {t : ResourceType} {depth : Nat}
    {q : Query} (ht : d.schema.type? q.typeName = some t) (hq : q.ClausesNormal d depth)
    (hexpected : ∀ target, expected = some target → q.typeName = target)
    (hid : q.id = none ∨ depth ≤ 1)
    (hselect : ∀ e ∈ q.select, d.readSelection t depth e.1 e.2.toValue = .ok e.2) :
    d.readQuery expected depth q.toValue = .ok q := by
  have hget := q.get?_ofOptions_slots
  rw [q.toValue_eq]
  refine readQuery_map_eq_ok_iff.mpr
    ⟨hq.depth_le, ?_, ?_, ⟨t, some q.select, ht, ?_, rfl⟩, ?_, ?_, ?_, ?_, ?_⟩
  · exact Section.check_ofOptions (by simp [Keyed.keys, QueryOf.slots, Section.keys])
  · have htype : Keyed.get? "type" (Row.ofOptions q.slots) = some (.string q.typeName) :=
      hget "type"
    unfold readTypeName
    rw [htype]
    cases expected with
    | none => rfl
    | some target => exact if_pos (hexpected target rfl)
  · rw [readSelectAmong_eq, hget "select"]
    rw [show (Keyed.get? "select" q.slots).join = some (.map (Select.toRow q.select)) from rfl,
      Option.mapM_some, readSelect, readSelectEntries_eq_foldlM,
      (readAs_toRow hselect).foldlM_nil_eq hq.sorted]
    rfl
  · rw [readId, hget "id"]
    rw [show (Keyed.get? "id" q.slots).join = q.id.map .string from rfl]
    cases hq' : q.id with
    | none => rfl
    | some id =>
      have hdepth : ¬1 < depth := Nat.not_lt.mpr (hid.resolve_left (by simp [hq']))
      simp only [Option.map_some, if_neg hdepth, Value.id?]
  · exact readGroupsAmong_of_get? (hget "group") fun v hv => readGroups_toValue? hq.groups hv
  · exact (congrArg _ (hget "where")).trans (OperatorTable.readFilter?_toValue hq.filter)
  · exact (congrArg _ (hget "order")).trans (readOrder_toValue? q.order)
  · exact Slice.ofClauses_of_get? hq.slice (hget "slice") (hget "limit") (hget "offset")

theorem readSelection_expression {t : ResourceType} {depth : Nat} {key : String} {e : Value}
    (h : d.operators.Accepts e) : d.readSelection t depth key e = .ok (.expression e) := by
  obtain ⟨tag, operand, rfl, -⟩ := h.exists_entry
  rw [readSelection, readEntry, if_pos h.1, h.2]
  rfl

/-- **A normal selection is read back.**  The induction goes down the sub-queries. -/
theorem readSelection_toValue {t : ResourceType} {depth : Nat} {key : String} {s : Selection}
    (h : s.Normal d t depth key) : d.readSelection t depth key s.toValue = .ok s := by
  induction h with
  | @field t depth key source hkind =>
    rw [Selection.toValue, readSelection, readEntry, readSource]
    split
    · next r hr => exact absurd hr (hkind r)
    · rfl
  | expression h =>
    rw [Selection.toValue]
    exact readSelection_expression h
  | @subquery t target depth key q r hr htype hid htarget hq _ ih =>
    have hread : d.readQuery (some r.target) (depth + 1) q.toValue = .ok q := by
      refine readQuery_toValue_of_select htarget hq ?_ (Or.inl hid) ih
      rintro _ ⟨⟩
      exact htype
    have hentry : d.readEntry t depth key q.toValue = .ok (.inr r) := by
      have hexpr := q.isExpression_toValue d.operators
      rw [q.toValue_eq] at hexpr ⊢
      rw [readEntry, hexpr, hr]
      rfl
    rw [← QueryOf.toValue, readSelection, hentry, ok_bind]
    simp only [hread]
    rfl

theorem readQuery_toValue {expected : Option String} {t : ResourceType} {depth : Nat} {q : Query}
    (hq : q.Normal d t depth) (hexpected : ∀ target, expected = some target → q.typeName = target)
    (hid : q.id = none ∨ depth ≤ 1) : d.readQuery expected depth q.toValue = .ok q :=
  readQuery_toValue_of_select hq.type hq.clauses hexpected hid fun e he =>
    readSelection_toValue (hq.select e he)

/-! ## 6. Documents -/

/-- People, who have friends. -/
def people : Dialect where
  schema := ⟨[("Person", {
    name := "Person"
    attributes := [("age", ⟨"age", "Int"⟩), ("name", ⟨"name", "String"⟩)]
    relationships := [("friends", ⟨"friends", "Person", .many, some "friends"⟩)] })]⟩

/-- A document in which almost everything is abbreviated. -/
def peopleDocument : Value := .map [
  ("group", .map [
    ("aggregates", .map [("n", .map [("$count", .null)])]), ("by", .string "age"),
    ("where", .map [("age", .int 30), ("n", .map [("$gt", .int 1)])])]),
  ("order", .list [.map [("age", .string "desc")], .string "name"]),
  ("select", .list [.string "*", .map [("friends", .map [
    ("limit", .int 2), ("order", .string "name"), ("select", .string "name")])]]),
  ("slice", .map [("after", .map [("age", .int 40)])]), ("type", .string "Person"),
  ("where", .map [("$or", .list [.map [], .map [("name", .string "Ann")]])])]

/-- The query that it writes. -/
def peopleQuery : Query where
  typeName := "Person"
  select := [("age", .field "age"),
    ("friends", .subquery {
      typeName := "Person", select := [("name", .field "name")], order := [⟨"name", .asc⟩],
      slice := { limit := some 2 } }),
    ("id", .field "id"), ("name", .field "name")]
  filter := some (.disjunction [.conjunction [], .field "name" (.equals (.string "Ann"))])
  order := [⟨"age", .desc⟩, ⟨"name", .asc⟩]
  slice := { after := some [("age", .int 40)] }
  groups := [{
    keys := ["age"], select := [("age", .field "age")],
    aggregates := [("n", .map [("$count", .null)])],
    filter := some (.conjunction [
      .field "age" (.equals (.int 30)), .field "n" (.expression (.map [("$gt", .int 1)]))]) }]

/-- **What a document is normalized to, written in full, is normalized to itself.** -/
theorem normalize_toValue (d : Dialect) (v : Value) (q : Query) (h : d.normalize v = .ok q) :
    d.normalize q.toValue = .ok q := by
  obtain ⟨⟨t, hq⟩, hid⟩ := normalize_normal h
  have hread : d.readQuery none 1 q.toValue = .ok q :=
    readQuery_toValue hq (by simp) (Or.inr (Nat.le_refl 1))
  have hgroups : (q.id.isSome && !q.groups.isEmpty) = false := by
    cases hsome : q.id.isSome with
    | false => rfl
    | true => simp [hid hsome]
  rw [normalize, hread, ok_bind, hgroups]
  rfl

theorem normalize_toValue_people :
    people.normalize peopleDocument = .ok peopleQuery ∧
      people.normalize peopleQuery.toValue = .ok peopleQuery := by
  have h : people.normalize peopleDocument = .ok peopleQuery := by decide +kernel
  exact ⟨h, normalize_toValue people peopleDocument peopleQuery h⟩

end Dialect

end GraphQuery
