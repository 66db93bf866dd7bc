/-
# Reading, part by part

The readers of filters and selections recur into the document together with the readers of its lists
and maps.  Here each of the latter is a plain loop over the former (`readFilterEntries_eq_mapM`,
`readSelectEntries_eq_foldlM`), and a clause is read from what stands under its key
(`readSelectAmong_eq`, `readGroupsAmong_eq`).  `ReadAs` says of a map what such a loop makes of it,
entry by entry.  So a proof about filters or queries is one induction on the size of a document, with
the parts found under keys and in lists, instead of one induction for every kind of part.
-/
import GraphQuery.Proofs.Outcome
import GraphQuery.Proofs.Entries
import GraphQuery.Query.Normalization

namespace GraphQuery

/-! ## 1. Filters -/

namespace OperatorTable

variable (t : OperatorTable)

/-- The filters of a list, the operand of a tag that combines filters. -/
def readParts (tag : String) : Value → Except QueryError (List Filter)
  | .list items => items.mapM t.readFilter
  | _ => .error (.invalidQuery (.filtersExpected tag))

/-- The filter of one entry: `$and`, `$or` and `$not` go into the operand. -/
def readFilterEntry (key : String) (v : Value) : Except QueryError Filter :=
  if key = "$and" then (t.readParts key v).map .conjunction
  else if key = "$or" then (t.readParts key v).map .disjunction
  else if key = "$not" then (t.readFilter v).map .negation
  else if isTag key then t.readRowTest key v
  else (t.readCondition v).map (.field key)

theorem readFilterItems_eq_mapM (items : List Value) :
    t.readFilterItems items = items.mapM t.readFilter := by
  induction items with
  | nil => rfl
  | cons v rest ih => rw [readFilterItems, List.mapM_cons, ih]

theorem readFilterEntries_eq_mapM (entries : List (String × Value)) :
    t.readFilterEntries entries = entries.mapM fun e => t.readFilterEntry e.1 e.2 := by
  induction entries with
  | nil => rfl
  | cons e rest ih =>
    obtain ⟨key, v⟩ := e
    rw [List.mapM_cons, ← ih, readFilterEntry]
    split_ifs with hand hor hnot htag
    · cases v <;>
        simp only [readFilterEntries, readParts, if_pos hand, readFilterItems_eq_mapM,
          map_bind] <;> rfl
    · cases v <;>
        simp only [readFilterEntries, readParts, if_neg hand, if_pos hor, readFilterItems_eq_mapM,
          map_bind] <;> rfl
    · cases v <;>
        simp only [readFilterEntries, if_neg hand, if_neg hor, if_pos hnot, map_bind] <;> rfl
    · cases v <;>
        simp only [readFilterEntries, if_neg hand, if_neg hor, if_neg hnot, if_pos htag]
    · cases v <;>
        simp only [readFilterEntries, if_neg hand, if_neg hor, if_neg hnot, if_neg htag,
          map_bind] <;> rfl

theorem readFilter_map (entries : List (String × Value)) :
    t.readFilter (.map entries) =
      (entries.mapM fun e => t.readFilterEntry e.1 e.2).map .ofParts := by
  rw [readFilter, readFilterEntries_eq_mapM]
  rfl

end OperatorTable

/-! ## 2. Rows and the selections they are read as -/

section Entries

variable {read : String → Value → Except QueryError Selection}

/-- The selection with what is read from one more entry. -/
def putEntry (read : String → Value → Except QueryError Selection) (select : Select)
    (e : String × Value) : Except QueryError Select := do
  let s ← read e.1 e.2
  return Keyed.insert e.1 s select

theorem putEntry_eq_ok_iff {select select' : Select} {e : String × Value} :
    putEntry read select e = .ok select' ↔
      ∃ s, read e.1 e.2 = .ok s ∧ Keyed.insert e.1 s select = select' := by
  simp only [putEntry, bind_eq_ok, pure_eq_ok]

/-- The row and the selection have the same keys, and under each key the selection has what is read
from the row. -/
def ReadAs (read : String → Value → Except QueryError Selection) (row : Row) (select : Select) :
    Prop :=
  List.Forall₂ (fun e s => e.1 = s.1 ∧ read e.1 e.2 = .ok s.2) row select

namespace ReadAs

variable {row : Row} {select : Select}

theorem insert {key : String} {v : Value} {s : Selection} (h : ReadAs read row select)
    (hv : read key v = .ok s) : ReadAs read (Keyed.insert key v row) (Keyed.insert key s select) := by
  induction h with
  | nil => exact .cons ⟨rfl, hv⟩ .nil
  | @cons e s' row select he hrest ih =>
    obtain ⟨k, w⟩ := e
    obtain ⟨k', s'⟩ := s'
    obtain ⟨rfl, hw⟩ := he
    rw [Keyed.insert, Keyed.insert]
    split_ifs
    · exact .cons ⟨rfl, hv⟩ (.cons ⟨rfl, hw⟩ hrest)
    · exact .cons ⟨rfl, hv⟩ hrest
    · exact .cons ⟨rfl, hw⟩ ih

/-- Entries that are read one after the other are laid over the row. -/
theorem overlay {entries : Row} {select' : Select} (h : ReadAs read row select)
    (hentries : entries.foldlM (putEntry read) select = .ok select') :
    ReadAs read (Keyed.overlay row entries) select' := by
  induction entries generalizing row select with
  | nil =>
    rw [List.foldlM_nil, pure_eq_ok] at hentries
    exact hentries ▸ h
  | cons e rest ih =>
    rw [List.foldlM_cons, bind_eq_ok] at hentries
    obtain ⟨next, hnext, hrest⟩ := hentries
    obtain ⟨s, hs, rfl⟩ := putEntry_eq_ok_iff.mp hnext
    rw [Keyed.overlay_cons]
    exact ih (h.insert hs) hrest

theorem keys_eq (h : ReadAs read row select) : Keyed.keys row = Keyed.keys select := by
  induction h with
  | nil => rfl
  | cons he _ ih => exact congrArg₂ List.cons he.1 ih

theorem sorted_iff (h : ReadAs read row select) : Keyed.Sorted row ↔ Keyed.Sorted select := by
  rw [Keyed.Sorted, Keyed.Sorted, h.keys_eq]

/-- A row that is read as a selection lays it over what was there. -/
theorem foldlM_eq (h : ReadAs read row select) (acc : Select) :
    row.foldlM (putEntry read) acc = .ok (Keyed.overlay acc select) := by
  induction h generalizing acc with
  | nil => rfl
  | @cons e s row select he _ ih =>
    have hput : putEntry read acc e = .ok (Keyed.insert s.1 s.2 acc) :=
      putEntry_eq_ok_iff.mpr ⟨s.2, he.2, by rw [he.1]⟩
    rw [List.foldlM_cons, hput, ok_bind, ih, Keyed.overlay_cons]

/-- A map that is read as a selection gives it from the start. -/
theorem foldlM_nil_eq (h : ReadAs read row select) (hsorted : Keyed.Sorted select) :
    row.foldlM (putEntry read) [] = .ok select := by
  rw [h.foldlM_eq, ← Keyed.ofList, Keyed.ofList_of_sorted hsorted]

end ReadAs

end Entries

/-! ## 3. Selections and group levels -/

namespace Dialect

variable (d : Dialect)

/-- The selection that a document writes under a key. -/
def readSelection (t : ResourceType) (depth : Nat) (key : String) (v : Value) :
    Except QueryError Selection := do
  match ← d.readEntry t depth key v with
  | .inl s => return s
  | .inr r =>
    let q ← d.readQuery (some r.target) (depth + 1) v
    return .subquery q

/-- The selection with what one more item writes. -/
def readSelectItem (t : ResourceType) (depth : Nat) (select : Select) :
    Value → Except QueryError Select
  | .string name => d.readName t depth name select
  | .map entries => d.readSelectEntries t depth entries select
  | v => .error (.invalidQuery (.selectItemExpected v.kind))

theorem readSelectEntries_eq_foldlM (t : ResourceType) (depth : Nat)
    (entries : List (String × Value)) (select : Select) :
    d.readSelectEntries t depth entries select =
      entries.foldlM (putEntry (d.readSelection t depth)) select := by
  induction entries generalizing select with
  | nil => rw [readSelectEntries]; rfl
  | cons e rest ih =>
    obtain ⟨key, v⟩ := e
    rw [readSelectEntries, List.foldlM_cons, putEntry, readSelection]
    cases d.readEntry t depth key v with
    | error e => rfl
    | ok sum =>
      cases sum with
      | inl s => exact ih _
      | inr r =>
        simp only [ok_bind]
        cases d.readQuery (some r.target) (depth + 1) v with
        | error e => rfl
        | ok q => exact ih _

theorem readSelectItems_eq_foldlM (t : ResourceType) (depth : Nat) (items : List Value)
    (select : Select) :
    d.readSelectItems t depth items select =
      items.foldlM (d.readSelectItem t depth) select := by
  induction items generalizing select with
  | nil => rw [readSelectItems]; rfl
  | cons v rest ih =>
    rw [List.foldlM_cons]
    cases v <;> simp only [readSelectItems, readSelectItem, ih, error_bind]

theorem readSelectAmong_eq (t : ResourceType) (depth : Nat) (entries : List (String × Value)) :
    d.readSelectAmong t depth entries =
      (Keyed.get? "select" entries).mapM (d.readSelect t depth) := by
  induction entries with
  | nil => rw [readSelectAmong]; rfl
  | cons e rest ih =>
    obtain ⟨key, v⟩ := e
    rw [readSelectAmong, Keyed.get?]
    split
    · cases h : d.readSelect t depth v <;> simp [h]
    · exact ih

theorem readGroupsAmong_eq (depth : Nat) (entries : List (String × Value)) :
    d.readGroupsAmong depth entries =
      match Keyed.get? "group" entries with
      | none => .ok []
      | some v => d.readGroups depth v := by
  induction entries with
  | nil => rw [readGroupsAmong]; rfl
  | cons e rest ih =>
    obtain ⟨key, v⟩ := e
    rw [readGroupsAmong, Keyed.get?]
    split
    · rfl
    · exact ih

/-! ## 4. A query is read if all of its parts are -/

variable {d}

theorem checkDepth_eq_ok_iff {depth : Nat} :
    d.checkDepth depth = .ok () ↔ depth ≤ d.maxDepth := by
  unfold checkDepth
  split_ifs with h <;> simp [h]

theorem requireType_eq_ok_iff {s : Schema} {name : String} {t : ResourceType} :
    s.requireType name = .ok t ↔ s.type? name = some t := by
  unfold Schema.requireType
  split <;> simp_all

/-- What a map must hold to be read as a given query. -/
theorem readQuery_map_eq_ok_iff {expected : Option String} {depth : Nat}
    {entries : List (String × Value)} {q : Query} :
    d.readQuery expected depth (.map entries) = .ok q ↔
      depth ≤ d.maxDepth ∧ Section.query.check entries = .ok () ∧
      readTypeName expected entries = .ok q.typeName ∧
      (∃ t select?, d.schema.type? q.typeName = some t ∧
        d.readSelectAmong t depth entries = .ok select? ∧
        requireSelect q.typeName q.groups select? = .ok q.select) ∧
      readId depth entries = .ok q.id ∧ d.readGroupsAmong depth entries = .ok q.groups ∧
      d.operators.readFilter? (Keyed.get? "where" entries) = .ok q.filter ∧
      readOrder (Keyed.get? "order" entries) = .ok q.order ∧
      Slice.ofClauses entries = .ok q.slice := by
  simp only [readQuery, bind_eq_ok, pure_eq_ok, requireType_eq_ok_iff]
  constructor
  · rintro ⟨⟨⟩, hdepth, ⟨⟩, hkeys, typeName, htype, t, ht, id, hid, groups, hgroups, select?,
      hselect?, select, hselect, filter, hfilter, order, horder, slice, hslice, rfl⟩
    exact ⟨checkDepth_eq_ok_iff.mp hdepth, hkeys, htype, ⟨t, select?, ht, hselect?, hselect⟩,
      hid, hgroups, hfilter, horder, hslice⟩
  · rintro ⟨hdepth, hkeys, htype, ⟨t, select?, ht, hselect?, hselect⟩, hid, hgroups, hfilter,
      horder, hslice⟩
    exact ⟨(), checkDepth_eq_ok_iff.mpr hdepth, (), hkeys, q.typeName, htype, t, ht, q.id, hid,
      q.groups, hgroups, select?, hselect?, q.select, hselect, q.filter, hfilter, q.order, horder,
      q.slice, hslice, rfl⟩

/-- What a map must hold to be read as a given group level with the levels inside it. -/
theorem readGroups_map_eq_ok_iff {depth : Nat} {entries : List (String × Value)} {g : Group}
    {inner : List Group} :
    d.readGroups depth (.map entries) = .ok (g :: inner) ↔
      depth ≤ d.maxDepth ∧ Section.group.check entries = .ok () ∧
      readGroupKeys (Keyed.get? "by" entries) = .ok g.keys ∧
      d.operators.readGroupSelect g.keys (Keyed.get? "select" entries) = .ok g.select ∧
      d.operators.readAggregates (Keyed.get? "aggregates" entries) = .ok g.aggregates ∧
      d.readGroupsAmong (depth + 1) entries = .ok inner ∧
      d.operators.readFilter? (Keyed.get? "where" entries) = .ok g.filter ∧
      readOrder (Keyed.get? "order" entries) = .ok g.order ∧
      Slice.ofClauses entries = .ok g.slice := by
  simp only [readGroups, bind_eq_ok, pure_eq_ok]
  constructor
  · rintro ⟨⟨⟩, hdepth, ⟨⟩, hkeys, keys, hby, select, hselect, aggregates, haggregates, inner',
      hinner, filter, hfilter, order, horder, slice, hslice, h⟩
    obtain ⟨rfl, rfl⟩ := List.cons.inj h
    exact ⟨checkDepth_eq_ok_iff.mp hdepth, hkeys, hby, hselect, haggregates, hinner, hfilter,
      horder, hslice⟩
  · rintro ⟨hdepth, hkeys, hby, hselect, haggregates, hinner, hfilter, horder, hslice⟩
    exact ⟨(), checkDepth_eq_ok_iff.mpr hdepth, (), hkeys, g.keys, hby, g.select, hselect,
      g.aggregates, haggregates, inner, hinner, g.filter, hfilter, g.order, horder, g.slice,
      hslice, rfl⟩

/-- A group clause gives at least one level. -/
theorem exists_cons_of_readGroups {depth : Nat} {v : Value} {groups : List Group}
    (h : d.readGroups depth v = .ok groups) :
    ∃ entries g inner, v = .map entries ∧ groups = g :: inner := by
  cases v with
  | map entries =>
    simp only [readGroups, bind_eq_ok, pure_eq_ok] at h
    obtain ⟨-, -, -, -, keys, -, select, -, aggregates, -, inner, -, filter, -, order, -, slice,
      -, h⟩ := h
    exact ⟨entries, _, inner, rfl, h.symm⟩
  | _ =>
    simp only [readGroups, check_bind_eq_ok] at h
    exact absurd h.2 (by simp)

/-- Only a map is read as a query. -/
theorem exists_map_of_readQuery {expected : Option String} {depth : Nat} {v : Value} {q : Query}
    (h : d.readQuery expected depth v = .ok q) : ∃ entries, v = .map entries := by
  cases v with
  | map entries => exact ⟨entries, rfl⟩
  | _ =>
    simp only [readQuery, check_bind_eq_ok] at h
    exact absurd h.2 (by simp)

end Dialect

end GraphQuery
