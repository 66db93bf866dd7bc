/-
# The row of a part

A level that selects its own keys, as a level does that selects nothing in particular, makes of each
part the row of its key values, and over them the aggregates (`rowOf_ofFields`).  What stands in it
under a name is the aggregate of that name, or else the key value (**`get?_keyedRow`**).

A level without filter, order and slice keeps the rows of all parts, in the order of the parts
(**`level_plain`**).
-/
import GraphQuery.Proofs.Outcome
import GraphQuery.Proofs.Entries
import GraphQuery.Proofs.Ordering.Anchors
import GraphQuery.Rows.Grouping

namespace GraphQuery

/-! ## 1. Selections of fields -/

/-- What a selected field takes from a context. -/
def Selection.fieldIn (context : Row) : Selection → Option Value
  | .field source => Keyed.get? source context
  | _ => none

namespace Select

/-- What a selection of fields takes from a context. -/
def fieldsIn (context : Row) (select : Select) : Row :=
  Row.ofOptions (Keyed.mapValues (Selection.fieldIn context) select)

theorem fromContext_of_fields {t : OperatorTable} {context : Row} {select : Select}
    (h : ∀ e ∈ select, ∃ source, e.2 = .field source) :
    fromContext t context select = .ok (fieldsIn context select) := by
  induction select with
  | nil => rfl
  | cons e rest ih =>
    obtain ⟨key, s⟩ := e
    obtain ⟨source, rfl⟩ : ∃ source, s = .field source := h _ List.mem_cons_self
    rw [fromContext, ih fun e he => h e (List.mem_cons_of_mem _ he), ok_bind]
    have hrow : fieldsIn context ((key, .field source) :: rest) =
        ((Keyed.get? source context).map fun v => (key, v)).toList ++ fieldsIn context rest := by
      rw [fieldsIn, fieldsIn, Keyed.mapValues, List.map_cons, Row.ofOptions, List.filterMap_cons]
      dsimp only [Selection.fieldIn]
      cases Keyed.get? source context <;> rfl
    rw [hrow]
    cases Keyed.get? source context <;> rfl

theorem exists_field_of_mem_ofFields {names : List String} {e : String × Selection}
    (h : e ∈ ofFields names) : ∃ source, e.2 = .field source := by
  obtain ⟨name, -, rfl⟩ := List.mem_map.mp ((Keyed.mem_overlay h).resolve_left List.not_mem_nil)
  exact ⟨name, rfl⟩

theorem get?_fieldsIn_ofFields (context : Row) (names : List String) (key : String) :
    Keyed.get? key (fieldsIn context (ofFields names)) =
      if key ∈ names then Keyed.get? key context else none := by
  have hnodup : (Keyed.keys (ofFields names)).Nodup := (Keyed.sorted_ofList _).nodup
  rw [fieldsIn, Row.get?_ofOptions (by rw [Keyed.keys_mapValues]; exact hnodup),
    Keyed.get?_mapValues, get?_ofFields]
  split <;> rfl

end Select

/-! ## 2. Rows of keys and aggregates -/

/-- The row of a key and aggregates. -/
def keyedRow (names : List String) (key : List Value) (aggregates : Row) : Row :=
  Keyed.overlay
    (Select.fieldsIn (Keyed.overlay (Keyed.ofList (names.zip key)) aggregates)
      (Select.ofFields names))
    aggregates

theorem zip_keyValues (names : List String) (row : Row) :
    names.zip (Row.keyValues names row) = names.map fun name => (name, Row.valueAt row name) := by
  induction names with
  | nil => rfl
  | cons name rest ih => exact congrArg _ ih

/-- The key values of a row as a map. -/
theorem get?_ofList_zip (names : List String) (row : Row) (name : String) :
    Keyed.get? name (Keyed.ofList (names.zip (Row.keyValues names row))) =
      if name ∈ names then some (Row.valueAt row name) else none := by
  rw [zip_keyValues, Keyed.ofList, Keyed.get?_overlay, Keyed.get?_nil, Option.or_none,
    ← List.map_reverse, Keyed.get?_map_names]
  simp only [List.mem_reverse]

/-- **Under a name stands the aggregate, or else the key value.** -/
theorem get?_keyedRow (names : List String) (row aggregates : Row) (name : String) :
    Keyed.get? name (keyedRow names (Row.keyValues names row) aggregates) =
      (Keyed.get? name aggregates.reverse).or
        (if name ∈ names then some (Row.valueAt row name) else none) := by
  rw [keyedRow, Keyed.get?_overlay, Select.get?_fieldsIn_ofFields, Keyed.get?_overlay,
    get?_ofList_zip]
  cases Keyed.get? name aggregates.reverse with
  | some v => rfl
  | none =>
    rw [Option.none_or, Option.none_or]
    split <;> rfl

variable {t : OperatorTable} {g : Group}

/-- A level that selects its keys makes rows of keys and aggregates. -/
theorem rowOf_ofFields (hselect : g.select = Select.ofFields g.keys) {p : Part} {aggregates : Row}
    (h : g.aggregate t p.members = .ok aggregates) :
    g.rowOf t p = .ok (keyedRow g.keys p.key aggregates) := by
  rw [GroupOf.rowOf, h, ok_bind, hselect,
    Select.fromContext_of_fields fun e he => Select.exists_field_of_mem_ofFields he, ok_bind]
  rfl

/-! ## 3. Levels that keep all rows -/

theorem stable_of_ne_lt {α : Type} {cmp : α → α → Ordering} (h : ∀ x y, cmp x y ≠ .lt)
    (xs : List α) : Sorting.stable cmp xs = xs := by
  have hfold : ∀ acc : List α,
      xs.foldl (fun sorted x => Sorting.insertDescending cmp x sorted) acc = xs.reverse ++ acc := by
    induction xs with
    | nil => exact fun _ => rfl
    | cons x rest ih =>
      intro acc
      have hinsert : Sorting.insertDescending cmp x acc = x :: acc := by
        cases acc with
        | nil => rfl
        | cons y _ => exact if_neg (h x y)
      rw [List.foldl_cons, ih, hinsert, List.reverse_cons, List.append_assoc, List.singleton_append]
  rw [Sorting.stable, hfold, List.append_nil, List.reverse_reverse]

theorem compareItems_nil {α : Type} (key : α → String → Value) (x y : α) :
    compareItems key [] x y = .eq := by
  simp [compareItems, compareTuples]

theorem sortItems_nil {α : Type} (key : α → String → Value) (items : List α) :
    sortItems key [] items = items :=
  stable_of_ne_lt (fun _ _ => by rw [compareItems_nil]; decide) items

/-- Where all items are equal, the result of the sort is settled. -/
theorem sortSettled_nil {α : Type} (key : α → String → Value) (items : List α) :
    sortSettled key [] items = .ok items := by
  have hpre : Sorting.PreorderOn (· ∈ items) (compareItems key []) :=
    ⟨fun _ _ => by simp [compareItems_nil], fun _ _ _ _ _ => by simp [compareItems_nil]⟩
  rw [sortSettled_of_isSettled (Sorting.settled_of_preorderOn hpre), sortItems_nil]

/-- Without a slice all items are put in order. -/
theorem arrange_unsliced {α : Type} (key : α → String → Value) (order : List OrderKey)
    (items : List α) : arrange key order {} items = sortSettled key order items := by
  have hadmits : ∀ sorted : List α, ∀ x ∈ sorted,
      ({} : Slice).admits order (tupleOf key order x) = true := fun _ _ _ => rfl
  show (sortSettled key order items >>= fun sorted => pure _) = _
  cases sortSettled key order items with
  | error err => rfl
  | ok sorted =>
    rw [ok_bind, List.filter_eq_self.mpr (hadmits sorted), Slice.cut_of_unlimited rfl rfl]
    rfl

/-- Without order and slice the items stay as they are. -/
theorem arrange_plain {α : Type} (key : α → String → Value) (items : List α) :
    arrange key [] {} items = .ok items := by
  rw [arrange_unsliced, sortSettled_nil]

/-- **A level without filter, order and slice keeps the rows of all parts.** -/
theorem level_plain (hselect : g.select = Select.ofFields g.keys) (hfilter : g.filter = none)
    (horder : g.order = []) (hslice : g.slice = {}) {rows : List Row}
    {aggregates : Part → Row}
    (h : ∀ p ∈ partition g.keys rows, g.aggregate t p.members = .ok (aggregates p)) :
    g.level t rows =
      .ok ((partition g.keys rows).map fun p => keyedRow g.keys p.key (aggregates p)) := by
  have hrows : ∀ parts : List Part,
      (∀ p ∈ parts, g.aggregate t p.members = .ok (aggregates p)) →
        g.rowsOf t parts = .ok (parts.map fun p => keyedRow g.keys p.key (aggregates p)) := by
    intro parts hparts
    induction parts with
    | nil => rfl
    | cons p rest ih =>
      rw [GroupOf.rowsOf, rowOf_ofFields hselect (hparts p List.mem_cons_self), hfilter,
        ih fun q hq => hparts q (List.mem_cons_of_mem _ hq)]
      rfl
  rw [GroupOf.level, hrows _ h, horder, hslice]
  exact arrange_plain Row.valueAt _

end GraphQuery
