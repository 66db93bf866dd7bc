/-
# Grouping the rows of a grouping

A level that only selects its keys makes one row for each signature, with nothing in it but the key
values (`cutRow`).  A missing entry has become an explicit null there, but the key values, and so the
signature, are those of the row it was made from (`signature_cutRow`).

So the rows that are made have different signatures, whatever the values are: a second pass puts each
into a part of its own (`partsBySignature_of_nodup`) and makes the same row of it again.  **The second
pass changes nothing** (`groupRows_regrouped`), neither as a level of its own nor on the result of the
first.  Values are compared bit by bit here; that signatures of different key values may collide, as
those of null and NaN do, is no exception.
-/
import GraphQuery.Proofs.Rows.GroupRows
import GraphQuery.Proofs.Rows.Partitions

namespace GraphQuery

variable {names : List String} {rows : List Row}

/-! ## 1. Rows cut down to their key values -/

/-- The row of the key values of a row, and nothing else. -/
def cutRow (names : List String) (row : Row) : Row :=
  keyedRow names (Row.keyValues names row) []

theorem keyValues_cutRow (names : List String) (row : Row) :
    Row.keyValues names (cutRow names row) = Row.keyValues names row := by
  refine List.map_congr_left fun name hname => ?_
  rw [Row.valueAt, cutRow, get?_keyedRow, List.reverse_nil, Keyed.get?_nil, Option.none_or,
    if_pos hname]
  rfl

/-- **What is cut away does not count for the signature.** -/
theorem signature_cutRow (names : List String) (row : Row) :
    Row.signature names (cutRow names row) = Row.signature names row := by
  rw [Row.signature, keyValues_cutRow, Row.signature]

theorem cutRow_cutRow (names : List String) (row : Row) :
    cutRow names (cutRow names row) = cutRow names row := by
  rw [cutRow, keyValues_cutRow, cutRow]

/-! ## 2. Rows with different signatures -/

/-- A row with a new signature makes a part of its own. -/
theorem place_of_notMem {row : Row} {parts : List (String × Part)}
    (h : Row.signature names row ∉ parts.map Prod.fst) :
    place names row parts =
      parts ++ [(Row.signature names row, ⟨Row.keyValues names row, [row]⟩)] := by
  induction parts with
  | nil => rfl
  | cons e rest ih =>
    obtain ⟨s, p⟩ := e
    rw [List.map_cons, List.mem_cons, not_or] at h
    rw [place, if_neg (Ne.symm h.1), ih h.2, List.cons_append]

/-- **Rows with different signatures are parts of one row each**, in their order. -/
theorem partsBySignature_of_nodup (h : (rows.map (Row.signature names)).Nodup) :
    partsBySignature names rows =
      rows.map fun row => (Row.signature names row, ⟨Row.keyValues names row, [row]⟩) := by
  induction rows using List.reverseRecOn with
  | nil => rfl
  | append_singleton rows row ih =>
    rw [List.map_append, List.nodup_append] at h
    obtain ⟨hrows, -, hnew⟩ := h
    have hparts := ih hrows
    rw [partsBySignature, List.foldl_concat, ← partsBySignature, hparts, place_of_notMem,
      List.map_append, List.map_singleton]
    rw [List.map_map]
    exact fun hmem => hnew _ hmem _ (List.mem_singleton.mpr rfl) rfl

/-! ## 3. Distinct rows -/

/-- The level that makes of each part the row of its key values. -/
def distinctLevel (names : List String) : Group where
  keys := names
  select := Select.ofFields names

/-- The key values of the parts, as rows. -/
def distinctRows (names : List String) (rows : List Row) : List Row :=
  (partition names rows).map fun p => keyedRow names p.key []

theorem level_distinctLevel (t : OperatorTable) (names : List String) (rows : List Row) :
    (distinctLevel names).level t rows = .ok (distinctRows names rows) :=
  @level_plain t (distinctLevel names) rfl rfl rfl rfl rows (fun _ => []) fun _ _ => rfl

theorem distinctRows_nil (rows : List Row) : distinctRows [] rows = [[]] := rfl

/-- Each row that is made is cut from the first row with its signature. -/
theorem exists_cutRow_of_mem_partsBySignature {e : String × Part}
    (he : e ∈ partsBySignature names rows) :
    ∃ first ∈ rows, Row.signature names first = e.1 ∧
      keyedRow names e.2.key [] = cutRow names first := by
  obtain ⟨first, hfirst, hsignature, hkey⟩ := (partsBySignature_collects names rows).first he
  exact ⟨first, hfirst, hsignature, by rw [cutRow, hkey]⟩

/-- **The rows that are made have the signatures of the rows, each once**, in the order of their first
rows. -/
theorem map_signature_distinctRows (hnames : names ≠ []) (rows : List Row) :
    (distinctRows names rows).map (Row.signature names) =
      (rows.map (Row.signature names)).eraseDups := by
  rw [← (partsBySignature_collects names rows).signatures, distinctRows,
    partition_of_ne_nil hnames, List.map_map, List.map_map]
  refine List.map_congr_left fun e he => ?_
  obtain ⟨first, -, hsignature, hmade⟩ := exists_cutRow_of_mem_partsBySignature he
  rw [Function.comp_apply, Function.comp_apply, hmade, signature_cutRow, hsignature]

theorem exists_cutRow_of_mem_distinctRows (hnames : names ≠ []) {made : Row}
    (h : made ∈ distinctRows names rows) : ∃ first ∈ rows, made = cutRow names first := by
  rw [distinctRows, partition_of_ne_nil hnames, List.map_map] at h
  obtain ⟨e, he, rfl⟩ := List.mem_map.mp h
  obtain ⟨first, hfirst, -, hmade⟩ := exists_cutRow_of_mem_partsBySignature he
  exact ⟨first, hfirst, hmade⟩

/-- **Distinct rows are those of their own distinct rows.** -/
theorem distinctRows_distinctRows (names : List String) (rows : List Row) :
    distinctRows names (distinctRows names rows) = distinctRows names rows := by
  by_cases hnames : names = []
  · subst hnames
    rfl
  · have hnodup : ((distinctRows names rows).map (Row.signature names)).Nodup := by
      rw [map_signature_distinctRows hnames]
      exact nodup_eraseDups _
    have hparts : distinctRows names (distinctRows names rows) =
        (distinctRows names rows).map (cutRow names) := by
      rw [distinctRows, partition_of_ne_nil hnames, partsBySignature_of_nodup hnodup, List.map_map,
        List.map_map]
      rfl
    rw [hparts]
    refine (List.map_congr_left fun made hmade => ?_).trans (List.map_id _)
    obtain ⟨first, -, rfl⟩ := exists_cutRow_of_mem_distinctRows hnames hmade
    exact cutRow_cutRow names first

/-- **Regrouping by the same names changes nothing.**  The level that selects its names and has no
other clause makes rows of them, for any names and rows; grouped once more by the same level, these
rows stay as they are, whether they are given to it or the level stands below itself.

The rows have the signatures of the given ones, each once and in the order of their first rows, and
each is cut from a given row; without names there is the one empty row. -/
theorem groupRows_regrouped (t : OperatorTable) (names : List String) (rows : List Row) :
    ∃ out,
      groupRows t [distinctLevel names] rows = .ok out ∧
      groupRows t [distinctLevel names] out = .ok out ∧
      groupRows t [distinctLevel names, distinctLevel names] rows = .ok out ∧
      (names ≠ [] →
        out.map (Row.signature names) = (rows.map (Row.signature names)).eraseDups ∧
          ∀ made ∈ out, ∃ first ∈ rows, made = cutRow names first) ∧
      (names = [] → out = [[]]) := by
  have hlevel := level_distinctLevel t names
  have hagain := distinctRows_distinctRows names rows
  refine ⟨distinctRows names rows, ?_, ?_, ?_, fun hnames => ⟨?_, fun made hmade => ?_⟩, ?_⟩
  · rw [groupRows, hlevel]
    rfl
  · rw [groupRows, hlevel, hagain]
    rfl
  · rw [groupRows, hlevel, ok_bind, groupRows, hlevel, hagain]
    rfl
  · exact map_signature_distinctRows hnames rows
  · exact exists_cutRow_of_mem_distinctRows hnames hmade
  · rintro rfl
    exact distinctRows_nil rows

/-- Null, NaN and a missing entry have one signature; a name that is repeated counts once. -/
example : distinctRows ["a", "a"]
    [[("b", .int 1)], [("a", .float (.nan false))], [("a", .int 2)], [("a", .null)]] =
      [[("a", .null)], [("a", .int 2)]] := by
  decide +kernel

end GraphQuery
