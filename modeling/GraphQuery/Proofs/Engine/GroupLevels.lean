/-
# What group levels read

Group levels run one after the other, each on the rows that the one before it made.  Validation never
sees a row; it takes the names that a level selects and those of its aggregates (`GroupOf.outputs`)
for what its rows carry, checks the filter and the order of the level against them, and the keys and
the plucked names of the next level.

**`groupLevels_haveNames`: it is right about every row at every level.**  So no name that it has
accepted is read as null because it is missing.

For the outermost level this is said of filter and order only.  Its keys are read from the rows of
resources, which may lack an attribute that their type declares.
-/
import GraphQuery.Proofs.Engine.Shape

namespace GraphQuery

/-! ## 1. Runs of levels -/

variable {t : OperatorTable} {rows : List Row}

theorem groupRows_append (outer inner : List Group) (rows : List Row) :
    groupRows t (outer ++ inner) rows = groupRows t outer rows >>= groupRows t inner := by
  induction outer generalizing rows with
  | nil => rfl
  | cons g rest ih =>
    rw [List.cons_append, groupRows, groupRows]
    cases g.level t rows with
    | error err => rfl
    | ok made => exact ih made

/-- A level that has a result has made the row of every part. -/
theorem GroupOf.exists_rowOf_of_rowsOf {g : Group} {parts : List Part}
    (h : g.rowsOf t parts = .ok rows) : ∀ p ∈ parts, ∃ row, g.rowOf t p = .ok row := by
  induction parts generalizing rows with
  | nil => exact nofun
  | cons p rest ih =>
    obtain ⟨row, hrow, h⟩ := bind_eq_ok.mp h
    obtain ⟨_, -, h⟩ := bind_eq_ok.mp h
    obtain ⟨others, hothers, -⟩ := bind_eq_ok.mp h
    exact List.forall_mem_cons.mpr ⟨⟨row, hrow⟩, ih hothers⟩

theorem GroupOf.exists_rowOf_of_level {g : Group} {made : List Row}
    (h : g.level t rows = .ok made) : ∀ p ∈ partition g.keys rows, ∃ row, g.rowOf t p = .ok row := by
  obtain ⟨all, hall, -⟩ := bind_eq_ok.mp h
  exact exists_rowOf_of_rowsOf (QueryError.ofExpr_eq_ok.mp hall)

/-! ## 2. What the rows of a level carry -/

/-- Behind some levels, every row has the names that are known there. -/
theorem namesBehind_subset_keys {groups : List Group} (hne : groups ≠ [])
    (hgroups : ∀ g ∈ groups, g.Normal t ∧ g.Closed) {known : List String} {made : List Row}
    (h : groupRows t groups rows = .ok made) :
    ∀ row ∈ made, namesBehind known groups ⊆ Keyed.keys row := by
  obtain ⟨last, hlast⟩ := Option.isSome_iff_exists.mp (List.getLast?_isSome.mpr hne)
  intro row hrow name hname
  rw [namesBehind, hlast] at hname
  exact (hasOutputs_of_mem_groupRows hgroups hlast h hrow name).mpr hname

theorem GroupOf.HasOutputs.subset_keys {g : Group} {row : Row} (h : g.HasOutputs row)
    {names : List String} (hnames : names ⊆ g.outputs) : names ⊆ Keyed.keys row :=
  fun name hname => (h name).mpr (hnames hname)

namespace Dialect

/-- **Group rows carry exactly the names that validation takes them to carry.**  In a query that was
normalized and validated, or in a query within it, let the levels have a result, and take one of
them.  It has run on the rows that the levels before it made.  The row that it makes of a part has
the selected names and those of the aggregates, and no others, before the filter, the order and the
slice as well as behind them; so it has the names that filter and order read.  Where levels stand
before it, the rows that it is given, and with them the members of its parts, have the names of its
keys and those with which its aggregates pluck. -/
theorem groupLevels_haveNames (d : Dialect) (document : Value) (q : Query)
    (hq : d.normalize document = .ok q) (hvalid : d.schema.validate q = .ok ()) (q' : Query)
    (hq' : q' ∈ q.queries) (outer inner : List Group) (g : Group)
    (hgroups : q'.groups = outer ++ g :: inner) (rows result : List Row)
    (h : groupRows d.operators q'.groups rows = .ok result) :
    ∃ input made, groupRows d.operators outer rows = .ok input ∧
      g.level d.operators input = .ok made ∧ groupRows d.operators inner made = .ok result ∧
      (∀ p ∈ partition g.keys input, p.members ⊆ input ∧ ∃ row, g.rowOf d.operators p = .ok row ∧
        g.HasOutputs row ∧ g.clauseNames ⊆ Keyed.keys row) ∧
      (∀ row ∈ made, g.HasOutputs row ∧ g.clauseNames ⊆ Keyed.keys row) ∧
      (outer ≠ [] → ∀ row ∈ input, g.inputNames ⊆ Keyed.keys row) := by
  obtain ⟨⟨t, hnormal⟩, -⟩ := normalize_normal hq
  obtain ⟨_, _, hnormal'⟩ := hnormal.exists_normal_of_mem_queries q' hq'
  obtain ⟨type, hclauses⟩ := Schema.exists_checkClauses_of_validate hvalid q' hq'
  have hlevels : ∀ g ∈ q'.groups, g.Normal d.operators ∧ g.Closed := fun g hg =>
    ⟨hnormal'.clauses.groups.normal_of_mem hg, QueryOf.closed_of_checkClauses hclauses g hg⟩
  simp only [QueryOf.checkClauses, check_bind_eq_ok] at hclauses
  obtain ⟨-, -, -, hcheck⟩ := hclauses
  rw [hgroups] at hcheck hlevels h
  obtain ⟨hg, hclosed⟩ := hlevels g (List.mem_append_right _ List.mem_cons_self)
  obtain ⟨_, hnames⟩ := exists_check_of_checkGroups_append hcheck
  obtain ⟨hinput, -, hclause, -⟩ := GroupOf.check_eq_ok_iff.mp hnames
  rw [groupRows_append] at h
  obtain ⟨input, houter, h⟩ := bind_eq_ok.mp h
  obtain ⟨made, hlevel, hinner⟩ := bind_eq_ok.mp h
  refine ⟨input, made, houter, hlevel, hinner, fun p hp => ?_, fun row hrow => ?_,
    fun hne row hrow => ?_⟩
  · obtain ⟨row, hrow⟩ := GroupOf.exists_rowOf_of_level hlevel p hp
    have houtputs : g.HasOutputs row := GroupOf.hasOutputs_of_rowOf hg hclosed
      (GroupOf.length_key_of_mem_partition hp) hrow
    exact ⟨members_subset_of_mem_partition hp, row, hrow, houtputs, houtputs.subset_keys hclause⟩
  · have houtputs : g.HasOutputs row := GroupOf.hasOutputs_of_mem_level hg hclosed hlevel hrow
    exact ⟨houtputs, houtputs.subset_keys hclause⟩
  · exact List.Subset.trans hinput (namesBehind_subset_keys hne
      (fun g hg => hlevels g (List.mem_append_left _ hg)) houter row hrow)

/-- How many persons have an age, the most first. -/
def byAge : Group where
  keys := ["age"]
  select := [("years", .field "age")]
  aggregates := [("n", .map [("$count", .null)])]
  filter := some (.field "n" (.expression (.map [("$gt", .int 0)])))
  order := [⟨"n", .desc⟩]

/-- The ages of which there are equally many persons. -/
def byNumber : Group where
  keys := ["n"]
  select := [("n", .field "n")]
  aggregates := [("ages", .map [("$count", .map [("$pluck", .string "years")])])]

/-- A document that groups the groups. -/
def regroupedDocument : Value := .map [
  ("group", .map [
    ("aggregates", .map [("n", .map [("$count", .null)])]), ("by", .string "age"),
    ("group", .map [
      ("aggregates", .map [("ages", .map [("$count", .map [("$pluck", .string "years")])])]),
      ("by", .string "n")]),
    ("order", .map [("n", .string "desc")]),
    ("select", .map [("years", .string "age")]),
    ("where", .map [("n", .map [("$gt", .int 0)])])]),
  ("type", .string "Person")]

/-- The query that it writes. -/
def regroupedQuery : Query where
  typeName := "Person"
  select := []
  groups := [byAge, byNumber]

theorem groupLevels_haveNames_regrouped :
    let rows : List Row := [[("age", .int 30), ("name", .string "Ann")], [("name", .string "Bob")],
      [("age", .int 30), ("name", .string "Cid")]]
    people.normalize regroupedDocument = .ok regroupedQuery ∧
      people.schema.validate regroupedQuery = .ok () ∧
      ∃ input made, groupRows people.operators [byAge] rows = .ok input ∧
        byNumber.level people.operators input = .ok made ∧
        (∀ row ∈ made, byNumber.HasOutputs row) ∧ ∀ row ∈ input, ["n", "years"] ⊆ Keyed.keys row := by
  intro rows
  have hq : people.normalize regroupedDocument = .ok regroupedQuery := by decide +kernel
  have hvalid : people.schema.validate regroupedQuery = .ok () := by decide +kernel
  have hself : regroupedQuery ∈ regroupedQuery.queries := by
    rw [QueryOf.queries]
    exact List.mem_cons_self
  have hresult : groupRows people.operators regroupedQuery.groups rows = .ok [
      [("ages", .int 1), ("n", .int 2)], [("ages", .int 1), ("n", .int 1)]] := by decide +kernel
  obtain ⟨input, made, hinput, hmade, -, -, hnames, hread⟩ :=
    groupLevels_haveNames people regroupedDocument regroupedQuery hq hvalid regroupedQuery hself
      [byAge] [] byNumber rfl rows _ hresult
  exact ⟨hq, hvalid, input, made, hinput, hmade, fun row hrow => (hnames row hrow).1,
    hread (by simp)⟩

end Dialect

end GraphQuery
