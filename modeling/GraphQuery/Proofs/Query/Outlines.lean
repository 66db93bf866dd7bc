/-
# What validation looks at

Validation reads the names in a query and little else.  The outline of a query keeps just that: of a
filter the paths that it tests, of a selected expression nothing, of an aggregate a summary.  If the
summary keeps the names that the aggregate plucks, the outline is checked as the query is
(**`validate_outline`**), so two queries with one outline are accepted or refused alike.

With a summary that keeps less, two queries with one outline have the same form, but validation may
tell their aggregates apart.
-/
import GraphQuery.Query.Validation
import GraphQuery.Proofs.Entries
import GraphQuery.Proofs.Outcome

namespace GraphQuery

/-! ## 1. Outlines -/

/-- The filter as far as its paths go. -/
def Filter.outline (f : Filter) : Filter :=
  .conjunction (f.paths.map fun path => .field path (.equals .null))

/-- The selection without its expression. -/
def Selection.blank : Selection → Selection
  | .expression _ => .expression .null
  | s => s

section

variable (summary : Value → Value)

/-- The group level without its expressions; of its aggregates the summaries are left. -/
def GroupOf.outline (g : Group) : Group where
  keys := g.keys
  select := Keyed.mapValues Selection.blank g.select
  aggregates := Keyed.mapValues summary g.aggregates
  filter := g.filter.map Filter.outline
  order := g.order
  slice := g.slice

mutual
/-- The selection without its expressions, at any depth. -/
def Selection.outline : Selection → Selection
  | .field source => .field source
  | .expression _ => .expression .null
  | .subquery ⟨typeName, id, select, filter, order, slice, groups⟩ =>
    .subquery ⟨typeName, id, Select.outline select, filter.map Filter.outline, order, slice,
      groups.map (GroupOf.outline summary)⟩
termination_by structural x => x
/-- Entry by entry. -/
def Select.outline : List (String × Selection) → List (String × Selection)
  | [] => []
  | (key, s) :: rest => (key, Selection.outline s) :: Select.outline rest
termination_by structural x => x
end

/-- The query without its expressions; of its aggregates the summaries are left. -/
def QueryOf.outline (q : Query) : Query where
  typeName := q.typeName
  id := q.id
  select := Select.outline summary q.select
  filter := q.filter.map Filter.outline
  order := q.order
  slice := q.slice
  groups := q.groups.map (GroupOf.outline summary)

theorem Select.outline_eq_mapValues (select : Select) :
    Select.outline summary select = Keyed.mapValues (Selection.outline summary) select :=
  eq_map_of_cons (by rw [outline]) (fun _ _ => by rw [outline]) select

theorem Selection.outline_subquery (q : Query) :
    (Selection.subquery q).outline summary = .subquery (q.outline summary) := by
  rw [outline]
  rfl

end

/-! ## 2. What the outline of a filter and of a group level keeps -/

theorem Filter.paths_outline (f : Filter) : f.outline.paths = f.paths := by
  have hparts : ∀ paths : List String,
      Filter.partPaths (paths.map fun path => .field path (.equals .null)) = paths := by
    intro paths
    induction paths with
    | nil => rfl
    | cons path rest ih => rw [List.map_cons, Filter.partPaths, Filter.paths, ih]; rfl
  rw [outline, Filter.paths]
  exact hparts f.paths

theorem Filter.check_outline (within : String) (known : String → Bool) (f? : Option Filter) :
    Filter.check within known (f?.map Filter.outline) = Filter.check within known f? := by
  cases f? with
  | none => rfl
  | some f => rw [Option.map_some, Filter.check, Filter.check, f.paths_outline]

theorem Select.sources_blank (select : Select) :
    Select.sources (Keyed.mapValues Selection.blank select) = Select.sources select := by
  rw [Select.sources, Select.sources, Keyed.mapValues, List.filterMap_map]
  refine List.filterMap_congr fun e _ => ?_
  obtain ⟨key, s⟩ := e
  cases s <;> rfl

theorem ne_wildcard_of_pluckedHead? {operand : Value} {name : String}
    (h : pluckedHead? operand = some name) : name ≠ Path.wildcard := by
  have hfilter := (Option.filter_eq_some_iff.mp h).2
  simpa using hfilter

mutual
/-- A name that is plucked is no wildcard. -/
theorem ne_wildcard_of_mem_pluckedHeads {name : String} :
    (v : Value) → name ∈ pluckedHeads v → name ≠ Path.wildcard
  | .map [(tag, operand)], h => by
    rw [pluckedHeads] at h
    split_ifs at h
    · exact ne_wildcard_of_pluckedHead? (Option.mem_toList.mp h)
    · exact ne_wildcard_of_mem_pluckedHeads operand h
  | .map [], h => absurd h List.not_mem_nil
  | .map (e :: e' :: rest), h => by
    rw [pluckedHeads] at h
    · exact ne_wildcard_of_mem_entries (e :: e' :: rest) h
    · simp
  | .list items, h => by
    rw [pluckedHeads] at h
    exact ne_wildcard_of_mem_items items h
  | .null, h => absurd h List.not_mem_nil
  | .bool _, h => absurd h List.not_mem_nil
  | .int _, h => absurd h List.not_mem_nil
  | .float _, h => absurd h List.not_mem_nil
  | .string _, h => absurd h List.not_mem_nil
theorem ne_wildcard_of_mem_items {name : String} :
    (items : List Value) → name ∈ pluckedHeadsOfItems items → name ≠ Path.wildcard
  | [], h => absurd h List.not_mem_nil
  | v :: rest, h => by
    rw [pluckedHeadsOfItems] at h
    rcases List.mem_append.mp h with h | h
    · exact ne_wildcard_of_mem_pluckedHeads v h
    · exact ne_wildcard_of_mem_items rest h
theorem ne_wildcard_of_mem_entries {name : String} :
    (entries : List (String × Value)) → name ∈ pluckedHeadsOfEntries entries →
      name ≠ Path.wildcard
  | [], h => absurd h List.not_mem_nil
  | (_, v) :: rest, h => by
    rw [pluckedHeadsOfEntries] at h
    rcases List.mem_append.mp h with h | h
    · exact ne_wildcard_of_mem_pluckedHeads v h
    · exact ne_wildcard_of_mem_entries rest h
end

/-- A value that plucks the names that are plucked inside the value, and does no more. -/
def plucks (v : Value) : Value :=
  .list ((pluckedHeads v).map fun name => .map [("$pluck", .list [.string name])])

/-- **It is a summary for validation.** -/
theorem pluckedHeads_plucks (v : Value) : pluckedHeads (plucks v) = pluckedHeads v := by
  have hitems : ∀ names : List String, (∀ name ∈ names, name ≠ Path.wildcard) →
      pluckedHeadsOfItems (names.map fun name => .map [("$pluck", .list [.string name])]) =
        names := by
    intro names hnames
    induction names with
    | nil => rfl
    | cons name rest ih =>
      obtain ⟨hname, hrest⟩ := List.forall_mem_cons.mp hnames
      have hhead : pluckedHead? (.list [.string name]) = some name := by
        unfold pluckedHead?
        exact Option.filter_eq_some_iff.mpr ⟨rfl, by simpa using hname⟩
      rw [List.map_cons, pluckedHeadsOfItems, ih hrest, pluckedHeads, if_pos rfl, hhead]
      rfl
  rw [plucks, pluckedHeads]
  exact hitems _ fun name hname => ne_wildcard_of_mem_pluckedHeads v hname

theorem pluckedHeadsOfEntries_plucks (entries : Row) :
    pluckedHeadsOfEntries (Keyed.mapValues plucks entries) = pluckedHeadsOfEntries entries := by
  induction entries with
  | nil => rfl
  | cons e rest ih =>
    rw [pluckedHeadsOfEntries, ← ih, ← pluckedHeads_plucks e.2]
    rfl

theorem GroupOf.outputs_outline (summary : Value → Value) (g : Group) :
    (g.outline summary).outputs = g.outputs := by
  rw [outputs, outputs, outline, Keyed.keys_mapValues, Keyed.keys_mapValues]

theorem GroupOf.check_outline (within : String) (known : List String) (g : Group) :
    (g.outline plucks).check within known = g.check within known := by
  have hcontains : ∀ name, Keyed.contains name (Keyed.mapValues plucks g.aggregates) =
      Keyed.contains name g.aggregates := by
    intro name
    rw [Keyed.contains, Keyed.contains, Keyed.get?_mapValues, Option.isSome_map]
  rw [check, check, outputs_outline]
  simp only [outline, hcontains, pluckedHeadsOfEntries_plucks, Select.sources_blank,
    Filter.check_outline]

theorem checkGroups_outline (within : String) (known : List String) (groups : List Group) :
    checkGroups within known (groups.map (GroupOf.outline plucks)) =
      checkGroups within known groups := by
  induction groups generalizing within known with
  | nil => rfl
  | cons g inner ih =>
    rw [List.map_cons, checkGroups, checkGroups, g.check_outline, g.outputs_outline]
    simp only [ih]

/-! ## 3. Queries -/

theorem QueryOf.checkClauses_outline (t : ResourceType) (q : Query) :
    (q.outline plucks).checkClauses t = q.checkClauses t := by
  have hfields : t.rowFields (Select.outline plucks q.select) = t.rowFields q.select := by
    rw [ResourceType.rowFields, ResourceType.rowFields, Select.outline_eq_mapValues,
      Keyed.keys_mapValues]
  rw [checkClauses, checkClauses]
  simp only [outline, Filter.check_outline, checkGroups_outline, hfields]

namespace Schema

variable {s : Schema}

mutual
theorem checkSelect_outline : (select : List (String × Selection)) → ∀ t : ResourceType,
    s.checkSelect t (Select.outline plucks select) = s.checkSelect t select
  | [], _ => by rw [Select.outline]
  | (key, x) :: rest, t => by
    rw [Select.outline, checkSelect, checkSelect, checkSelection_outline x t key,
      checkSelect_outline rest t]
termination_by structural select => select
theorem checkSelection_outline : (x : Selection) → ∀ (t : ResourceType) (key : String),
    s.checkSelection t key (x.outline plucks) = s.checkSelection t key x
  | .field _, _, _ => by rw [Selection.outline]
  | .expression _, _, _ => by rw [Selection.outline, checkSelection, checkSelection]
  | .subquery ⟨typeName, id, select, filter, order, slice, groups⟩, t, key => by
    have hclauses : ∀ target, QueryOf.checkClauses target ⟨typeName, id,
        Select.outline plucks select, filter.map Filter.outline, order, slice,
        groups.map (GroupOf.outline plucks)⟩ =
          QueryOf.checkClauses target ⟨typeName, id, select, filter, order, slice, groups⟩ :=
      fun target => QueryOf.checkClauses_outline target
        ⟨typeName, id, select, filter, order, slice, groups⟩
    rw [Selection.outline, checkSelection, checkSelection, List.isEmpty_map]
    simp only [hclauses, checkSelect_outline select]
termination_by structural x => x
end

/-- **The outline of a query is checked as the query is.** -/
theorem validate_outline (q : Query) : s.validate (q.outline plucks) = s.validate q := by
  rw [validate, validate]
  simp only [QueryOf.checkClauses_outline]
  simp only [QueryOf.outline, checkSelect_outline]

end Schema

end GraphQuery
