/-
# Checking queries against the schema

Every name that a query filters, orders or groups by must be known before any resource is read.
Selected names are not checked, but for the relationships of sub-queries and the entries of group
rows.

Rows of resources have the fields of their type, rows to be grouped also the selected entries, and
rows of a group level its selected entries and aggregates.
-/
import GraphQuery.Query.Dialect
import GraphQuery.Rows.Arrangement
import GraphQuery.Value.Path

namespace GraphQuery

/-! ## 1. Names in clauses -/

/-- The first of the names that is not known is an error. -/
def requireKnown (within : String) (known : String → Bool) (names : List String) :
    Except QueryError Unit :=
  match names.find? fun name => !known name with
  | some name => .error (.unknownField within name)
  | none => .ok ()

/-- The first segment of a dotted path. -/
def Path.headOf (path : String) : String := (Path.ofText path).head?.getD ""

mutual
/-- The paths that a filter tests, in order; those within expressions are not among them. -/
def Filter.paths : Filter → List String
  | .conjunction parts => Filter.partPaths parts
  | .disjunction parts => Filter.partPaths parts
  | .negation part => Filter.paths part
  | .field path _ => [path]
  | .expression _ => []
termination_by structural f => f
/-- The paths that the parts of a filter test, in order. -/
def Filter.partPaths : List Filter → List String
  | [] => []
  | f :: rest => Filter.paths f ++ Filter.partPaths rest
termination_by structural fs => fs
end

/-- Every path that a filter tests begins with a known name. -/
def Filter.check (within : String) (known : String → Bool) : Option Filter → Except QueryError Unit
  | none => .ok ()
  | some f => requireKnown within (fun path => known (Path.headOf path)) f.paths

/-- Every sort key is a known name. -/
def checkOrder (within : String) (known : String → Bool) (order : List OrderKey) :
    Except QueryError Unit :=
  requireKnown within known (order.map OrderKey.field)

/-! ## 2. Names in aggregates -/

/-- The name with which the operand of `$pluck` begins, if that can be told and is no wildcard. -/
def pluckedHead? (operand : Value) : Option String :=
  let head :=
    match operand with
    | .string path => (Path.ofText path).head?
    | .list (.string segment :: _) => some segment
    | _ => none
  head.filter fun name => name != Path.wildcard

mutual
/-- The names with which the operands of `$pluck` inside a value begin, in order. -/
def pluckedHeads : Value → List String
  | .map [(tag, operand)] =>
    if tag = "$pluck" then (pluckedHead? operand).toList else pluckedHeads operand
  | .map entries => pluckedHeadsOfEntries entries
  | .list items => pluckedHeadsOfItems items
  | _ => []
/-- Those inside the items. -/
def pluckedHeadsOfItems : List Value → List String
  | [] => []
  | v :: rest => pluckedHeads v ++ pluckedHeadsOfItems rest
/-- Those inside the values of the entries. -/
def pluckedHeadsOfEntries : List (String × Value) → List String
  | [] => []
  | (_, v) :: rest => pluckedHeads v ++ pluckedHeadsOfEntries rest
end

/-! ## 3. Group levels -/

/-- The sources of the fields in a selection. -/
def Select.sources (select : Select) : List String :=
  select.filterMap fun e =>
    match e.2 with
    | .field source => some source
    | _ => none

/-- A group level names only what it knows: keys and plucked fields are among those of its input,
selected fields are keys or aggregates, and filter and order read its own rows. -/
def GroupOf.check (within : String) (known : List String) (g : Group) : Except QueryError Unit := do
  requireKnown within known.contains g.keys
  requireKnown within (fun name => g.keys.contains name || Keyed.contains name g.aggregates)
    (Select.sources g.select)
  requireKnown within known.contains (pluckedHeadsOfEntries g.aggregates)
  Filter.check within g.outputs.contains g.filter
  checkOrder within g.outputs.contains g.order
  g.slice.check g.order

/-- Group levels, each of which knows the outputs of the one before it. -/
def checkGroups (within : String) (known : List String) : List Group → Except QueryError Unit
  | [] => .ok ()
  | g :: inner => do
    g.check within known
    checkGroups (within ++ ".group") g.outputs inner

/-! ## 4. Queries -/

/-- The names that the rows to be grouped have. -/
def ResourceType.rowFields (t : ResourceType) (select : Select) : List String :=
  ["id", t.idAttribute] ++ t.attributeNames ++ Keyed.keys select

/-- The clauses of a query on a type, its selection apart, name only what the type has. -/
def QueryOf.checkClauses (t : ResourceType) (q : Query) : Except QueryError Unit := do
  Filter.check t.name (fun name => !(t.fieldKind name).isUnknown) q.filter
  checkOrder t.name (fun name => (t.fieldKind name).isAttribute) q.order
  q.slice.check q.order
  checkGroups (t.name ++ ".group") (t.rowFields q.select) q.groups

namespace Schema

variable (s : Schema)

mutual
/-- The query that makes an entry is one for the resources of the relationship of that name, and
grouped only if there may be many. -/
def checkSelection (t : ResourceType) (key : String) : Selection → Except QueryError Unit
  | .subquery ⟨typeName, id, select, filter, order, slice, groups⟩ =>
    match t.relationship? key with
    | none => .error (.unknownField t.name key)
    | some r =>
      if r.target ≠ typeName then .error (.invalidQuery (.subqueryTarget key r.target typeName))
      else if !r.isMany && !groups.isEmpty then .error (.invalidQuery (.groupedToOne key))
      else do
        let target ← s.requireType typeName
        checkSelect target select
        QueryOf.checkClauses target ⟨typeName, id, select, filter, order, slice, groups⟩
  | .field _ => .ok ()
  | .expression _ => .ok ()
termination_by structural x => x
/-- The entries of a selection, in order. -/
def checkSelect (t : ResourceType) : List (String × Selection) → Except QueryError Unit
  | [] => .ok ()
  | (key, x) :: rest => do
    checkSelection t key x
    checkSelect t rest
termination_by structural x => x
end

/-- A query fits the schema. -/
def validate (q : Query) : Except QueryError Unit := do
  let t ← s.requireType q.typeName
  s.checkSelect t q.select
  q.checkClauses t

end Schema

end GraphQuery
