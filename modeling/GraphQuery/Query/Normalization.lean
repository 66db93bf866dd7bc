/-
# Reading queries

A query document is read into a `Query`: every shorthand is written out, and what cannot be a query
is refused with the first fault in a fixed order.

* Depth, keys and type come first, then the id, the group levels, the selection, and the other
  clauses.
* A selected name is a field, or a relationship, of whose resources everything is then selected.  A
  selected map is an expression if its tag has an operator, else a query for the relationship of
  the entry's name.
* Group levels select from their keys and aggregates; without a selection, the keys.

Reading follows the document and asks the schema only for types; it ends because it goes into the
document with every step.
-/
import GraphQuery.Query.Clause

namespace GraphQuery

/-! ## 1. Group levels -/

/-- The keys of a group level: one name or a list of names. -/
def readGroupKeys : Option Value → Except QueryError (List String)
  | some (.string name) => .ok [name]
  | some (.list items) =>
    items.mapM fun v =>
      match v with
      | .string name => .ok name
      | _ => .error (.invalidQuery .groupKeyNotText)
  | some v => .error (.invalidQuery (.groupKeysExpected v.kind))
  | none => .error (.invalidQuery .groupKeysMissing)

namespace OperatorTable

variable (t : OperatorTable)

/-- The selection of one entry of a group row: a name or an expression. -/
def readGroupSelection : Value → Except QueryError Selection
  | .string source => .ok (.field source)
  | v => do
    t.requireExpression v
    return .expression v

/-- The selection with one more item: a name, `*` for all keys, or a map. -/
def readGroupItem (keys : List String) (select : Select) : Value → Except QueryError Select
  | .string "*" => .ok (Keyed.overlay select (Select.ofFields keys))
  | .string name => .ok (Keyed.insert name (.field name) select)
  | .map entries =>
    entries.foldlM (fun select e => do
      let s ← t.readGroupSelection e.2
      return Keyed.insert e.1 s select) select
  | v => .error (.invalidQuery (.groupItemExpected v.kind))

/-- The selection of a group level: items in a list, or a single one; without it, the keys. -/
def readGroupSelect (keys : List String) : Option Value → Except QueryError Select
  | none => .ok (.ofFields keys)
  | some (.list items) => items.foldlM (t.readGroupItem keys) []
  | some v => t.readGroupItem keys [] v

/-- The aggregates of a group level: a map of expressions. -/
def readAggregates : Option Value → Except QueryError Row
  | none => .ok []
  | some (.map entries) => do
    entries.forM fun e => t.requireExpression e.2
    return entries
  | some v => .error (.invalidQuery (.aggregatesExpected v.kind))

end OperatorTable

namespace Dialect

variable (d : Dialect)

mutual
/-- The group levels of a document, at a depth. -/
def readGroups (depth : Nat) : Value → Except QueryError (List Group)
  | .map entries => do
    d.checkDepth depth
    Section.group.check entries
    let keys ← readGroupKeys (Keyed.get? "by" entries)
    let select ← d.operators.readGroupSelect keys (Keyed.get? "select" entries)
    let aggregates ← d.operators.readAggregates (Keyed.get? "aggregates" entries)
    let inner ← readGroupsAmong (depth + 1) entries
    let filter ← d.operators.readFilter? (Keyed.get? "where" entries)
    let order ← readOrder (Keyed.get? "order" entries)
    let slice ← Slice.ofClauses entries
    return { keys, select, aggregates, filter, order, slice } :: inner
  | _ => do
    d.checkDepth depth
    .error (.invalidQuery .groupExpected)
termination_by structural v => v
/-- The group levels under the key `group`; without it, none. -/
def readGroupsAmong (depth : Nat) : List (String × Value) → Except QueryError (List Group)
  | [] => .ok []
  | (key, v) :: rest =>
    if key = "group" then readGroups depth v else readGroupsAmong depth rest
termination_by structural entries => entries
end

/-! ## 2. Entries of selections -/

/-- The selection with the id attribute and all attributes of a type. -/
def withAllFields (t : ResourceType) (select : Select) : Select :=
  t.attributeNames.foldl (fun select name => Keyed.insert name (.field name) select)
    (Keyed.insert t.idAttribute (.field t.idAttribute) select)

/-- The query for everything of the resources of a type. -/
def readRelated (target : String) (depth : Nat) : Except QueryError Query := do
  d.checkDepth depth
  let t ← d.schema.requireType target
  return { typeName := target, select := withAllFields t [] }

/-- The selection that a name writes under a key. -/
def readSource (t : ResourceType) (depth : Nat) (key source : String) :
    Except QueryError Selection :=
  match t.fieldKind source with
  | .relationship r =>
    if source = key then do
      let q ← d.readRelated r.target (depth + 1)
      return .subquery q
    else .error (.invalidQuery (.renamedRelationship source key))
  | _ => .ok (.field source)

/-- The selection with one more name; `*` is the id and all attributes. -/
def readName (t : ResourceType) (depth : Nat) (name : String) (select : Select) :
    Except QueryError Select :=
  if name = "*" then .ok (withAllFields t select)
  else do
    let s ← d.readSource t depth name name
    return Keyed.insert name s select

/-- What a document writes under a key: a name or an expression, or else a query for the resources
of the relationship of that name. -/
def readEntry (t : ResourceType) (depth : Nat) (key : String) :
    Value → Except QueryError (Selection ⊕ Relationship)
  | .string source => do
    let s ← d.readSource t depth key source
    return .inl s
  | .map entries =>
    if d.operators.isExpression (.map entries) then do
      QueryError.ofExpr (d.operators.checkOperators (.map entries))
      return .inl (.expression (.map entries))
    else
      match t.relationship? key with
      | some r => .ok (.inr r)
      | none => do
        QueryError.ofExpr (d.operators.checkTag (.map entries))
        .error (.invalidQuery (.neitherSelection key t.name))
  | v => .error (.invalidQuery (.selectionExpected key v.kind))

/-! ## 3. Queries -/

/-- The type that a query names; below the root it may be left out, and must be the expected one. -/
def readTypeName (expected : Option String) (entries : Row) : Except QueryError String :=
  match Keyed.get? "type" entries, expected with
  | some (.string name), some target =>
    if name = target then .ok name else .error (.invalidQuery (.typeConflict name target))
  | some (.string name), none => .ok name
  | some v, _ => .error (.invalidQuery (.typeNotText v.kind))
  | none, some target => .ok target
  | none, none => .error .missingType

/-- The id that a query names, which only the root may do. -/
def readId (depth : Nat) (entries : Row) : Except QueryError (Option String) :=
  match Keyed.get? "id" entries with
  | none | some .null => .ok none
  | some v =>
    if 1 < depth then .error (.invalidQuery .idBelowRoot)
    else
      match v.id? with
      | some id => .ok (some id)
      | none => .error (.invalidQuery (.invalidId v))

/-- The selection of a query, which may be missing only if there are group levels. -/
def requireSelect (typeName : String) (groups : List Group) :
    Option Select → Except QueryError Select
  | some select => .ok select
  | none => if groups.isEmpty then .error (.missingSelect typeName) else .ok []

mutual
/-- The query of a document at a depth, of the expected type if there is one. -/
def readQuery (expected : Option String) (depth : Nat) : Value → Except QueryError Query
  | .map entries => do
    d.checkDepth depth
    Section.query.check entries
    let typeName ← readTypeName expected entries
    let t ← d.schema.requireType typeName
    let id ← readId depth entries
    let groups ← d.readGroupsAmong depth entries
    let select? ← readSelectAmong t depth entries
    let select ← requireSelect typeName groups select?
    let filter ← d.operators.readFilter? (Keyed.get? "where" entries)
    let order ← readOrder (Keyed.get? "order" entries)
    let slice ← Slice.ofClauses entries
    return { typeName, id, select, filter, order, slice, groups }
  | _ => do
    d.checkDepth depth
    .error (.invalidQuery .queryExpected)
termination_by structural v => v
/-- The selection under the key `select`. -/
def readSelectAmong (t : ResourceType) (depth : Nat) :
    List (String × Value) → Except QueryError (Option Select)
  | [] => .ok none
  | (key, v) :: rest =>
    if key = "select" then do
      let select ← readSelect t depth v
      return some select
    else readSelectAmong t depth rest
termination_by structural entries => entries
/-- The selection of a document: a name, a list of names and maps, or a map. -/
def readSelect (t : ResourceType) (depth : Nat) : Value → Except QueryError Select
  | .string name => d.readName t depth name []
  | .list items => readSelectItems t depth items []
  | .map entries => readSelectEntries t depth entries []
  | v => .error (.invalidQuery (.selectExpected v.kind))
termination_by structural v => v
/-- The selection with the items, one after the other. -/
def readSelectItems (t : ResourceType) (depth : Nat) :
    List Value → Select → Except QueryError Select
  | [], select => .ok select
  | .string name :: rest, select => do
    let select ← d.readName t depth name select
    readSelectItems t depth rest select
  | .map entries :: rest, select => do
    let select ← readSelectEntries t depth entries select
    readSelectItems t depth rest select
  | v :: _, _ => .error (.invalidQuery (.selectItemExpected v.kind))
termination_by structural items => items
/-- The selection with the entries, one after the other. -/
def readSelectEntries (t : ResourceType) (depth : Nat) :
    List (String × Value) → Select → Except QueryError Select
  | [], select => .ok select
  | (key, v) :: rest, select => do
    match ← d.readEntry t depth key v with
    | .inl s => readSelectEntries t depth rest (Keyed.insert key s select)
    | .inr r => do
      let q ← readQuery (some r.target) (depth + 1) v
      readSelectEntries t depth rest (Keyed.insert key (.subquery q) select)
termination_by structural entries => entries
end

/-- The query of a document.  One resource cannot be grouped. -/
def normalize (v : Value) : Except QueryError Query := do
  let q ← d.readQuery none 1 v
  if q.id.isSome && !q.groups.isEmpty then .error (.invalidQuery .groupWithId) else return q

end Dialect

end GraphQuery
