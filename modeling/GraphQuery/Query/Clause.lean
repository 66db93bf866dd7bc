/-
# Reading filters, orders and slices

These clauses are the same in a query and in a group level.  Each has shorthands: a filter with
several entries is a conjunction, an order may be one key, a key may be a name, and limit and offset
may stand beside the other clauses instead of in the slice.
-/
import GraphQuery.Query.Dialect
import GraphQuery.Query.Basic

namespace GraphQuery

/-! ## 1. Filters -/

/-- Several filters at once; a single one stands for itself. -/
def Filter.ofParts : List Filter → Filter
  | [f] => f
  | parts => .conjunction parts

namespace OperatorTable

variable (t : OperatorTable)

/-- The test of a value at a path: an expression, or what the value must equal. -/
def readCondition (v : Value) : Except QueryError Condition :=
  if t.isExpression v then do
    QueryError.ofExpr (t.checkOperators v)
    return .expression v
  else do
    QueryError.ofExpr (t.checkTag v)
    return .equals v

/-- The test of a row that a tag and its operand write. -/
def readRowTest (tag : String) (operand : Value) : Except QueryError Filter := do
  t.requireExpression (.map [(tag, operand)])
  return .expression (.map [(tag, operand)])

mutual
/-- The filter of a document. -/
def readFilter : Value → Except QueryError Filter
  | .map entries => do
    let parts ← readFilterEntries entries
    return .ofParts parts
  | v => .error (.invalidQuery (.filterExpected v))
/-- The filters of the entries, in order. -/
def readFilterEntries : List (String × Value) → Except QueryError (List Filter)
  | [] => .ok []
  | (key, v) :: rest => do
    let f ←
      if key = "$and" then
        match v with
        | .list items => do
          let parts ← readFilterItems items
          pure (.conjunction parts)
        | _ => .error (.invalidQuery (.filtersExpected key))
      else if key = "$or" then
        match v with
        | .list items => do
          let parts ← readFilterItems items
          pure (.disjunction parts)
        | _ => .error (.invalidQuery (.filtersExpected key))
      else if key = "$not" then do
        let part ← readFilter v
        pure (.negation part)
      else if isTag key then t.readRowTest key v
      else do
        let condition ← t.readCondition v
        pure (.field key condition)
    let parts ← readFilterEntries rest
    return f :: parts
/-- The filters of the items, in order. -/
def readFilterItems : List Value → Except QueryError (List Filter)
  | [] => .ok []
  | v :: rest => do
    let f ← readFilter v
    let parts ← readFilterItems rest
    return f :: parts
end

/-- The filter of a clause that may be missing, null or empty: then there is none. -/
def readFilter? : Option Value → Except QueryError (Option Filter)
  | none | some .null | some (.map []) => .ok none
  | some v => do
    let f ← t.readFilter v
    return some f

end OperatorTable

/-! ## 2. Orders -/

/-- The sort key of a document: a field, ascending, or a field and its direction. -/
def OrderKey.ofValue : Value → Except QueryError OrderKey
  | .string field => .ok ⟨field, .asc⟩
  | .map [(field, direction)] =>
    match direction.string?.bind Direction.ofName? with
    | some d => .ok ⟨field, d⟩
    | none => .error (.invalidQuery (.directionExpected field direction))
  | .map _ => .error (.invalidQuery .orderEntryCount)
  | v => .error (.invalidQuery (.orderKeyExpected v.kind))

/-- The order of a clause: a list of sort keys, or a single one. -/
def readOrder : Option Value → Except QueryError (List OrderKey)
  | none | some .null => .ok []
  | some (.list []) => .error (.invalidQuery .emptyOrder)
  | some (.list items) => items.mapM OrderKey.ofValue
  | some v => do
    let key ← OrderKey.ofValue v
    return [key]

/-! ## 3. Slices -/

/-- The count of a document: a whole number from zero on. -/
def readCount (key : String) : Value → Except QueryError UInt64
  | .int i =>
    if 0 ≤ i then .ok i.toUInt64 else .error (.invalidQuery (.countExpected key (.int i)))
  | v => .error (.invalidQuery (.countExpected key v))

/-- The anchor of a document. -/
def readAnchor (key : String) : Value → Except QueryError Anchor
  | .map entries => .ok entries
  | v => .error (.invalidAnchor (.mapExpected key v))

namespace Slice

/-- Limit and offset among the given entries. -/
def ofCounts (entries : Row) : Except QueryError Slice := do
  let limit ← (Keyed.get? "limit" entries).mapM (readCount "limit")
  let offset ← (Keyed.get? "offset" entries).mapM (readCount "offset")
  return { limit, offset }

/-- The slice of the entries of its own object. -/
def ofEntries (entries : Row) : Except QueryError Slice := do
  Section.slice.check entries
  let counts ← ofCounts entries
  let before ← (Keyed.get? "before" entries).mapM (readAnchor "before")
  let after ← (Keyed.get? "after" entries).mapM (readAnchor "after")
  return { counts with before, after }

/-- The slice of a query or group level with the given entries. -/
def ofClauses (entries : Row) : Except QueryError Slice :=
  match Keyed.get? "slice" entries with
  | none => ofCounts entries
  | some v =>
    if Keyed.contains "limit" entries || Keyed.contains "offset" entries then
      .error (.invalidQuery .sliceTwice)
    else
      match v with
      | .null => .ok {}
      | .map inner => ofEntries inner
      | v => .error (.invalidQuery (.sliceExpected v.kind))

end Slice

end GraphQuery
