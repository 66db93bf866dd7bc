/-
# The canonical document of a query

Every query has one document in which nothing is abbreviated: the selection is a map, the order a
list of one-entry maps, limit and offset stand in the slice.  What a query does not have is left
out.  Sub-queries stand in the selection with their type.

A count is written as a whole number of 64 bits with a sign, so one from `2 ^ 63` on is written as a
negative number.
-/
import GraphQuery.Query.Basic

namespace GraphQuery

/-! ## 1. Parts -/

/-- The entries that are there. -/
def Row.ofOptions (entries : List (String × Option Value)) : Row :=
  entries.filterMap fun e => e.2.map fun v => (e.1, v)

mutual
/-- The document of a filter. -/
def Filter.toValue : Filter → Value
  | .conjunction parts => .map [("$and", .list (Filter.partsToValues parts))]
  | .disjunction parts => .map [("$or", .list (Filter.partsToValues parts))]
  | .negation part => .map [("$not", Filter.toValue part)]
  | .field path (.equals expected) => .map [(path, expected)]
  | .field path (.expression e) => .map [(path, e)]
  | .expression e => e
/-- The documents of the parts of a filter. -/
def Filter.partsToValues : List Filter → List Value
  | [] => []
  | f :: rest => Filter.toValue f :: Filter.partsToValues rest
end

/-- The document of a sort key. -/
def OrderKey.toValue (k : OrderKey) : Value := .map [(k.field, .string k.direction.name)]

/-- The document of an order; of none, nothing. -/
def orderToValue? : List OrderKey → Option Value
  | [] => none
  | keys => some (.list (keys.map OrderKey.toValue))

/-- A count as a value. -/
def countToValue (n : UInt64) : Value := .int n.toInt64

namespace Slice

/-- The document of a slice. -/
def toValue (s : Slice) : Value :=
  .map (Row.ofOptions [
    ("after", s.after.map .map), ("before", s.before.map .map),
    ("limit", s.limit.map countToValue), ("offset", s.offset.map countToValue)])

/-- The document of a slice that leaves something out. -/
def toValue? (s : Slice) : Option Value := if s.isUnbounded then none else some s.toValue

end Slice

/-- The document of aggregates; of none, nothing. -/
def aggregatesToValue? : Row → Option Value
  | [] => none
  | entries => some (.map entries)

/-! ## 2. Queries -/

mutual
/-- The document of what makes one entry. -/
def Selection.toValue : Selection → Value
  | .field source => .string source
  | .expression e => e
  | .subquery ⟨typeName, id, select, filter, order, slice, groups⟩ =>
    .map (Row.ofOptions [
      ("group", groupsToValue? groups), ("id", id.map .string), ("order", orderToValue? order),
      ("select", some (.map (Select.toRow select))), ("slice", slice.toValue?),
      ("type", some (.string typeName)), ("where", filter.map Filter.toValue)])
termination_by structural x => x
/-- The documents of the entries of a selection. -/
def Select.toRow : List (String × Selection) → Row
  | [] => []
  | (key, s) :: rest => (key, Selection.toValue s) :: Select.toRow rest
termination_by structural x => x
/-- The document of group levels; of none, nothing. -/
def groupsToValue? : List (GroupOf Selection) → Option Value
  | [] => none
  | ⟨keys, select, aggregates, filter, order, slice⟩ :: rest =>
    some (.map (Row.ofOptions [
      ("aggregates", aggregatesToValue? aggregates), ("by", some (.list (keys.map .string))),
      ("group", groupsToValue? rest), ("order", orderToValue? order),
      ("select", some (.map (Select.toRow select))), ("slice", slice.toValue?),
      ("where", filter.map Filter.toValue)]))
termination_by structural x => x
end

/-- The canonical document of a query. -/
def QueryOf.toValue (q : Query) : Value := (Selection.subquery q).toValue

end GraphQuery
