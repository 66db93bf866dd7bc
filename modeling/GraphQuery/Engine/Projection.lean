/-
# Results of queries

A query with an id gives the row of that resource, or null.  Any other query gives a list: the
resources that its filter accepts, in order, in the slice, each as a row, or all of them grouped.

The entry of a sub-query is what it gives for the resources under the relationship: a list where
the schema says many, else a row, or null if there is none or it is not accepted.  Projection goes
into the sub-queries, never round the graph, so cycles in the graph do no harm.
-/
import GraphQuery.Engine.View
import GraphQuery.Rows.Grouping

namespace GraphQuery

namespace Engine

variable (e : Engine)

/-! ## 1. Collections -/

/-- The resources that a filter accepts. -/
def accepted (filter : Option Filter) : List Resource → Except QueryError (List Resource)
  | [] => .ok []
  | r :: rest => do
    let kept ← e.accepts filter r
    let rs ← accepted filter rest
    return if kept then r :: rs else rs

/-- The value by which a resource is ordered. -/
def orderValue (typeName : String) (r : Resource) (field : String) : Value :=
  (r.field? (e.idAttribute typeName) field).getD .null

/-- The resources that a query asks for among the given ones, in order. -/
def chosen (q : Query) (rs : List Resource) : Except QueryError (List Resource) := do
  let kept ← e.accepted q.filter rs
  arrange (e.orderValue q.typeName) q.order q.slice kept

/-- The result of a query for the given resources, if `rowOf` makes the row of one. -/
def collect (rowOf : Resource → Except QueryError Row) (q : Query) (rs : List Resource) :
    Except QueryError Value := do
  let kept ← e.chosen q rs
  let rows ← kept.mapM rowOf
  match q.groups with
  | [] => return .list (rows.map .map)
  | groups => do
    let grouped ← groupRows e.operators groups
      ((kept.zip rows).map fun p => Keyed.overlay (e.fields p.1) p.2)
    return .list (grouped.map .map)

/-! ## 2. Rows -/

/-- The entry of a selected field.  A declared attribute without a value is null, a name that means
nothing makes no entry. -/
def fieldEntry? (r : Resource) (source : String) : Option Value :=
  match r.field? (e.idAttribute r.typeName) source with
  | some v => some v
  | none =>
    match (e.schema.type? r.typeName).bind fun t => t.attribute? source with
    | some _ => some .null
    | none => none

/-- The schema says that there may be many resources under a relationship. -/
def isMany (typeName relationship : String) : Bool :=
  ((e.schema.relationship? typeName relationship).map Relationship.isMany).getD false

/-- The references that a resource stores under a relationship. -/
def refsOf (r : Resource) (relationship : String) : List Ref :=
  ((r.links? relationship).map Links.refs).getD []

mutual
/-- The row of a resource, entry by entry. -/
def rowOf : List (String × Selection) → Resource → Except QueryError Row
  | [], _ => .ok []
  | (key, s) :: rest, r => do
    let v? ← entryOf key s r
    let row ← rowOf rest r
    match v? with
    | some v => return (key, v) :: row
    | none => return row
termination_by structural select => select
/-- The entry of a resource for a selection, if there is one. -/
def entryOf (key : String) : Selection → Resource → Except QueryError (Option Value)
  | .field source, r => .ok (e.fieldEntry? r source)
  | .expression x, r => do
    let view ← e.view r
    let v ← QueryError.ofExpr (e.operators.evaluate x (.map view))
    return some v
  | .subquery ⟨typeName, id, select, filter, order, slice, groups⟩, r =>
    if e.isMany r.typeName key then do
      let targets ← (refsOf r key).mapM (e.resolve r key)
      let v ← e.collect (fun target => rowOf select target)
        ⟨typeName, id, select, filter, order, slice, groups⟩ targets
      return some v
    else
      match (refsOf r key).head? with
      | none => .ok (some .null)
      | some ref => do
        let target ← e.resolve r key ref
        let kept ← e.accepts filter target
        if kept then do
          let row ← rowOf select target
          return some (.map row)
        else return some .null
termination_by structural s => s
end

/-! ## 3. Queries -/

/-- The result of a query. -/
def project (q : Query) : Except QueryError Value :=
  match q.id with
  | none => e.collect (e.rowOf q.select) q (e.graph.scan q.typeName)
  | some id =>
    match e.graph.get? q.typeName id with
    | none => .ok .null
    | some r => do
      let row ← e.rowOf q.select r
      return .map row

end Engine

end GraphQuery
