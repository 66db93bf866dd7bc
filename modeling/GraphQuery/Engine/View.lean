/-
# What a resource shows

The fields of a resource are its attributes and its id, which is known as `id` and under the name of
the id attribute of its type, unless attributes have these names.  The view of a resource, on which
filters and expressions work, has besides the fields for each relationship the resources it points
at; these show their own references instead of going on.
-/
import GraphQuery.Graph.Store
import GraphQuery.Query.Dialect
import GraphQuery.Rows.Filtering

namespace GraphQuery

/-! ## 1. Fields -/

namespace Resource

/-- The value of a field. -/
def field? (r : Resource) (idAttribute field : String) : Option Value :=
  match r.attribute? field with
  | some v => some v
  | none => if field = idAttribute ∨ field = "id" then some (.string r.id) else none

/-- The row of all fields. -/
def fields (r : Resource) (idAttribute : String) : Row :=
  Keyed.insertNew "id" (.string r.id) (Keyed.insertNew idAttribute (.string r.id) r.attributes)

end Resource

/-! ## 2. Views -/

/-- A dialect and the graph that is asked. -/
structure Engine extends Dialect where
  graph : Graph

namespace Engine

variable (e : Engine)

/-- The name of the id attribute of a type. -/
def idAttribute (typeName : String) : String := (e.schema.idAttribute? typeName).getD "id"

/-- The row of all fields of a resource. -/
def fields (r : Resource) : Row := r.fields (e.idAttribute r.typeName)

/-- The row of a resource that another one points at: its fields and references. -/
def relatedRow (r : Resource) : Row :=
  Keyed.overlay (e.fields r) (Keyed.mapValues Links.toValue r.links)

/-- The target of a reference, which must be there. -/
def resolve (source : Resource) (relationship : String) (target : Ref) :
    Except QueryError Resource :=
  match e.graph.resolve? target with
  | some r => .ok r
  | none => .error (.danglingReference source.ref relationship target)

/-- The rows of the resources under a relationship. -/
def linkedValue (source : Resource) (relationship : String) : Links → Except QueryError Value
  | .one none => .ok .null
  | .one (some target) => do
    let r ← e.resolve source relationship target
    return .map (e.relatedRow r)
  | .many targets => do
    let rs ← targets.mapM (e.resolve source relationship)
    return .list (rs.map fun r => .map (e.relatedRow r))

/-- The view of a resource. -/
def view (r : Resource) : Except QueryError Row := do
  let linked ← r.links.mapM fun l => do
    let v ← e.linkedValue r l.1 l.2
    return (l.1, v)
  return Keyed.overlay (e.fields r) linked

/-- The filter holds of the view of a resource.  Without a filter the view is not asked for. -/
def accepts (filter : Option Filter) (r : Resource) : Except QueryError Bool :=
  match filter with
  | none => .ok true
  | some f => do
    let view ← e.view r
    QueryError.ofExpr (f.holds e.operators (.map view))

end Engine

end GraphQuery
