/-
# Executing queries

A query document is read, checked against the schema, and only then projected; so a fault of the
caller is found before any resource is read, unless an expression meets an operand that its
operator cannot take.
-/
import GraphQuery.Engine.Projection
import GraphQuery.Query.Normalization
import GraphQuery.Query.Validation

namespace GraphQuery.Engine

variable (e : Engine)

/-- The result of a query that fits the schema. -/
def run (q : Query) : Except QueryError Value := do
  e.schema.validate q
  e.project q

/-- The result of a query document. -/
def execute (document : Value) : Except QueryError Value := do
  let q ← e.normalize document
  e.run q

end GraphQuery.Engine
