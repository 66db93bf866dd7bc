/-
# What query documents may use

A dialect is a schema, a table of operators, and a bound on the nesting of queries and group levels.
Its checks are those that several parts of a query document share.
-/
import GraphQuery.Query.Error
import GraphQuery.Expression.Evaluation
import GraphQuery.Schema.Basic

namespace GraphQuery

/-! ## 1. Required expressions -/

namespace OperatorTable

/-- The value must be an expression, and every tag inside must have an operator. -/
def requireExpression (t : OperatorTable) (v : Value) : Except QueryError Unit := do
  QueryError.ofExpr (t.checkExpression v)
  QueryError.ofExpr (t.checkOperators v)

end OperatorTable

/-! ## 2. Keys of sections -/

namespace Section

/-- The first key that a section does not have. -/
def unexpectedKey? (s : Section) (entries : Row) : Option String :=
  (Keyed.keys entries).find? fun key => !s.keys.contains key

/-- All keys belong to the section. -/
def check (s : Section) (entries : Row) : Except QueryError Unit :=
  match s.unexpectedKey? entries with
  | some key => .error (.invalidQuery (.unexpectedKey key s))
  | none => .ok ()

end Section

/-! ## 3. Dialects -/

/-- The type of a name, which must be declared. -/
def Schema.requireType (s : Schema) (name : String) : Except QueryError ResourceType :=
  match s.type? name with
  | some t => .ok t
  | none => .error (.unknownType name)

/-- The types and operators that a query document may name, and how deep it may nest. -/
structure Dialect where
  schema : Schema
  operators : OperatorTable := .standard
  maxDepth : Nat := 32

namespace Dialect

/-- The depth is within the bound. -/
def checkDepth (d : Dialect) (depth : Nat) : Except QueryError Unit :=
  if depth ≤ d.maxDepth then .ok () else .error (.tooDeep d.maxDepth)

end Dialect

end GraphQuery
