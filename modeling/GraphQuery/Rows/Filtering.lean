/-
# Testing rows

A filter is a test of a row; it can fail only where an expression in it fails.  A conjunction is
tested up to its first part that does not hold, a disjunction up to the first that does, so what
comes after is not evaluated.
-/
import GraphQuery.Query.Basic
import GraphQuery.Value.Path
import GraphQuery.Expression.Evaluation

namespace GraphQuery

/-- The condition holds of a value. -/
def Condition.holds (t : OperatorTable) (v : Value) : Condition → Except ExprError Bool
  | .equals expected => .ok (v.looseEq expected)
  | .expression e => (t.evaluate e v).map Value.isTruthy

namespace Filter

variable (t : OperatorTable) (row : Value)

mutual
/-- The filter holds of a row. -/
def holds : Filter → Except ExprError Bool
  | .conjunction parts => allHold parts
  | .disjunction parts => anyHolds parts
  | .negation part => (holds part).map not
  | .field path condition => condition.holds t (row.follow (Path.ofText path))
  | .expression e => (t.evaluate e row).map Value.isTruthy
termination_by structural f => f
/-- All parts hold, from the first one until one does not. -/
def allHold : List Filter → Except ExprError Bool
  | [] => .ok true
  | f :: rest => do
    let b ← holds f
    if b then allHold rest else return false
termination_by structural fs => fs
/-- Some part holds, from the first one until one does. -/
def anyHolds : List Filter → Except ExprError Bool
  | [] => .ok false
  | f :: rest => do
    let b ← holds f
    if b then return true else anyHolds rest
termination_by structural fs => fs
end

/-- Every row passes where there is no filter. -/
def passes : Option Filter → Except ExprError Bool
  | none => .ok true
  | some f => f.holds t row

end Filter

end GraphQuery
