/-
# What can go wrong with expressions

An unknown tag, data where an expression is required, an operand that its operator cannot take, and
a text that is no pattern.  The errors carry their wording, since an operator from outside may have
its own.  Beside the errors that are reported there is one outcome that is not: the program stops,
since it was to sort items by a comparison that contradicts itself.
-/
import GraphQuery.Value.Basic

namespace GraphQuery

/-- What is wrong with an operand. -/
inductive OperandFault where
  | listExpected (found : Kind)
  | patternExpected (found : Kind)
  | expressionsExpected (found : Kind)
  | pathExpected (found : Kind)
  | segmentNotText
  | branchesExpected
  | conditionMissing
  | choiceExpected
  | casesNotAList
  | caseIncomplete
  | listInputExpected (found : Kind)
  | itemsExpected (found : Kind)
  deriving DecidableEq, Repr

/-- The wording of what is wrong with an operand. -/
def OperandFault.message : OperandFault → String
  | listExpected k => "expected a list, found " ++ k.name
  | patternExpected k => "expected a pattern string, found " ++ k.name
  | expressionsExpected k => "expected a list of expressions, found " ++ k.name
  | pathExpected k => "expected a path, found " ++ k.name
  | segmentNotText => "path segments must be strings"
  | branchesExpected => "expected \x7bif, then, else\x7d"
  | conditionMissing => "missing `if`"
  | choiceExpected => "expected \x7bvalue, cases, default\x7d"
  | casesNotAList => "`cases` must be a list"
  | caseIncomplete => "each case needs `when` and `then`"
  | listInputExpected k => "null operand needs a list input, found " ++ k.name
  | itemsExpected k => "expected a list or an expression, found " ++ k.name

/-- Why an expression has no value. -/
inductive ExprError where
  | unknownOperator (tag : String)
  | notAnExpression (found : String)
  | invalidOperand (operator message : String)
  | invalidPattern (pattern message : String)
  | stopped
  deriving DecidableEq, Repr

/-- The program stops; nothing is reported. -/
def ExprError.isStop : ExprError → Bool
  | stopped => true
  | _ => false

/-- The wording of an error. -/
def ExprError.message : ExprError → String
  | unknownOperator tag => "Unknown operator: " ++ tag
  | notAnExpression found => "Expected an expression, found " ++ found
  | invalidOperand operator message => "Invalid operand for " ++ operator ++ ": " ++ message
  | invalidPattern pattern message => "Invalid regular expression " ++ pattern ++ ": " ++ message
  | stopped => "user-provided comparison function does not correctly implement a total order"

end GraphQuery
