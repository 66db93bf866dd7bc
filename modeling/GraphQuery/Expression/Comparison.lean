/-
# Testing the input

The tests that compare the input of an expression with the value of its operand, and the operators
that read a path of the input.
-/
import GraphQuery.Expression.Operator
import GraphQuery.Value.Comparison
import GraphQuery.Value.Path
import GraphQuery.Pattern.Matching
import GraphQuery.Pattern.Reader

namespace GraphQuery

/-! ## 1. Comparisons -/

/-- The order of two values of one domain: numbers, texts or truth values. -/
def Value.compareWithin? (a b : Value) : Option Ordering :=
  match a, b with
  | .int _, .int _ | .int _, .float _ | .float _, .int _ | .float _, .float _
  | .string _, .string _ | .bool _, .bool _ => some (a.cmp b)
  | _, _ => none

namespace Comparison

/-- The input and the value belong to one domain and their order is accepted. -/
def ordered (accept : Ordering → Bool) (input rhs : Value) : Bool :=
  (input.compareWithin? rhs).any accept

/-- The input is among the items of the value. -/
def member (c : Comparison) (input rhs : Value) : Except ExprError Bool :=
  match rhs with
  | .list items => .ok (items.any fun item => item.looseEq input)
  | other => .error (Operator.refuse (.comparison c) (.listExpected other.kind))

/-- The input is a text that holds a match of the pattern. -/
def search (input rhs : Value) : Except ExprError Bool :=
  match rhs with
  | .string text =>
    match Pattern.compile text with
    | .ok pattern =>
      match input with
      | .string s => .ok (pattern.isMatch s)
      | _ => .ok false
    | .error fault => .error (.invalidPattern text fault.message)
  | other => .error (Operator.refuse (.comparison .matchesPattern) (.patternExpected other.kind))

/-- The answer of a test of the input against the value of the operand. -/
def test (c : Comparison) (input rhs : Value) : Except ExprError Bool :=
  match c with
  | eq => .ok (input.looseEq rhs)
  | ne => .ok (!input.looseEq rhs)
  | gt => .ok (ordered (· == .gt) input rhs)
  | gte => .ok (ordered (· != .lt) input rhs)
  | lt => .ok (ordered (· == .lt) input rhs)
  | lte => .ok (ordered (· != .gt) input rhs)
  | isIn => member .isIn input rhs
  | notIn => (member .notIn input rhs).map (!·)
  | matchesPattern => search input rhs
  | isDefined => .ok (!input.isNull == rhs.bool?.getD true)

end Comparison

/-! ## 2. Access -/

namespace Access

/-- The texts of path segments. -/
def segments (a : Access) : List Value → Except ExprError Path
  | [] => .ok []
  | .string s :: rest => (segments a rest).map (s :: ·)
  | _ :: _ => .error (Operator.refuse (.access a) .segmentNotText)

/-- The path that an operand gives: a dotted text or a list of segments. -/
def path (a : Access) : Value → Except ExprError Path
  | .string s => .ok (Path.ofText s)
  | .list items => segments a items
  | other => .error (Operator.refuse (.access a) (.pathExpected other.kind))

/-- What a path finds in the input.  To pluck is to go on with every item of a list; of null,
nothing can be plucked. -/
def find (a : Access) (p : Path) (input : Value) : Value :=
  match a, input with
  | pluck, .list _ => input.follow (Path.wildcard :: p)
  | pluck, .null => .list []
  | _, _ => input.follow p

/-- What the path of the operand finds in the input. -/
def read (a : Access) (operand input : Value) : Except ExprError Value :=
  (a.path operand).map fun p => a.find p input

end Access

end GraphQuery
