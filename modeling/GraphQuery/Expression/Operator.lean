/-
# Operators and tables of operators

The operators that are built in are a closed vocabulary, sorted by what they do with their operand.
A table binds tags to them, or to functions that are brought in from outside: which maps are
expressions, and what they mean, is decided by the table alone, so a tag may be taken away or bound to
another operator.
-/
import GraphQuery.Expression.Error
import GraphQuery.Keyed

namespace GraphQuery

/-! ## 1. Operators -/

/-- Tests of the input against the value of the operand. -/
inductive Comparison where
  | eq
  | ne
  | gt
  | gte
  | lt
  | lte
  | isIn
  | notIn
  | matchesPattern
  | isDefined
  deriving DecidableEq, Repr

/-- Ways to read a path in the input. -/
inductive Access where
  | get
  | pluck
  deriving DecidableEq, Repr

/-- Ways to make one value of many. -/
inductive Reduction where
  | count
  | sum
  | mean
  | median
  | min
  | max
  deriving DecidableEq, Repr

/-- An operator that is built in. -/
inductive Operator where
  | comparison (c : Comparison)
  | conjunction
  | disjunction
  | negation
  | access (a : Access)
  | literal
  | conditional
  | choice
  | reduction (r : Reduction)
  deriving DecidableEq, Repr

namespace Operator

/-- The tag under which an operator is known. -/
def tag : Operator → String
  | comparison .eq => "$eq"
  | comparison .ne => "$ne"
  | comparison .gt => "$gt"
  | comparison .gte => "$gte"
  | comparison .lt => "$lt"
  | comparison .lte => "$lte"
  | comparison .isIn => "$in"
  | comparison .notIn => "$nin"
  | comparison .matchesPattern => "$matchesRegex"
  | comparison .isDefined => "$isDefined"
  | conjunction => "$and"
  | disjunction => "$or"
  | negation => "$not"
  | access .get => "$get"
  | access .pluck => "$pluck"
  | literal => "$literal"
  | conditional => "$if"
  | choice => "$case"
  | reduction .count => "$count"
  | reduction .sum => "$sum"
  | reduction .mean => "$mean"
  | reduction .median => "$median"
  | reduction .min => "$min"
  | reduction .max => "$max"

/-- All operators, by their tags. -/
def all : List Operator := [
  conjunction, choice, reduction .count, comparison .eq, access .get, comparison .gt,
  comparison .gte, conditional, comparison .isIn, comparison .isDefined, literal, comparison .lt,
  comparison .lte, comparison .matchesPattern, reduction .max, reduction .mean, reduction .median,
  reduction .min, comparison .ne, comparison .notIn, negation, disjunction, access .pluck,
  reduction .sum]

/-- The operator known under a tag. -/
def ofTag? (t : String) : Option Operator := all.find? fun op => op.tag == t

/-- The operator refuses its operand. -/
def refuse (op : Operator) (fault : OperandFault) : ExprError :=
  .invalidOperand op.tag fault.message

end Operator

/-- What a tag can be bound to: an operator that is built in, or any function that makes a result of
the operand, which it gets unevaluated, and the input.  A function that evaluates parts of its operand
does so by the table in which it stands, so its results are those it has there. -/
inductive OperatorFn where
  | builtIn (op : Operator)
  | custom (apply : Value → Value → Except ExprError Value)

instance : Coe Operator OperatorFn := ⟨.builtIn⟩

/-- The text has the form of an operator's tag: it begins with a dollar sign. -/
def isTag (s : String) : Bool := s.toList.head? == some '$'

/-! ## 2. Tables -/

/-- A table of operators: its bindings, in the order of the tags. -/
structure OperatorTable where
  bindings : List (String × OperatorFn)

namespace OperatorTable

/-- The table without operators. -/
def empty : OperatorTable := ⟨[]⟩

/-- The table in which each operator has its own tag. -/
def standard : OperatorTable := ⟨Operator.all.map fun op => (op.tag, .builtIn op)⟩

/-- The operator of a tag. -/
def get? (t : OperatorTable) (tag : String) : Option OperatorFn := Keyed.get? tag t.bindings

/-- The tag has an operator. -/
def contains (t : OperatorTable) (tag : String) : Bool := (t.get? tag).isSome

/-- The tag is bound to an operator, in place of the one before if there is one. -/
def register (t : OperatorTable) (tag : String) (op : OperatorFn) : OperatorTable :=
  ⟨Keyed.insert tag op t.bindings⟩

/-- The tag loses its operator. -/
def unregister (t : OperatorTable) (tag : String) : OperatorTable := ⟨Keyed.erase tag t.bindings⟩

/-- The tags, in order. -/
def tags (t : OperatorTable) : List String := Keyed.keys t.bindings

/-- The table without changes binds the operators that are built in, each under its tag. -/
theorem get?_standard (tag : String) :
    standard.get? tag = (Operator.ofTag? tag).map OperatorFn.builtIn := by
  rw [get?, standard, Operator.ofTag?]
  dsimp only
  induction Operator.all with
  | nil => rfl
  | cons op rest ih =>
    rw [List.map_cons, Keyed.get?]
    by_cases htag : op.tag = tag
    · rw [if_pos htag, List.find?_cons_of_pos (by simpa using htag)]
      rfl
    · rw [if_neg htag, List.find?_cons_of_neg (by simpa using htag), ih]

end OperatorTable

end GraphQuery
