/-
# One value of many

Reductions of a list of items.  All but `count` pass over items they cannot use: sums, means and
medians over everything but numbers, extremes over nulls.  Of nothing, the count and the sum are
zero and the others are null.

A sum is whole as long as every number is whole and every running total fits 64 bits; otherwise it
is the floating point sum of all numbers.
-/
import GraphQuery.Expression.Operator
import GraphQuery.Binary64.Arithmetic
import GraphQuery.Value.Comparison
import GraphQuery.Sorting

namespace GraphQuery

namespace Value

/-! ## 1. Sums and means -/

/-- The numbers among the items. -/
def numbers (items : List Value) : List Value := items.filter isNumber

/-- The numbers among the items as floating point numbers. -/
def floats (items : List Value) : List Binary64 := (numbers items).filterMap number?

/-- The sum of two whole numbers, if it fits 64 bits. -/
def addWhole? (a b : Int64) : Option Int64 :=
  let s := a.toInt + b.toInt
  if FitsInt64 s then some (Int64.ofInt s) else none

/-- The sum of numbers on top of `total`, if all are whole and every running total fits. -/
def wholeSum? (total : Int64) : List Value → Option Int64
  | [] => some total
  | int i :: rest => (addWhole? total i).bind fun t => wholeSum? t rest
  | _ :: _ => none

/-- The sum of the items. -/
def sumOf (items : List Value) : Value :=
  match wholeSum? 0 (numbers items) with
  | some i => int i
  | none => float (Binary64.sumFrom (Binary64.zero false) (floats items))

/-- The mean of the items.  Its sum starts from the negative zero, so the mean of negative zeros is
one. -/
def meanOf (items : List Value) : Value :=
  match floats items with
  | [] => null
  | xs =>
    float ((Binary64.sumFrom (Binary64.zero true) xs).div (Binary64.ofInt xs.length))

/-! ## 2. Order statistics -/

/-- Half the sum of two numbers. -/
def midpoint (a b : Value) : Value :=
  let lo := a.number?.getD (Binary64.zero false)
  let hi := b.number?.getD (Binary64.zero false)
  float ((lo.add hi).div (Binary64.ofInt 2))

/-- The number in the middle, or the midpoint of the two there. -/
def medianOf (items : List Value) : Value :=
  let sorted := Sorting.stable cmp (numbers items)
  let half := sorted.length / 2
  if sorted.isEmpty then null
  else if sorted.length % 2 = 1 then sorted.getD half null
  else midpoint (sorted.getD (half - 1) null) (sorted.getD half null)

/-- The item that comes out of comparing each with the one kept so far: it takes its place only if
the comparison is `better`. -/
def extremeOf (better : Ordering) (items : List Value) : Value :=
  match items.filter (fun v => !v.isNull) with
  | [] => null
  | first :: rest => rest.foldl (fun kept v => if v.cmp kept = better then v else kept) first

end Value

/-- The value that a reduction makes of a list of items.  For a median the numbers have to be sorted. -/
def Reduction.apply (r : Reduction) (items : List Value) : Except ExprError Value :=
  match r with
  | count => .ok (.int (Int64.ofNat items.length))
  | sum => .ok (Value.sumOf items)
  | mean => .ok (Value.meanOf items)
  | median =>
    if Sorting.settled Value.cmp (Value.numbers items) then .ok (Value.medianOf items)
    else .error .stopped
  | min => .ok (Value.extremeOf .lt items)
  | max => .ok (Value.extremeOf .gt items)

end GraphQuery
