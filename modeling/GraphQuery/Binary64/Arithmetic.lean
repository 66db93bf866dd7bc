/-
# Sums, products and quotients

The operations of IEEE 754 on `Binary64`: the exact result, rounded once.  A NaN operand is passed
on, the first one if both are; where no result exists (`∞ - ∞`, `0 · ∞`, `0 / 0`, `∞ / ∞`) the
answer is the NaN with its sign bit set.
-/
import GraphQuery.Binary64.Rounding

namespace GraphQuery.Binary64

/-- The same number with its sign turned. -/
def negate (x : Binary64) : Binary64 := { x with negative := !x.negative }

/-- The answer of an operation without a result. -/
def indefinite : Binary64 := nan true

/-- A NaN operand decides the result: the first one if both are. -/
def passNaN (x y result : Binary64) : Binary64 :=
  if x.isNaN then x else if y.isNaN then y else result

/-- The sum of two finite numbers.  An exact zero is negative only if both operands are. -/
def addFinite (x y : Binary64) : Binary64 :=
  let total := x.signedUnits + y.signedUnits
  if total = 0 then zero (x.negative && y.negative) else ofUnits (total < 0) total.natAbs 1

/-- The sum of two numbers. -/
def add (x y : Binary64) : Binary64 :=
  passNaN x y <|
    if x.isInfinite then
      if y.isInfinite && x.negative != y.negative then indefinite else x
    else if y.isInfinite then y
    else addFinite x y

/-- The product of two numbers. -/
def mul (x y : Binary64) : Binary64 :=
  let negative := x.negative != y.negative
  passNaN x y <|
    if x.isInfinite || y.isInfinite then
      if x.isZero || y.isZero then indefinite else infinity negative
    else ofUnits negative (x.units * y.units) (Nat.pow 2 1074)

/-- The quotient of two numbers. -/
def div (x y : Binary64) : Binary64 :=
  let negative := x.negative != y.negative
  passNaN x y <|
    if x.isInfinite then
      if y.isInfinite then indefinite else infinity negative
    else if y.isInfinite then zero negative
    else if y.isZero then
      if x.isZero then indefinite else infinity negative
    else ofRatio negative x.units y.units

/-- The sum of a list, from the left, on top of `start`. -/
def sumFrom (start : Binary64) (xs : List Binary64) : Binary64 := xs.foldl add start

/-! ## Some values -/

example : add (ofRatio false 1 10) (ofRatio false 2 10) =
    ofRatio false 30000000000000004 100000000000000000 := by decide +kernel
example : div (ofInt 1) (ofInt 4) = ofRatio false 1 4 := by decide +kernel
example : add (zero true) (zero true) = zero true := by decide +kernel

end GraphQuery.Binary64
