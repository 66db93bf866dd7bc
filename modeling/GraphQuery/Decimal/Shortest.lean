/-
# The shortest decimal that reads back

Every finite number but zero has an interval of reals that round to it.  Decimals are looked for on
the grids `10 ^ j`, from the coarsest to the finest: the first grid with a point in the interval
has the fewest digits.  Of its two points next to the number the nearer one is taken, and half way
between them the even one.

All arithmetic is exact.  A number is measured in half units, `2 ^ -1075`, since the ends of its
interval lie half way between two numbers, and everything is multiplied by `10 ^ 324`, since no
grid finer than `10 ^ -324` is needed.
-/
import GraphQuery.Binary64.Basic

namespace GraphQuery

/-- A non-negative decimal number: `coefficient * 10 ^ exponent`. -/
structure Decimal where
  coefficient : Nat
  exponent : Int
  deriving DecidableEq, Repr

namespace Binary64

/-! ## 1. The interval of a number -/

/-- Half the distance to the next greater number, in half units. -/
def upperGap (x : Binary64) : Nat := Nat.pow 2 x.scale

/-- Half the distance to the next smaller number, in half units.  Below a power of two the numbers
stand twice as close. -/
def lowerGap (x : Binary64) : Nat :=
  if x.significand = exponentUnit ∧ x.scale ≠ 0 then Nat.pow 2 (x.scale - 1)
  else Nat.pow 2 x.scale

/-- The factor by which everything is multiplied, `10 ^ 324`. -/
def gridFactor : Nat := Nat.pow 10 324

/-- The size of a number in half units, times `10 ^ 324`. -/
def scaledSize (x : Binary64) : Nat := 2 * x.units * gridFactor

/-- The real `p`, in half units times `10 ^ 324`, rounds to the size of `x`: it lies in the interval
of `x`, which has its ends exactly if the significand is even. -/
def roundsHere (x : Binary64) (p : Nat) : Bool :=
  let least := (2 * x.units - x.lowerGap) * gridFactor
  let greatest := (2 * x.units + x.upperGap) * gridFactor
  if x.significand % 2 = 0 then decide (least ≤ p ∧ p ≤ greatest)
  else decide (least < p ∧ p < greatest)

/-! ## 2. Grids -/

/-- The step of the grid `10 ^ (i - 324)`, in half units times `10 ^ 324`. -/
def gridStep (i : Nat) : Nat := Nat.pow 10 i * Nat.pow 2 1075

/-- The point of a grid that reads back and is nearest to the number, as a multiple of the step. -/
def gridPoint? (x : Binary64) (i : Nat) : Option Nat :=
  let step := gridStep i
  let size := x.scaledSize
  let c := size / step
  let below := c * step
  let above := (c + 1) * step
  match x.roundsHere below, x.roundsHere above with
  | true, true =>
    if size - below < above - size then some c
    else if above - size < size - below then some (c + 1)
    else some (if c % 2 = 0 then c else c + 1)
  | true, false => some c
  | false, true => some (c + 1)
  | false, false => none

/-- The first decimal that reads back, on the grids from number `i` to the finest. -/
def coarsestFrom (x : Binary64) : Nat → Decimal
  | 0 => ⟨(x.gridPoint? 0).getD 0, -324⟩
  | i + 1 =>
    match x.gridPoint? (i + 1) with
    | some c => ⟨c, (i + 1 : Nat) - 324⟩
    | none => coarsestFrom x i

/-- The decimal of fewest digits that reads back as the size of a finite number, and of those the
nearest to it.  No number reaches `10 ^ 309`, so the search starts there. -/
def shortestDecimal (x : Binary64) : Decimal :=
  if x.isZero then ⟨0, 0⟩ else x.coarsestFrom 633

end Binary64

end GraphQuery
