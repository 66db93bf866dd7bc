/-
# Floating point numbers of 64 bits

A `Binary64` is the sign bit of an IEEE 754 number and the 63 bits below it, the *magnitude*.
Magnitudes are ordered as the numbers they stand for, so the order of all bit patterns is the order
of a key in `Int` (`orderKey`), and a finite number is a whole count of the smallest positive one,
`2 ^ -1074` (`units`).

Two relations on numbers are kept apart.

* `compare` is the total order of bit patterns: `-NaN < -∞ < … < -0 < +0 < … < +∞ < +NaN`.
* `eqv` is numeric equality: the zeros are equal and a NaN equals nothing, itself included.
-/

namespace GraphQuery

/-- A number of the IEEE 754 interchange format of 64 bits: its sign, and the 11 exponent bits and
52 fraction bits below it read as one number below `2 ^ 63`. -/
structure Binary64 where
  negative : Bool
  magnitude : Fin 0x8000000000000000
  deriving DecidableEq, Repr

namespace Binary64

/-! ## 1. Classes -/

/-- The weight of the lowest exponent bit in a magnitude, `2 ^ 52`. -/
def exponentUnit : Nat := 0x10000000000000

/-- The magnitude of the infinities: all exponent bits set, no fraction bit set. -/
def infinityMagnitude : Nat := 2047 * exponentUnit

/-- A number with all exponent bits and some fraction bit set is no number. -/
def isNaN (x : Binary64) : Bool := decide (infinityMagnitude < x.magnitude.val)

/-- A number whose exponent bits are not all set is finite. -/
def isFinite (x : Binary64) : Bool := decide (x.magnitude.val < infinityMagnitude)

/-- Either of the two infinities. -/
def isInfinite (x : Binary64) : Bool := decide (x.magnitude.val = infinityMagnitude)

/-- Either of the two zeros. -/
def isZero (x : Binary64) : Bool := decide (x.magnitude.val = 0)

/-- The number with the given sign whose magnitude is `m`, or infinity if that is smaller. -/
def ofMagnitude (negative : Bool) (m : Nat) : Binary64 :=
  ⟨negative, min m infinityMagnitude, by
    have : infinityMagnitude < 0x8000000000000000 := by decide
    omega⟩

/-- Zero, with a sign. -/
def zero (negative : Bool) : Binary64 := ofMagnitude negative 0

/-- Infinity, with a sign. -/
def infinity (negative : Bool) : Binary64 := ofMagnitude negative infinityMagnitude

/-- A quiet NaN, with a sign: of the fraction bits the highest is set. -/
def nan (negative : Bool) : Binary64 :=
  ⟨negative, infinityMagnitude + exponentUnit / 2, by decide⟩

/-! ## 2. The value of a finite number -/

/-- The digits of a finite number in base two, with the leading one that the format leaves out. -/
def significand (x : Binary64) : Nat :=
  if x.magnitude.val < exponentUnit then x.magnitude.val
  else exponentUnit + x.magnitude.val % exponentUnit

/-- The power of two, above `2 ^ -1074`, that the significand counts. -/
def scale (x : Binary64) : Nat :=
  if x.magnitude.val < exponentUnit then 0 else x.magnitude.val / exponentUnit - 1

/-- The size of a finite number as a multiple of `2 ^ -1074`. -/
def units (x : Binary64) : Nat := x.significand * Nat.pow 2 x.scale

/-- A finite number as a multiple of `2 ^ -1074`. -/
def signedUnits (x : Binary64) : Int := if x.negative then -x.units else x.units

/-! ## 3. Order and equality -/

/-- The place of a number in the total order of bit patterns. -/
def orderKey (x : Binary64) : Int :=
  if x.negative then -(x.magnitude.val : Int) - 1 else x.magnitude.val

/-- The total order of bit patterns. -/
def compare (x y : Binary64) : Ordering := Ord.compare x.orderKey y.orderKey

/-- Numeric equality. -/
def eqv (x y : Binary64) : Bool :=
  !x.isNaN && !y.isNaN && (x == y || (x.isZero && y.isZero))

/-- Distinct bit patterns have distinct places. -/
theorem orderKey_injective {x y : Binary64} (h : x.orderKey = y.orderKey) : x = y := by
  obtain ⟨sx, mx⟩ := x
  obtain ⟨sy, my⟩ := y
  cases sx <;> cases sy <;> simp only [orderKey, Bool.false_eq_true, if_true, if_false] at h
  · rw [Fin.ext (show mx.val = my.val by omega)]
  · omega
  · omega
  · rw [Fin.ext (show mx.val = my.val by omega)]

/-- Numeric equality does not depend on the order of its sides. -/
theorem eqv_comm (x y : Binary64) : x.eqv y = y.eqv x := by
  have h : (x == y) = (y == x) := by
    rw [Bool.eq_iff_iff, beq_iff_eq, beq_iff_eq, eq_comm]
  rw [eqv, eqv, h, Bool.and_comm x.isZero, Bool.and_comm (!x.isNaN)]

end Binary64

end GraphQuery
