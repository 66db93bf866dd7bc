/-
# Rounding to the nearest number

One rounding serves every operation of the library: a non-negative quotient `n / d`, counted in
units of `2 ^ -1074`, goes to the nearest magnitude, and half way between two to the one whose last
bit is zero.  Operations compute their exact result as such a quotient and round once.
-/
import GraphQuery.Binary64.Basic

namespace GraphQuery.Binary64

/-- The quotient `n / d` as a whole number, to nearest, ties to even. -/
def divideToNearest (n d : Nat) : Nat :=
  let q := n / d
  let twice := 2 * (n % d)
  if twice > d || (twice == d && q % 2 == 1) then q + 1 else q

/-- The number of low bits that a value of `q` whole units has beyond the 53 that are kept. -/
def excessBits (q : Nat) : Nat := q.log2 - 52

/-- The magnitude nearest to `n / d` units.  A significand that rounds up to the next power of two
carries into the exponent by itself, since the exponent bits stand right above the fraction. -/
def nearestMagnitude (n d : Nat) : Nat :=
  let shift := excessBits (n / d)
  shift * exponentUnit + divideToNearest n (d * Nat.pow 2 shift)

/-- The number nearest to `n / d` units, with a sign; beyond the largest finite one, infinity. -/
def ofUnits (negative : Bool) (n d : Nat) : Binary64 :=
  ofMagnitude negative (nearestMagnitude n d)

/-- The number nearest to the quotient `n / d`, with a sign. -/
def ofRatio (negative : Bool) (n d : Nat) : Binary64 :=
  ofUnits negative (n * Nat.pow 2 1074) d

/-- The number nearest to a whole number. -/
def ofInt (i : Int) : Binary64 := ofRatio (i < 0) i.natAbs 1

/-- The number nearest to a power of ten. -/
def ofPowerOfTen (e : Nat) : Binary64 := ofRatio false (Nat.pow 10 e) 1

/-! ## Some values -/

example : ofInt 1 = ⟨false, 1023 * exponentUnit, by decide⟩ := by decide +kernel
example : ofInt 9007199254740993 = ofInt 9007199254740992 := by decide +kernel
example : ofInt (-3) = ⟨true, 1024 * exponentUnit + exponentUnit / 2, by decide⟩ := by
  decide +kernel

end GraphQuery.Binary64
