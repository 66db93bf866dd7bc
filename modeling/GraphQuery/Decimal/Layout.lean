/-
# Writing decimals

A decimal is written positionally, always with a point, while its decimal exponent (that of its
first digit) lies between two bounds, and otherwise with one digit before the point and a signed
exponent.  The bounds are a `Layout`.
-/
import GraphQuery.Decimal.Shortest

namespace GraphQuery.Decimal

/-- The decimal exponents that are written positionally. -/
structure Layout where
  lowest : Int
  highest : Int

/-- The digits of the coefficient, first digit first. -/
def digits (d : Decimal) : List Char := Nat.toDigits 10 d.coefficient

/-- The exponent of the first digit. -/
def leadingExponent (d : Decimal) : Int := d.exponent + (d.digits.length : Int) - 1

/-- Positional writing: all digits, with a point at its place and a zero on a bare side of it. -/
def positional (d : Decimal) : List Char :=
  let point : Int := d.exponent + d.digits.length
  if 0 ≤ d.exponent then
    d.digits ++ List.replicate d.exponent.toNat '0' ++ ['.', '0']
  else if 0 < point then
    d.digits.take point.toNat ++ '.' :: d.digits.drop point.toNat
  else
    '0' :: '.' :: List.replicate (-point).toNat '0' ++ d.digits

/-- The digits with a point after the first one, if there are others. -/
def pointed : List Char → List Char
  | [] => []
  | [c] => [c]
  | c :: rest => c :: '.' :: rest

/-- Writing with an exponent, whose sign is always written. -/
def scientific (d : Decimal) : List Char :=
  let e := d.leadingExponent
  pointed d.digits ++ 'e' :: (if e < 0 then '-' else '+') :: Nat.toDigits 10 e.natAbs

/-- The writing of a decimal in a layout, under a sign. -/
def write (layout : Layout) (negative : Bool) (d : Decimal) : String :=
  let e := d.leadingExponent
  let body :=
    if layout.lowest ≤ e ∧ e ≤ layout.highest then d.positional else d.scientific
  String.ofList (if negative then '-' :: body else body)

end GraphQuery.Decimal
