/-
# Reading numerals

A numeral without point and exponent is whole if it lies between `-2 ^ 63` and `2 ^ 64`; the
numeral `-0` is the negative zero.  Every other numeral is a floating point number, read in two
roundings:

* the significand keeps the digits that fit below `2 ^ 64` and is rounded to a number;
* that number is multiplied or divided by a power of ten, itself a rounded number.  A division by
  more than `10 ^ 308` is done in two steps.

A numeral beyond the largest finite number is refused.
-/
import GraphQuery.Binary64.Arithmetic

namespace GraphQuery

/-- What a numeral stands for. -/
inductive Numeral where
  | integer (i : Int)
  | real (x : Binary64)
  deriving DecidableEq, Repr

namespace Numeral

/-! ## 1. Scaling by powers of ten -/

/-- The highest power of ten that is a finite number. -/
def greatestPower : Nat := 308

/-- The number `s / 10 ^ e`; beyond twice the greatest power nothing of it is left. -/
def scaleDown (s e : Nat) : Binary64 :=
  let x := Binary64.ofInt s
  if e ≤ greatestPower then x.div (Binary64.ofPowerOfTen e)
  else if e ≤ 2 * greatestPower then
    (x.div (Binary64.ofPowerOfTen greatestPower)).div (Binary64.ofPowerOfTen (e - greatestPower))
  else Binary64.zero false

/-- The number `s * 10 ^ e`, if it is finite. -/
def scaleUp? (s e : Nat) : Option Binary64 :=
  if s = 0 then some (Binary64.zero false)
  else if e ≤ greatestPower then
    let x := (Binary64.ofInt s).mul (Binary64.ofPowerOfTen e)
    if x.isFinite then some x else none
  else none

/-- The number `± s * 10 ^ e`, if it is finite. -/
def scaled? (negative : Bool) (s : Nat) (e : Int) : Option Numeral :=
  let size? := if 0 ≤ e then scaleUp? s e.toNat else some (scaleDown s e.natAbs)
  size?.map fun x => real (if negative then x.negate else x)

/-- The whole number `± s`, or the nearest floating point number if it is out of range. -/
def whole (negative : Bool) (s : Nat) : Numeral :=
  if negative then
    if 0 < s ∧ s ≤ 0x8000000000000000 then integer (-s) else real (Binary64.ofInt s).negate
  else integer s

/-! ## 2. The parts of a numeral -/

/-- The value of a decimal digit. -/
def digitValue (c : Char) : Nat := c.toNat - '0'.toNat

/-- Digits join the significand as long as it stays below `2 ^ 64`: the new significand, the number
of digits that joined, and the rest. -/
def absorb (s : Nat) (joined : Nat) : List Char → Nat × Nat × List Char
  | [] => (s, joined, [])
  | c :: rest =>
    if c.isDigit ∧ s * 10 + digitValue c < UInt64.size then
      absorb (s * 10 + digitValue c) (joined + 1) rest
    else (s, joined, c :: rest)

/-- The value of a row of digits. -/
def digitsValue (cs : List Char) : Nat := cs.foldl (fun n c => n * 10 + digitValue c) 0

/-- The exponent part after its letter: an optional sign and at least one digit. -/
def exponent? (cs : List Char) : Option (Int × List Char) :=
  let (negative, cs) : Bool × List Char :=
    match cs with
    | '+' :: rest => (false, rest)
    | '-' :: rest => (true, rest)
    | _ => (false, cs)
  match cs.takeWhile Char.isDigit with
  | [] => none
  | ds =>
    let n : Int := digitsValue ds
    some (if negative then -n else n, cs.dropWhile Char.isDigit)

/-- What follows the digits of a number with point or exponent. -/
def finish? (negative : Bool) (s : Nat) (e : Int) (cs : List Char) : Option (Numeral × List Char) :=
  match cs with
  | 'e' :: rest | 'E' :: rest => do
    let (n, rest) ← exponent? rest
    let x ← scaled? negative s (e + n)
    return (x, rest)
  | _ => do
    let x ← scaled? negative s e
    return (x, cs)

/-- The digits after the point, of which there is at least one. -/
def fraction? (negative : Bool) (s : Nat) (e : Int) (cs : List Char) :
    Option (Numeral × List Char) :=
  if (cs.takeWhile Char.isDigit).isEmpty then none
  else
    let (s, joined, rest) := absorb s 0 cs
    finish? negative s (e - joined) (rest.dropWhile Char.isDigit)

/-- A numeral after its sign: no leading zero but a lone one. -/
def unsigned? (negative : Bool) (cs : List Char) : Option (Numeral × List Char) :=
  let ds := cs.takeWhile Char.isDigit
  if ds.isEmpty || (ds.head? == some '0' && 1 < ds.length) then none
  else
    let (s, _, rest) := absorb 0 0 cs
    let surplus := (rest.takeWhile Char.isDigit).length
    match rest.dropWhile Char.isDigit with
    | '.' :: tail => fraction? negative s surplus tail
    | tail =>
      match tail with
      | 'e' :: _ | 'E' :: _ => finish? negative s surplus tail
      | _ =>
        if surplus = 0 then some (whole negative s, tail)
        else finish? negative s surplus tail

/-- The numeral at the start of a text, and the rest of the text. -/
def read? (cs : List Char) : Option (Numeral × List Char) :=
  match cs with
  | '-' :: rest => unsigned? true rest
  | _ => unsigned? false cs

end Numeral

end GraphQuery
