/-
# Equality and order of values

Three relations are used side by side.

* `eqv` is equality part by part, with numeric equality of floating point numbers, so that a NaN is
  not equal to itself and the zeros are equal; whole and floating point numbers differ.
* `looseEq` takes numbers of both kinds as one domain: a whole number is compared with a floating
  point number after rounding.
* `cmp` orders all values: null, truth values, numbers, texts, lists, maps.  Numbers of both kinds
  are compared in the total order of floating point numbers unless both are whole.
-/
import GraphQuery.Value.Basic

namespace GraphQuery.Value

/-! ## 1. Equality part by part -/

mutual
/-- Equality part by part. -/
def eqv : Value → Value → Bool
  | null, null => true
  | bool a, bool b => a == b
  | int a, int b => a == b
  | float a, float b => a.eqv b
  | string a, string b => a == b
  | list a, list b => eqvItems a b
  | map a, map b => eqvEntries a b
  | _, _ => false
/-- Item by item. -/
def eqvItems : List Value → List Value → Bool
  | [], [] => true
  | a :: as, b :: bs => eqv a b && eqvItems as bs
  | _, _ => false
/-- Entry by entry, key and value. -/
def eqvEntries : List (String × Value) → List (String × Value) → Bool
  | [], [] => true
  | (k, a) :: as, (l, b) :: bs => k == l && eqv a b && eqvEntries as bs
  | _, _ => false
end

/-! ## 2. Loose equality -/

mutual
/-- Equality in which whole and floating point numbers meet. -/
def looseEq : Value → Value → Bool
  | null, null => true
  | bool a, bool b => a == b
  | int a, int b => a == b
  | float a, float b => a.eqv b
  | int a, float b => (Binary64.ofInt a.toInt).eqv b
  | float a, int b => (Binary64.ofInt b.toInt).eqv a
  | string a, string b => a == b
  | list a, list b => looseEqItems a b
  | map a, map b => looseEqEntries a b
  | _, _ => false
/-- Item by item. -/
def looseEqItems : List Value → List Value → Bool
  | [], [] => true
  | a :: as, b :: bs => looseEq a b && looseEqItems as bs
  | _, _ => false
/-- Entry by entry, key and value. -/
def looseEqEntries : List (String × Value) → List (String × Value) → Bool
  | [], [] => true
  | (k, a) :: as, (l, b) :: bs => k == l && looseEq a b && looseEqEntries as bs
  | _, _ => false
end

/-! ## 3. Order -/

/-- The place of a kind in the order of kinds; numbers of both kinds share one. -/
def rank : Value → Nat
  | null => 0
  | bool _ => 1
  | int _ | float _ => 2
  | string _ => 3
  | list _ => 4
  | map _ => 5

/-- The order of texts by code points. -/
def compareText (a b : String) : Ordering :=
  if a < b then .lt else if a = b then .eq else .gt

mutual
/-- The order of all values: by kind, lists and maps item by item and a shorter one first. -/
def cmp : Value → Value → Ordering
  | bool a, bool b => compare a b
  | int a, int b => compare a.toInt b.toInt
  | float a, float b => a.compare b
  | int a, float b => (Binary64.ofInt a.toInt).compare b
  | float a, int b => a.compare (Binary64.ofInt b.toInt)
  | string a, string b => compareText a b
  | list a, list b => cmpItems a b
  | map a, map b => cmpEntries a b
  | a, b => compare a.rank b.rank
/-- The first difference decides, else the length. -/
def cmpItems : List Value → List Value → Ordering
  | [], [] => .eq
  | [], _ :: _ => .lt
  | _ :: _, [] => .gt
  | a :: as, b :: bs => (cmp a b).then (cmpItems as bs)
/-- The first difference of a key or a value decides, else the length. -/
def cmpEntries : List (String × Value) → List (String × Value) → Ordering
  | [], [] => .eq
  | [], _ :: _ => .lt
  | _ :: _, [] => .gt
  | (k, a) :: as, (l, b) :: bs =>
    (compareText k l).then ((cmp a b).then (cmpEntries as bs))
end

end GraphQuery.Value
