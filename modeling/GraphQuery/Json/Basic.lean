/-
# JSON documents

The tree of a JSON text.  A number is whole, when it is written without point and exponent and lies
between `-2 ^ 63` and `2 ^ 64`, or a finite `Binary64`.  The entries of an object stand in written
order, a key may repeat; `canonical` turns every object into a map in key order, in which the last
entry of a key counts.
-/
import GraphQuery.Binary64.Basic
import GraphQuery.Keyed

namespace GraphQuery

/-- A JSON document. -/
inductive Json where
  | null
  | bool (b : Bool)
  | integer (i : Int)
  | real (x : Binary64)
  | string (s : String)
  | array (items : List Json)
  | object (entries : List (String × Json))
  deriving Repr, Inhabited

namespace Json

/-! ## 1. Parts -/

/-- The entry of an object under a key. -/
def get? (key : String) : Json → Option Json
  | object entries => Keyed.get? key entries
  | _ => none

/-- The text, if the document is one. -/
def string? : Json → Option String
  | string s => some s
  | _ => none

/-- The items, if the document is an array. -/
def items? : Json → Option (List Json)
  | array items => some items
  | _ => none

/-- The entries, if the document is an object. -/
def entries? : Json → Option (List (String × Json))
  | object entries => some entries
  | _ => none

/-- The document is `null`. -/
def isNull : Json → Bool
  | null => true
  | _ => false

/-! ## 2. Canonical documents -/

mutual
/-- All objects as maps in key order. -/
def canonical : Json → Json
  | array items => array (canonicalItems items)
  | object entries => object (Keyed.ofList (canonicalEntries entries))
  | j => j
/-- The items, each in canonical form. -/
def canonicalItems : List Json → List Json
  | [] => []
  | j :: rest => canonical j :: canonicalItems rest
/-- The entries in their order, each value in canonical form. -/
def canonicalEntries : List (String × Json) → List (String × Json)
  | [] => []
  | (k, j) :: rest => (k, canonical j) :: canonicalEntries rest
end

/-! ## 3. Equality -/

mutual
/-- Documents are equal part by part, numbers within their kind: `1` and `1.0` differ, the two
zeros among the reals do not. -/
def eqv : Json → Json → Bool
  | null, null => true
  | bool a, bool b => a == b
  | integer a, integer b => a == b
  | real a, real b => a.eqv b
  | string a, string b => a == b
  | array a, array b => eqvItems a b
  | object a, object b => eqvEntries a b
  | _, _ => false
/-- Item by item. -/
def eqvItems : List Json → List Json → Bool
  | [], [] => true
  | a :: as, b :: bs => eqv a b && eqvItems as bs
  | _, _ => false
/-- Entry by entry. -/
def eqvEntries : List (String × Json) → List (String × Json) → Bool
  | [], [] => true
  | (k, a) :: as, (l, b) :: bs => k == l && eqv a b && eqvEntries as bs
  | _, _ => false
end

end Json

end GraphQuery
