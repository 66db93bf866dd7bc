/-
# Values as JSON documents

A value is a document; only the infinities and NaN have no form there and become null.  A document
is a value; a whole number that does not fit 64 bits with a sign becomes the nearest floating point
number.  The text of a value is the text of its document.
-/
import GraphQuery.Value.Basic
import GraphQuery.Json.Printer

namespace GraphQuery.Value

/-! ## 1. From values to documents -/

mutual
/-- The document of a value. -/
def toJson : Value → Json
  | null => .null
  | bool b => .bool b
  | int i => .integer i.toInt
  | float x => if x.isFinite then .real x else .null
  | string s => .string s
  | list items => .array (itemsToJson items)
  | map entries => .object (entriesToJson entries)
/-- The documents of the items. -/
def itemsToJson : List Value → List Json
  | [] => []
  | v :: rest => toJson v :: itemsToJson rest
/-- The entries with their documents. -/
def entriesToJson : List (String × Value) → List (String × Json)
  | [] => []
  | (k, v) :: rest => (k, toJson v) :: entriesToJson rest
end

/-- The text of a value. -/
def text (v : Value) : String := v.toJson.text

/-! ## 2. From documents to values -/

/-- The value of a whole number. -/
def ofInteger (i : Int) : Value :=
  if FitsInt64 i then int (Int64.ofInt i) else float (Binary64.ofInt i)

mutual
/-- The value of a document.  Of several entries with one key the last counts. -/
def ofJson : Json → Value
  | .null => null
  | .bool b => bool b
  | .integer i => ofInteger i
  | .real x => float x
  | .string s => string s
  | .array items => list (itemsOfJson items)
  | .object entries => map (Keyed.ofList (entriesOfJson entries))
/-- The values of the items. -/
def itemsOfJson : List Json → List Value
  | [] => []
  | j :: rest => ofJson j :: itemsOfJson rest
/-- The entries with their values, as written. -/
def entriesOfJson : List (String × Json) → List (String × Value)
  | [] => []
  | (k, j) :: rest => (k, ofJson j) :: entriesOfJson rest
end

end GraphQuery.Value
