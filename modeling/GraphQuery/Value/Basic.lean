/-
# Values

One type of data is shared by attributes, query documents and result rows: that of JSON, with whole
numbers of 64 bits and floating point numbers kept apart.

`Value.Ordered` says that every map inside a value is in key order.  All values that the library
reads or builds are ordered, and equality of ordered values is equality of what they stand for.
-/
import GraphQuery.Binary64.Rounding
import GraphQuery.Keyed

namespace GraphQuery

/-- A piece of data. -/
inductive Value where
  | null
  | bool (b : Bool)
  | int (i : Int64)
  | float (x : Binary64)
  | string (s : String)
  | list (items : List Value)
  | map (entries : List (String × Value))
  deriving Repr, Inhabited

/-- The kinds of values. -/
inductive Kind where
  | null
  | bool
  | int
  | float
  | string
  | list
  | map
  deriving DecidableEq, Repr

/-- The name of a kind. -/
def Kind.name : Kind → String
  | null => "Null"
  | bool => "Bool"
  | int => "Int"
  | float => "Float"
  | string => "String"
  | list => "List"
  | map => "Map"

/-- A whole number fits 64 bits with a sign. -/
abbrev FitsInt64 (i : Int) : Prop := -0x8000000000000000 ≤ i ∧ i < 0x8000000000000000

theorem fitsInt64_toInt (i : Int64) : FitsInt64 i.toInt :=
  ⟨i.minValue_le_toInt, i.toInt_lt⟩

theorem toInt_ofInt_of_fits {n : Int} (h : FitsInt64 n) : (Int64.ofInt n).toInt = n :=
  Int64.toInt_ofInt_of_le h.1 h.2

/-- A result row, or any other map from names to values. -/
abbrev Row := List (String × Value)

namespace Value

/-! ## 1. Kinds and parts -/

/-- The kind of a value. -/
def kind : Value → Kind
  | null => .null
  | bool _ => .bool
  | int _ => .int
  | float _ => .float
  | string _ => .string
  | list _ => .list
  | map _ => .map

/-- The value is null. -/
def isNull : Value → Bool
  | null => true
  | _ => false

/-- The value is a number of either kind. -/
def isNumber : Value → Bool
  | int _ | float _ => true
  | _ => false

/-- The truth value, if the value is one. -/
def bool? : Value → Option Bool
  | bool b => some b
  | _ => none

/-- The whole number, if the value is one. -/
def int? : Value → Option Int64
  | int i => some i
  | _ => none

/-- The floating point number nearest to a number. -/
def number? : Value → Option Binary64
  | int i => some (Binary64.ofInt i.toInt)
  | float x => some x
  | _ => none

/-- The text, if the value is one. -/
def string? : Value → Option String
  | string s => some s
  | _ => none

/-- The items, if the value is a list. -/
def items? : Value → Option (List Value)
  | list items => some items
  | _ => none

/-- The entries, if the value is a map. -/
def entries? : Value → Option (List (String × Value))
  | map entries => some entries
  | _ => none

/-- The value under a key, if the value is a map that has it. -/
def get? (key : String) : Value → Option Value
  | map entries => Keyed.get? key entries
  | _ => none

/-- The only entry of a map that has one. -/
def singleEntry? : Value → Option (String × Value)
  | map [e] => some e
  | _ => none

/-- Null, false, the zeros, NaN and the empty text are false, everything else is true. -/
def isTruthy : Value → Bool
  | null => false
  | bool b => b
  | int i => i != 0
  | float x => !x.isZero && !x.isNaN
  | string s => s != ""
  | list _ | map _ => true

/-- The text that names a resource, if the value has that form: a text, or a whole number in
decimal digits. -/
def id? : Value → Option String
  | string s => some s
  | int i => some (toString i.toInt)
  | _ => none

/-! ## 2. Ordered values -/

mutual
/-- Every map inside the value is in key order. -/
def Ordered : Value → Prop
  | list items => OrderedItems items
  | map entries => Keyed.Sorted entries ∧ OrderedEntries entries
  | _ => True
/-- Every item is ordered. -/
def OrderedItems : List Value → Prop
  | [] => True
  | v :: rest => Ordered v ∧ OrderedItems rest
/-- The value of every entry is ordered. -/
def OrderedEntries : List (String × Value) → Prop
  | [] => True
  | (_, v) :: rest => Ordered v ∧ OrderedEntries rest
end

/-! ## 3. Equality can be decided -/

mutual
/-- Two values are the same, bit by bit. -/
def same : Value → Value → Bool
  | null, null => true
  | bool a, bool b => a == b
  | int a, int b => a == b
  | float a, float b => a == b
  | string a, string b => a == b
  | list a, list b => sameItems a b
  | map a, map b => sameEntries a b
  | _, _ => false
/-- Item by item. -/
def sameItems : List Value → List Value → Bool
  | [], [] => true
  | a :: as, b :: bs => same a b && sameItems as bs
  | _, _ => false
/-- Entry by entry. -/
def sameEntries : List (String × Value) → List (String × Value) → Bool
  | [], [] => true
  | (k, a) :: as, (l, b) :: bs => k == l && same a b && sameEntries as bs
  | _, _ => false
end

mutual
theorem same_iff : (a b : Value) → (same a b = true ↔ a = b)
  | null, b => by cases b <;> simp [same]
  | bool a, b => by cases b <;> simp [same]
  | int a, b => by cases b <;> simp [same]
  | float a, b => by cases b <;> simp [same]
  | string a, b => by cases b <;> simp [same]
  | list a, b => by cases b <;> simp [same, sameItems_iff a]
  | map a, b => by cases b <;> simp [same, sameEntries_iff a]
theorem sameItems_iff : (a b : List Value) → (sameItems a b = true ↔ a = b)
  | [], b => by cases b <;> simp [sameItems]
  | v :: as, b => by
    cases b with
    | nil => simp [sameItems]
    | cons w bs => simp [sameItems, same_iff v w, sameItems_iff as bs]
theorem sameEntries_iff :
    (a b : List (String × Value)) → (sameEntries a b = true ↔ a = b)
  | [], b => by cases b <;> simp [sameEntries]
  | (k, v) :: as, b => by
    cases b with
    | nil => simp [sameEntries]
    | cons e bs =>
      obtain ⟨l, w⟩ := e
      simp [sameEntries, same_iff v w, sameEntries_iff as bs]
end

instance : DecidableEq Value := fun a b => decidable_of_iff _ (same_iff a b)

end Value

end GraphQuery
