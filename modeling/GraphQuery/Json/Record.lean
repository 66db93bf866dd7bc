/-
# Reading records

A record has a fixed list of fields.  Its document is an object, in which unknown fields are passed
over and a known field may stand once, or an array of the fields in their order, from which fields
at the end may be missing.  A map is an object in which the last entry of a key counts.
-/
import GraphQuery.Json.Basic

namespace GraphQuery.Json

/-- The values of all entries with a key, in written order. -/
def valuesAt (key : String) (entries : List (String × Json)) : List Json :=
  (entries.filter fun e => e.1 = key).map Prod.snd

/-- The value of a field of an object: missing, given once, or else a fault. -/
def fieldOnce? (entries : List (String × Json)) (key : String) : Option (Option Json) :=
  match valuesAt key entries with
  | [] => some none
  | [j] => some (some j)
  | _ => none

/-- The fields of a record, in the order of their names; a field may be missing. -/
def fields? (names : List String) : Json → Option (List (Option Json))
  | object entries => names.mapM (fieldOnce? entries)
  | array items =>
    if items.length ≤ names.length then
      some ((items.map some) ++ List.replicate (names.length - items.length) none)
    else none
  | _ => none

/-- A field that must be given. -/
def required? {α : Type} (read : Json → Option α) (field : Option Json) : Option α :=
  field.bind read

/-- A field with a value to take when it is missing. -/
def orElse? {α : Type} (read : Json → Option α) (default : α) (field : Option Json) : Option α :=
  match field with
  | none => some default
  | some j => read j

/-- A field that may be missing or null. -/
def nullable? {α : Type} (read : Json → Option α) (field : Option Json) : Option (Option α) :=
  match field with
  | none | some null => some none
  | some j => (read j).map some

/-- A map, all of whose entries are read. -/
def map? {α : Type} (read : Json → Option α) : Json → Option (List (String × α))
  | object entries =>
    (entries.mapM fun e => (read e.2).map fun a => (e.1, a)).map Keyed.ofList
  | _ => none

end GraphQuery.Json
