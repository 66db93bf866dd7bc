/-
# Paths into values

A path is a row of segments: keys of maps, indices of lists, and the wildcard `$`, which goes on
with every item of a list.  What a path does not find is null.

A path with one wildcard gives the list of what its rest finds in the items.  With several
wildcards the lists of the inner ones are joined, so that the result is flat.
-/
import GraphQuery.Value.Basic

namespace GraphQuery

/-- A path: its segments from the outermost. -/
abbrev Path := List String

namespace Path

/-! ## 1. Dotted paths -/

/-- The pieces of a text between its points; there is at least one. -/
def splitAtPoints : List Char → List (List Char)
  | [] => [[]]
  | c :: rest =>
    if c = '.' then [] :: splitAtPoints rest
    else
      match splitAtPoints rest with
      | [] => [[c]]
      | piece :: pieces => (c :: piece) :: pieces

/-- The path that a dotted text writes.  The empty text is the empty path. -/
def ofText (s : String) : Path :=
  if s = "" then [] else (splitAtPoints s.toList).map String.ofList

/-! ## 2. Segments -/

/-- The wildcard. -/
def wildcard : String := "$"

/-- The index that a segment writes: decimal digits, with or without a plus sign. -/
def index? (segment : String) : Option Nat :=
  let cs :=
    match segment.toList with
    | '+' :: rest => rest
    | cs => cs
  if cs.isEmpty || !cs.all Char.isDigit then none
  else some (cs.foldl (fun n c => n * 10 + (c.toNat - '0'.toNat)) 0)

end Path

namespace Value

/-- The results of a wildcard as one list; with `join`, results that are lists give their items. -/
def gather (join : Bool) (results : List Value) : List Value :=
  results.flatMap fun v =>
    match v with
    | list inner => if join then inner else [v]
    | _ => [v]

/-- What a path finds in a value. -/
def follow (v : Value) (path : Path) : Value :=
  match path with
  | [] => v
  | segment :: rest =>
    match v with
    | list items =>
      if segment = Path.wildcard then
        list (gather (rest.contains Path.wildcard) (items.map fun item => item.follow rest))
      else
        match Path.index? segment with
        | none => null
        | some i =>
          match items[i]? with
          | none => null
          | some item => item.follow rest
    | map entries =>
      match Keyed.get? segment entries with
      | none => null
      | some next => next.follow rest
    | _ => null
termination_by structural path

@[simp] theorem follow_nil (v : Value) : v.follow [] = v := by
  cases v <;> rfl

end Value

end GraphQuery
