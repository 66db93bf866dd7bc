/-
# Sets of code points by their boundaries

A set of characters that comes as a table is given by the code points at which membership changes,
in increasing order: a character is in the set if it has passed an odd number of them.
-/

namespace GraphQuery.Text

/-- The code points at which membership in a set changes. -/
abbrev Boundaries := List Nat

/-- The character is in the set with these boundaries. -/
def Boundaries.contains (bs : Boundaries) (c : Char) : Bool :=
  (bs.takeWhile (fun b => decide (b ≤ c.toNat))).length % 2 == 1

end GraphQuery.Text
