/-
# Patterns over texts

The tree of a regular expression: characters, classes of characters, assertions on a place, groups,
repetitions, rows and alternatives.  Besides the tree this module holds what bounds it: the nesting
of its nodes, and the space that its automaton and the table of its groups are charged for.
-/

namespace GraphQuery

/-! ## 1. Classes of characters -/

/-- A class of characters: ranges of code points, in order and apart from each other. -/
abbrev CharRanges := List (Nat × Nat)

namespace CharRanges

/-- A range is put at its place by its first code point. -/
def place (r : Nat × Nat) : CharRanges → CharRanges
  | [] => [r]
  | s :: rest => if r.1 ≤ s.1 then r :: s :: rest else s :: place r rest

/-- A range and those after it in order.  It grows over each next one that it touches or overlaps,
so a wide range takes in all the narrow ones inside it. -/
def joinFrom (r : Nat × Nat) : CharRanges → CharRanges
  | [] => [r]
  | s :: rest => if s.1 ≤ r.2 + 1 then joinFrom (r.1, max r.2 s.2) rest else r :: joinFrom s rest

/-- Ranges in order that touch or overlap become one. -/
def join : CharRanges → CharRanges
  | [] => []
  | r :: rest => joinFrom r rest

/-- The class of the given ranges. -/
def ofList (rs : List (Nat × Nat)) : CharRanges :=
  join (rs.foldl (fun placed r => place r placed) [])

example : ofList [(98, 98), (97, 122), (100, 100), (48, 57), (123, 123)] = [(48, 57), (97, 123)] := by
  decide

/-- The greatest code point. -/
def greatest : Nat := 0x10FFFF

/-- The code points from `next` on that are in none of the ranges. -/
def complementFrom (next : Nat) : CharRanges → CharRanges
  | [] => if next ≤ greatest then [(next, greatest)] else []
  | r :: rest =>
    let later := complementFrom (r.2 + 1) rest
    if next < r.1 then (next, r.1 - 1) :: later else later

/-- All other characters. -/
def complement (rs : CharRanges) : CharRanges := complementFrom 0 rs

/-- What two ranges have in common. -/
def common? (r s : Nat × Nat) : Option (Nat × Nat) :=
  if max r.1 s.1 ≤ min r.2 s.2 then some (max r.1 s.1, min r.2 s.2) else none

/-- The other case of the Latin letters of ASCII in a range.  A range that holds small letters gets
their capitals only, even if it holds capitals too; one without small letters gets the small ones of
its capitals. -/
def otherCase? (r : Nat × Nat) : Option (Nat × Nat) :=
  match common? r ('a'.toNat, 'z'.toNat) with
  | some s => some (s.1 - 32, s.2 - 32)
  | none => (common? r ('A'.toNat, 'Z'.toNat)).map fun s => (s.1 + 32, s.2 + 32)

/-- The class with the other case of each of its ranges. -/
def foldCase (rs : CharRanges) : CharRanges := ofList (rs ++ rs.filterMap otherCase?)

example : foldCase [('Z'.toNat, 'a'.toNat)] = [('A'.toNat, 'A'.toNat), ('Z'.toNat, 'a'.toNat)] := by
  decide

/-- The character is in the class. -/
def contains (rs : CharRanges) (c : Char) : Bool :=
  rs.any fun r => decide (r.1 ≤ c.toNat ∧ c.toNat ≤ r.2)

/-- One character. -/
def single (c : Char) : Nat × Nat := (c.toNat, c.toNat)

/-- The characters between two. -/
def between (a b : Char) : Nat × Nat := (a.toNat, b.toNat)

/-- The decimal digits. -/
def digit : CharRanges := [between '0' '9']

/-- The blanks of ASCII: tab, line feed, vertical tab, form feed, carriage return, space. -/
def space : CharRanges := [(0x09, 0x0D), single ' ']

/-- Letters and digits of ASCII and the low line. -/
def word : CharRanges := [between '0' '9', between 'A' 'Z', single '_', between 'a' 'z']

/-- The named classes of ASCII. -/
def named? : String → Option CharRanges
  | "alnum" => some [between '0' '9', between 'A' 'Z', between 'a' 'z']
  | "alpha" => some [between 'A' 'Z', between 'a' 'z']
  | "ascii" => some [(0, 0x7F)]
  | "blank" => some [single '\t', single ' ']
  | "cntrl" => some [(0, 0x1F), (0x7F, 0x7F)]
  | "digit" => some digit
  | "graph" => some [between '!' '~']
  | "lower" => some [between 'a' 'z']
  | "print" => some [between ' ' '~']
  | "punct" => some [between '!' '/', between ':' '@', between '[' '\x60', between '\x7b' '~']
  | "space" => some space
  | "upper" => some [between 'A' 'Z']
  | "word" => some word
  | "xdigit" => some [between '0' '9', between 'A' 'F', between 'a' 'f']
  | _ => none

end CharRanges

/-! ## 2. The tree -/

/-- An assertion on a place between two characters. -/
inductive Place where
  | textStart
  | textEnd
  | lineStart
  | lineEnd
  | crlfLineStart
  | crlfLineEnd
  | wordBoundary
  | noWordBoundary
  | wordStart
  | wordEnd
  | wordStartHalf
  | wordEndHalf
  deriving DecidableEq, Repr

/-- A regular expression.  Groups are numbered from one in the order of their opening
parentheses. -/
inductive Pattern where
  | empty
  | char (c : Char)
  | cls (ranges : CharRanges)
  | place (p : Place)
  | repeated (sub : Pattern) (least : Nat) (most : Option Nat)
  | group (number : Nat) (name : Option String) (sub : Pattern)
  | row (subs : List Pattern)
  | choice (subs : List Pattern)
  deriving Repr

namespace Pattern

/-- A row of patterns; a row of one is that one. -/
def ofRow : List Pattern → Pattern
  | [] => empty
  | [p] => p
  | ps => row ps

/-- A choice between patterns; a choice of one is that one. -/
def ofChoice : List Pattern → Pattern
  | [p] => p
  | ps => choice ps

/-- A pattern, repeated.  No repetition at all leaves the empty pattern, whatever is repeated, and
exactly one leaves the pattern itself. -/
def ofRepetition (sub : Pattern) (least : Nat) (most : Option Nat) : Pattern :=
  match least, most with
  | _, some 0 => empty
  | 1, some 1 => sub
  | least, most => repeated sub least most

/-! ## 3. Nesting -/

mutual
/-- The number of nodes above the deepest leaf. -/
def nesting : Pattern → Nat
  | repeated sub _ _ | group _ _ sub => nesting sub + 1
  | row subs | choice subs => nestingAll subs + 1
  | _ => 0
/-- The deepest of several patterns. -/
def nestingAll : List Pattern → Nat
  | [] => 0
  | p :: rest => max (nesting p) (nestingAll rest)
end

/-! ## 4. The size of the automaton -/

mutual
/-- The pattern matches the empty text, assertions taken as true. -/
def matchesEmpty : Pattern → Bool
  | empty | place _ => true
  | char _ | cls _ => false
  | repeated sub least _ => least == 0 || matchesEmpty sub
  | group _ _ sub => matchesEmpty sub
  | row subs => allMatchEmpty subs
  | choice subs => anyMatchesEmpty subs
/-- All patterns match the empty text. -/
def allMatchEmpty : List Pattern → Bool
  | [] => true
  | p :: rest => matchesEmpty p && allMatchEmpty rest
/-- Some pattern matches the empty text. -/
def anyMatchesEmpty : List Pattern → Bool
  | [] => false
  | p :: rest => matchesEmpty p || anyMatchesEmpty rest
end

/-- The space that a part of an automaton takes, in bytes, and what linking its end to another
state adds: a branching state stores each of its targets. -/
structure Space where
  bytes : Nat
  link : Nat

/-- The bytes of a state. -/
def stateBytes : Nat := 32

/-- The bytes of a stored target. -/
def targetBytes : Nat := 4

/-- The bytes of a stored range of characters. -/
def rangeBytes : Nat := 8

namespace Space

/-- A state that stores no targets. -/
def state : Space := ⟨stateBytes, 0⟩

/-- One part after the other. -/
def andThen (a b : Space) : Space := ⟨a.bytes + a.link + b.bytes, b.link⟩

/-- A part `n` times in a row. -/
def times (a : Space) : Nat → Space
  | 0 => state
  | n + 1 => ⟨(n + 1) * a.bytes + n * a.link, a.link⟩

/-- A part, repeated. -/
def repeated (a : Space) (emptyMatch : Bool) (least : Nat) (most : Option Nat) : Space :=
  match least, most with
  | 0, some 1 => ⟨a.bytes + a.link + 2 * stateBytes + 2 * targetBytes, 0⟩
  | 0, none =>
    if emptyMatch then ⟨a.bytes + a.link + 3 * stateBytes + 4 * targetBytes, 0⟩
    else ⟨a.bytes + a.link + stateBytes + targetBytes, targetBytes⟩
  | n + 1, none => ⟨(a.times (n + 1)).bytes + a.link + stateBytes + targetBytes, targetBytes⟩
  | least, some most =>
    if most ≤ least then a.times least
    else
      let first := a.times least
      let more := most - least
      ⟨first.bytes + first.link + stateBytes
        + more * (a.bytes + a.link + stateBytes + 2 * targetBytes), 0⟩

end Space

mutual
/-- The space of the automaton of a pattern. -/
def space : Pattern → Space
  | empty | char _ | place _ => Space.state
  | cls ranges => ⟨stateBytes + rangeBytes * ranges.length, 0⟩
  | repeated sub least most => (space sub).repeated (matchesEmpty sub) least most
  | group _ _ sub => ⟨(space sub).bytes + (space sub).link + 2 * stateBytes, 0⟩
  | row subs => spaceRow subs
  | choice subs => ⟨spaceChoice subs + 2 * stateBytes, 0⟩
/-- The space of patterns in a row. -/
def spaceRow : List Pattern → Space
  | [] => Space.state
  | [p] => space p
  | p :: rest => (space p).andThen (spaceRow rest)
/-- The bytes of patterns side by side, each linked from the branch and to the common end. -/
def spaceChoice : List Pattern → Nat
  | [] => 0
  | p :: rest => (space p).bytes + (space p).link + targetBytes + spaceChoice rest
end

/-- The bytes of the automaton of a whole pattern, with the states that mark its match. -/
def automatonBytes (p : Pattern) : Nat :=
  (space p).bytes + (space p).link + 3 * stateBytes

/-! ## 5. The size of the table of groups -/

mutual
/-- The greatest number of a group. -/
def lastGroup : Pattern → Nat
  | repeated sub _ _ => lastGroup sub
  | group number _ sub => max number (lastGroup sub)
  | row subs | choice subs => lastGroupIn subs
  | _ => 0
/-- The greatest number of a group in one of several patterns. -/
def lastGroupIn : List Pattern → Nat
  | [] => 0
  | p :: rest => max (lastGroup p) (lastGroupIn rest)
end

/-- The bytes of a group's place in the table. -/
def groupBytes : Nat := 16

/-- The bytes of a name, with those that lead from the name to its group. -/
def nameBytes (name : String) : Nat := 28 + name.utf8ByteSize

mutual
/-- The bytes of the names of groups. -/
def allNamesBytes : Pattern → Nat
  | repeated sub _ _ => allNamesBytes sub
  | group _ name sub => (name.elim 0 nameBytes) + allNamesBytes sub
  | row subs | choice subs => allNamesBytesIn subs
  | _ => 0
/-- The bytes of the names of groups in several patterns. -/
def allNamesBytesIn : List Pattern → Nat
  | [] => 0
  | p :: rest => allNamesBytes p + allNamesBytesIn rest
end

/-- The bytes of the table of groups.  The whole match has the number zero, and a number that no
group bears any more still has its place below the greatest one. -/
def tableBytes (p : Pattern) : Nat := (lastGroup p + 1) * groupBytes + allNamesBytes p

/-- The bytes of a pattern: its automaton and its table of groups. -/
def bytes (p : Pattern) : Nat := automatonBytes p + tableBytes p

end Pattern

end GraphQuery
