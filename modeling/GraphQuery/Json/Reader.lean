/-
# Reading JSON texts

The strict grammar: one value, blanks (space, tab, line feed, carriage return) around tokens and
nothing else, no trailing comma.  A string holds no bare control character and no half of a
surrogate pair.  Arrays and objects are nested at most `maxNesting` deep.

Objects keep their entries as written; `parse?` makes the document canonical.
-/
import GraphQuery.Json.Basic
import GraphQuery.Json.Numeral

namespace GraphQuery.Json

/-! ## 1. Strings -/

/-- The value of a hexadecimal digit. -/
def hexValue? (c : Char) : Option Nat :=
  if c.isDigit then some (c.toNat - '0'.toNat)
  else if 'a' ≤ c ∧ c ≤ 'f' then some (c.toNat - 'a'.toNat + 10)
  else if 'A' ≤ c ∧ c ≤ 'F' then some (c.toNat - 'A'.toNat + 10)
  else none

/-- The code unit that four hexadecimal digits write. -/
def codeUnit? (a b c d : Char) : Option Nat := do
  let a ← hexValue? a
  let b ← hexValue? b
  let c ← hexValue? c
  let d ← hexValue? d
  return ((a * 16 + b) * 16 + c) * 16 + d

/-- The first half of a surrogate pair. -/
def isHighHalf (u : Nat) : Bool := decide (0xD800 ≤ u ∧ u < 0xDC00)

/-- The second half of a surrogate pair. -/
def isLowHalf (u : Nat) : Bool := decide (0xDC00 ≤ u ∧ u < 0xE000)

/-- The character of a surrogate pair. -/
def pairChar (high low : Nat) : Char :=
  Char.ofNat (0x10000 + (high - 0xD800) * 0x400 + (low - 0xDC00))

/-- The character that a letter stands for after a backslash. -/
def shortEscape? : Char → Option Char
  | '"' => some '"'
  | '\\' => some '\\'
  | '/' => some '/'
  | 'b' => some '\x08'
  | 'f' => some '\x0c'
  | 'n' => some '\n'
  | 'r' => some '\r'
  | 't' => some '\t'
  | _ => none

/-- The rest of a string after its opening quote, the characters read so far in reverse. -/
def stringTail? (acc : List Char) : List Char → Option (String × List Char)
  | [] => none
  | '"' :: rest => some (String.ofList acc.reverse, rest)
  | '\\' :: 'u' :: a :: b :: c :: d :: rest =>
    match codeUnit? a b c d with
    | none => none
    | some u =>
      if isHighHalf u then
        match rest with
        | '\\' :: 'u' :: a :: b :: c :: d :: rest =>
          match codeUnit? a b c d with
          | none => none
          | some l => if isLowHalf l then stringTail? (pairChar u l :: acc) rest else none
        | _ => none
      else if isLowHalf u then none
      else stringTail? (Char.ofNat u :: acc) rest
  | '\\' :: c :: rest =>
    match shortEscape? c with
    | none => none
    | some e => stringTail? (e :: acc) rest
  | c :: rest => if c.toNat < 0x20 then none else stringTail? (c :: acc) rest

/-! ## 2. Values -/

/-- A blank between tokens. -/
def isBlank (c : Char) : Bool := c == ' ' || c == '\n' || c == '\t' || c == '\r'

/-- The text without the blanks at its start. -/
def skipBlanks (cs : List Char) : List Char := cs.dropWhile isBlank

/-- The greatest depth to which arrays and objects may be nested. -/
def maxNesting : Nat := 127

mutual
/-- The value at the start of a text, with the given number of levels left for nesting. -/
def readValue? : Nat → Nat → List Char → Option (Json × List Char)
  | 0, _, _ => none
  | fuel + 1, levels, cs =>
    match skipBlanks cs with
    | 'n' :: 'u' :: 'l' :: 'l' :: rest => some (null, rest)
    | 't' :: 'r' :: 'u' :: 'e' :: rest => some (bool true, rest)
    | 'f' :: 'a' :: 'l' :: 's' :: 'e' :: rest => some (bool false, rest)
    | '"' :: rest => do
      let (s, rest) ← stringTail? [] rest
      return (string s, rest)
    | '[' :: rest =>
      if levels = 0 then none
      else
        match skipBlanks rest with
        | ']' :: rest => some (array [], rest)
        | rest => do
          let (items, rest) ← readItems? fuel (levels - 1) [] rest
          return (array items, rest)
    | '\x7b' :: rest =>
      if levels = 0 then none
      else
        match skipBlanks rest with
        | '\x7d' :: rest => some (object [], rest)
        | rest => do
          let (entries, rest) ← readEntries? fuel (levels - 1) [] rest
          return (object entries, rest)
    | cs => do
      let (n, rest) ← Numeral.read? cs
      match n with
      | .integer i => return (integer i, rest)
      | .real x => return (real x, rest)
/-- The items of an array from the next one on, those read so far in reverse. -/
def readItems? : Nat → Nat → List Json → List Char → Option (List Json × List Char)
  | 0, _, _, _ => none
  | fuel + 1, levels, acc, cs => do
    let (j, rest) ← readValue? fuel levels cs
    match skipBlanks rest with
    | ',' :: rest => readItems? fuel levels (j :: acc) rest
    | ']' :: rest => return ((j :: acc).reverse, rest)
    | _ => none
/-- The entries of an object from the next one on, those read so far in reverse. -/
def readEntries? : Nat → Nat → List (String × Json) → List Char →
    Option (List (String × Json) × List Char)
  | 0, _, _, _ => none
  | fuel + 1, levels, acc, cs =>
    match skipBlanks cs with
    | '"' :: rest => do
      let (key, rest) ← stringTail? [] rest
      match skipBlanks rest with
      | ':' :: rest =>
        let (j, rest) ← readValue? fuel levels rest
        match skipBlanks rest with
        | ',' :: rest => readEntries? fuel levels ((key, j) :: acc) rest
        | '\x7d' :: rest => return (((key, j) :: acc).reverse, rest)
        | _ => none
      | _ => none
    | _ => none
end

/-- The document that a text writes, the entries of its objects as written.  Each two calls of the
readers use up a character, which bounds their number. -/
def read? (text : String) : Option Json := do
  let cs := text.toList
  let (j, rest) ← readValue? (2 * cs.length + 2) maxNesting cs
  if (skipBlanks rest).isEmpty then return j else none

/-- The canonical document that a text writes. -/
def parse? (text : String) : Option Json := (read? text).map canonical

end GraphQuery.Json
