/-
# Writing JSON texts

Documents are written without blanks.  In strings the quote, the backslash and the control
characters are escaped, all else stands for itself.  Reals are written with the fewest digits that
read back, positionally while the decimal exponent lies between -5 and 15.
-/
import GraphQuery.Json.Basic
import GraphQuery.Decimal.Layout

namespace GraphQuery.Json

/-! ## 1. Numbers -/

/-- Which reals are written positionally. -/
def realLayout : Decimal.Layout := ⟨-5, 15⟩

/-- The text of a real; there is none for the infinities and NaN. -/
def realText (x : Binary64) : String :=
  if x.isFinite then x.shortestDecimal.write realLayout x.negative else "null"

/-! ## 2. Strings -/

/-- A hexadecimal digit in lower case. -/
def hexDigit (n : Nat) : Char := Nat.digitChar n

/-- A character inside a string. -/
def escapeChar (c : Char) : List Char :=
  if c = '"' then ['\\', '"']
  else if c = '\\' then ['\\', '\\']
  else if c = '\n' then ['\\', 'n']
  else if c = '\r' then ['\\', 'r']
  else if c = '\t' then ['\\', 't']
  else if c = '\x08' then ['\\', 'b']
  else if c = '\x0c' then ['\\', 'f']
  else if c.toNat < 0x20 then
    ['\\', 'u', '0', '0', hexDigit (c.toNat / 16), hexDigit (c.toNat % 16)]
  else [c]

/-- A string in quotes. -/
def quote (s : String) : String :=
  String.ofList ('"' :: s.toList.flatMap escapeChar ++ ['"'])

/-! ## 3. Documents -/

mutual
/-- The text of a document. -/
def text : Json → String
  | null => "null"
  | bool b => if b then "true" else "false"
  | integer i => toString i
  | real x => realText x
  | string s => quote s
  | array items => "[" ++ String.intercalate "," (itemTexts items) ++ "]"
  | object entries => "\x7b" ++ String.intercalate "," (entryTexts entries) ++ "\x7d"
/-- The texts of the items. -/
def itemTexts : List Json → List String
  | [] => []
  | j :: rest => text j :: itemTexts rest
/-- The texts of the entries. -/
def entryTexts : List (String × Json) → List String
  | [] => []
  | (k, j) :: rest => (quote k ++ ":" ++ text j) :: entryTexts rest
end

end GraphQuery.Json
