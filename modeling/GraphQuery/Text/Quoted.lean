/-
# Texts in quotes, for display

A text is shown between double quotes.  Quote and backslash are escaped, tab, line feed, carriage
return and the null character have letters of their own, and a character without a visible form is
shown by its code point in braces; all else stands for itself.
-/
import GraphQuery.Text.Unprintable

namespace GraphQuery.Text

/-- The form of a character between the quotes. -/
def showChar (c : Char) : List Char :=
  if c = '"' then ['\\', '"']
  else if c = '\\' then ['\\', '\\']
  else if c = '\t' then ['\\', 't']
  else if c = '\n' then ['\\', 'n']
  else if c = '\r' then ['\\', 'r']
  else if c = '\x00' then ['\\', '0']
  else if unprintable.contains c then
    '\\' :: 'u' :: '\x7b' :: Nat.toDigits 16 c.toNat ++ ['\x7d']
  else [c]

/-- A text in quotes. -/
def quoted (s : String) : String :=
  String.ofList ('"' :: s.toList.flatMap showChar ++ ['"'])

end GraphQuery.Text
