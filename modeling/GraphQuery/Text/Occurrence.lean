/-
# Texts within texts
-/

namespace GraphQuery.Text

/-- The characters of one text stand together somewhere in another. -/
def occursIn (part : List Char) : List Char → Bool
  | [] => part.isEmpty
  | c :: rest => part.isPrefixOf (c :: rest) || occursIn part rest

/-- The text contains the other one. -/
def contains (text part : String) : Bool := occursIn part.toList text.toList

/-- Occurrence is being an infix. -/
theorem occursIn_iff {part text : List Char} : occursIn part text = true ↔ part <:+: text := by
  induction text with
  | nil => simp [occursIn]
  | cons c rest ih => simp [occursIn, ih, List.infix_cons_iff]

end GraphQuery.Text
