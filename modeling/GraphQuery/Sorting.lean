/-
# Stable sorting

Items are taken one after the other and put behind those taken before that are not greater.  Where
the comparison is a total preorder of the items this is the stable sort.

That is all that sorting promises.  With another comparison, only a few items are sorted like this;
of more of them a sort may make any order, or it may notice that the comparison contradicts itself and
stop the program.  So it is asked whether the result is settled (`settled`), and where it is not, the
program is taken to stop.
-/

namespace GraphQuery.Sorting

variable {α : Type}

/-! ## 1. Sorting by insertion -/

/-- An item goes to its place in a list from the greatest to the least: before the first item that
is not greater than it. -/
def insertDescending (cmp : α → α → Ordering) (x : α) : List α → List α
  | [] => [x]
  | y :: rest => if cmp x y = .lt then y :: insertDescending cmp x rest else x :: y :: rest

/-- The items from the least to the greatest, equal ones in the order given.  This is the result of a
sort where it is settled. -/
def stable (cmp : α → α → Ordering) (xs : List α) : List α :=
  (xs.foldl (fun sorted x => insertDescending cmp x sorted) []).reverse

/-- Insertion adds the item and nothing else. -/
theorem insertDescending_perm (cmp : α → α → Ordering) (x : α) (ys : List α) :
    (insertDescending cmp x ys).Perm (x :: ys) := by
  induction ys with
  | nil => exact List.Perm.refl _
  | cons y rest ih =>
    unfold insertDescending
    split
    · exact (ih.cons y).trans (List.Perm.swap x y rest)
    · exact List.Perm.refl _

/-- Sorting rearranges the items. -/
theorem stable_perm (cmp : α → α → Ordering) (xs : List α) : (stable cmp xs).Perm xs := by
  suffices h : ∀ acc : List α,
      (xs.foldl (fun sorted x => insertDescending cmp x sorted) acc).Perm (acc ++ xs) by
    exact (List.reverse_perm _).trans (by simpa using h [])
  induction xs with
  | nil => intro acc; simp
  | cons x rest ih =>
    intro acc
    have h := (insertDescending_perm cmp x acc).append_right rest
    exact (ih _).trans (h.trans List.perm_middle.symm)

/-! ## 2. Settled results -/

/-- So many items are sorted by insertion, whatever the comparison is. -/
def insertionLimit : Nat := 20

/-- How many of the items are less than one. -/
def rank (cmp : α → α → Ordering) (xs : List α) (x : α) : Nat := xs.countP fun y => cmp y x == .lt

/-- The comparison goes by the ranks of the items, and so does not contradict itself. -/
def isConsistent (cmp : α → α → Ordering) (xs : List α) : Bool :=
  let ranked := xs.map fun x => (x, rank cmp xs x)
  ranked.all fun a => ranked.all fun b => cmp a.1 b.1 == compare a.2 b.2

/-- The result of sorting the items is settled. -/
def settled (cmp : α → α → Ordering) (xs : List α) : Bool :=
  decide (xs.length ≤ insertionLimit) || isConsistent cmp xs

end GraphQuery.Sorting
