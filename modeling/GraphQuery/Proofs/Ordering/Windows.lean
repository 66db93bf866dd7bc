/-
# Windows over ordered items

The limit and the offset of a slice come last: they take a window of the items that are in order and
between the anchors.  `Slice.window` says which one, and `Slice.cut_eq_window` that it is the one
that the places of `Slice.bounds` cut out, however large the counts are.

* The slice without its counts keeps all that lies between the anchors, and the counts take their
  window of that (**`arrange_eq_map_cut`**).
* The window depends only on how many items there are.  So it may as well be taken of what a step
  makes of the items, if the step succeeds for all of them (**`mapM_cut`**).
-/
import GraphQuery.Proofs.Ordering.Anchors
import Mathlib.Data.List.DropRight

namespace GraphQuery

variable {α β ε : Type}

namespace Slice

/-! ## 1. Which items a window keeps -/

/-- The slice with its anchors and without its counts. -/
def unlimited (s : Slice) : Slice := { s with limit := none, offset := none }

/-- The number of items that are passed over. -/
def skipped (s : Slice) : Nat := (s.offset.map UInt64.toNat).getD 0

/-- The window of a list.  From the start: what comes after the skipped items, at most as many as the
limit.  With only the anchor `before` the same from the end. -/
def window (s : Slice) (items : List α) : List α :=
  if s.before.isSome && s.after.isNone then
    match s.limit with
    | none => items.rdrop s.skipped
    | some n => (items.rdrop s.skipped).rtake n.toNat
  else
    match s.limit with
    | none => items.drop s.skipped
    | some n => (items.drop s.skipped).take n.toNat

theorem cut_eq (s : Slice) (items : List α) :
    s.cut items =
      (items.drop (s.bounds items.length).1).take
        ((s.bounds items.length).2 - (s.bounds items.length).1) := rfl

/-- **The places that are cut out are the window.** -/
theorem cut_eq_window (s : Slice) (items : List α) : s.cut items = s.window items := by
  rw [cut_eq, bounds, window]
  split
  · cases s.limit with
    | none => rfl
    | some n =>
      -- the window ends where the skipped items begin
      have hlength : (items.rdrop s.skipped).length = items.length - s.skipped := by
        rw [List.rdrop, List.length_take, Nat.min_eq_left (Nat.sub_le _ _)]
      show _ = (items.rdrop s.skipped).rtake n.toNat
      rw [List.rtake, hlength, List.rdrop, List.drop_take]
      rfl
  · have hdrop : items.drop (min s.skipped items.length) = items.drop s.skipped :=
      List.drop_eq_drop_iff.mpr (by omega)
    cases s.limit with
    | none =>
      show (items.drop (min s.skipped items.length)).take
        (items.length - min s.skipped items.length) = items.drop s.skipped
      rw [hdrop, List.take_of_length_le]
      rw [List.length_drop]
      omega
    | some n =>
      show (items.drop (min s.skipped items.length)).take
        (min (min s.skipped items.length + n.toNat) items.length - min s.skipped items.length) =
          (items.drop s.skipped).take n.toNat
      rw [hdrop, List.take_eq_take_iff, List.length_drop]
      omega

/-! ## 2. A window and the steps before and after it -/

/-- A window goes by places, so items that correspond are kept together. -/
theorem forall₂_cut {R : α → β → Prop} {xs : List α} {ys : List β} (s : Slice)
    (h : List.Forall₂ R xs ys) : List.Forall₂ R (s.cut xs) (s.cut ys) := by
  unfold cut
  rw [h.length_eq]
  exact List.forall₂_take _ (List.forall₂_drop _ h)

end Slice

/-- **A step that succeeds for all items makes of the window the window of its results.** -/
theorem mapM_cut {f : α → Except ε β} {xs : List α} {ys : List β} (s : Slice)
    (h : xs.mapM f = .ok ys) : (s.cut xs).mapM f = .ok (s.cut ys) :=
  mapM_eq_ok_iff.mpr (s.forall₂_cut (mapM_eq_ok_iff.mp h))

theorem Slice.cut_map (s : Slice) (f : α → β) (xs : List α) :
    s.cut (xs.map f) = (s.cut xs).map f := by
  unfold Slice.cut
  rw [List.length_map, List.map_take, List.map_drop]

theorem sortItems_map (key : β → String → Value) (order : List OrderKey) (f : α → β)
    (items : List α) :
    sortItems key order (items.map f) = (sortItems (fun item => key (f item)) order items).map f :=
  Sorting.stable_map f _ items

theorem sortSettled_map (key : β → String → Value) (order : List OrderKey) (f : α → β)
    (items : List α) :
    sortSettled key order (items.map f) =
      (sortSettled (fun item => key (f item)) order items).map (List.map f) := by
  have hsettled : isSettled key order (items.map f) =
      isSettled (fun item => key (f item)) order items := Sorting.settled_map f _ items
  rw [sortSettled, sortSettled, hsettled, sortItems_map]
  split <;> rfl

/-- The images are arranged as the items are by the keys of their images. -/
theorem arrange_map (key : β → String → Value) (order : List OrderKey) (s : Slice) (f : α → β)
    (items : List α) :
    arrange key order s (items.map f) =
      (arrange (fun item => key (f item)) order s items).map (List.map f) := by
  rw [arrange, arrange, arrangeBy, arrangeBy, sortSettled_map]
  cases s.check order with
  | error err => rfl
  | ok =>
    cases sortSettled (fun item => key (f item)) order items with
    | error err => rfl
    | ok sorted =>
      show Except.ok (s.cut _) = Except.ok ((s.cut _).map f)
      rw [List.filter_map, Slice.cut_map]
      rfl

theorem Slice.check_unlimited (order : List OrderKey) (s : Slice) :
    s.unlimited.check order = s.check order := rfl

/-- **The counts take their window of what the anchors leave**, whatever order the items are in. -/
theorem arrangeBy_eq_map_cut (key : α → String → Value)
    (sort : List α → Except QueryError (List α)) (order : List OrderKey) (s : Slice)
    (items : List α) :
    arrangeBy key sort order s items = (arrangeBy key sort order s.unlimited items).map s.cut := by
  rw [arrangeBy, arrangeBy, s.check_unlimited]
  cases s.check order with
  | error err => rfl
  | ok =>
    cases sort items with
    | error err => rfl
    | ok sorted =>
      show Except.ok _ = Except.ok (s.cut (s.unlimited.cut _))
      rw [Slice.cut_of_unlimited (s := s.unlimited) rfl rfl]
      rfl

theorem arrange_eq_map_cut (key : α → String → Value) (order : List OrderKey) (s : Slice)
    (items : List α) :
    arrange key order s items = (arrange key order s.unlimited items).map s.cut :=
  arrangeBy_eq_map_cut key _ order s items

end GraphQuery
