/-
# Stable sorting

`Sorting.stable` is defined for any comparison.  On a list that the comparison preorders it is the
stable sort:

* **`stable_pairwise`**: no item is greater than one behind it;
* **`stable_filter`**: among items that tie, the order is that of the input.

With `stable_perm` this determines the result.  Each of the two is kept by one insertion, and then
by the loop over the input.  While the loop runs, the list goes from the greatest item to the least
and items that tie stand in reverse.

Of more than a few items the result is settled just if the comparison preorders them
(**`settled_iff`**): a preorder compares items as their ranks compare, and what goes by ranks is a
preorder.
-/
import GraphQuery.Proofs.Value.Order
import GraphQuery.Sorting
import Mathlib.Data.List.Count

namespace GraphQuery.Sorting

variable {α : Type} {S : α → Prop} {cmp : α → α → Ordering}

/-! ## 1. One insertion -/

theorem mem_insertDescending {x y : α} {ys : List α} :
    y ∈ insertDescending cmp x ys ↔ y = x ∨ y ∈ ys := by
  rw [(insertDescending_perm cmp x ys).mem_iff, List.mem_cons]

/-- Insertion keeps a list that goes from the greatest item to the least. -/
theorem insertDescending_pairwise (h : PreorderOn S cmp) {x : α} {ys : List α} (hx : S x)
    (hys : ∀ y ∈ ys, S y) (hsorted : ys.Pairwise fun y z => cmp z y ≠ .gt) :
    (insertDescending cmp x ys).Pairwise fun y z => cmp z y ≠ .gt := by
  induction ys with
  | nil => exact List.pairwise_singleton _ _
  | cons y rest ih =>
    have hy : S y := hys y List.mem_cons_self
    have hrest : ∀ z ∈ rest, S z := fun z hz => hys z (List.mem_cons_of_mem _ hz)
    obtain ⟨hfirst, htail⟩ := List.pairwise_cons.mp hsorted
    unfold insertDescending
    split
    · next hlt =>
      refine List.pairwise_cons.mpr ⟨fun z hz => ?_, ih hrest htail⟩
      rcases mem_insertDescending.mp hz with rfl | hz
      · simp [hlt]
      · exact hfirst z hz
    · next hnlt =>
      have hyx : cmp y x ≠ .gt := (h.ne_gt_iff hy hx).mpr hnlt
      refine List.pairwise_cons.mpr ⟨fun z hz => ?_, hsorted⟩
      rcases List.mem_cons.mp hz with rfl | hz
      · exact hyx
      · exact h.trans (hrest z hz) hy hx (hfirst z hz) hyx

/-- An item goes in front of those that it ties with.  An item that it goes behind is greater, and
so ties with nothing that ties with the inserted one. -/
theorem insertDescending_filter (h : PreorderOn S cmp) {w x : α} {ys : List α} (hw : S w)
    (hx : S x) (hys : ∀ y ∈ ys, S y) :
    (insertDescending cmp x ys).filter (fun y => cmp w y == .eq) =
      ([x].filter fun y => cmp w y == .eq) ++ ys.filter fun y => cmp w y == .eq := by
  induction ys with
  | nil => rw [insertDescending, List.filter_nil, List.append_nil]
  | cons y rest ih =>
    have hy : S y := hys y List.mem_cons_self
    have ih := ih fun z hz => hys z (List.mem_cons_of_mem _ hz)
    unfold insertDescending
    split
    · next hlt =>
      by_cases hwx : cmp w x = .eq
      · have hwy : cmp w y = .lt := (h.congr_left hw hx hy hwx).trans hlt
        simp [ih, hwx, hwy]
      · simp [List.filter_cons, ih, hwx]
    · rw [← List.filter_append, List.singleton_append]

/-! ## 2. The loop -/

/-- The list after some more insertions. -/
def insertAll (cmp : α → α → Ordering) (sorted xs : List α) : List α :=
  xs.foldl (fun sorted x => insertDescending cmp x sorted) sorted

theorem stable_eq (xs : List α) : stable cmp xs = (insertAll cmp [] xs).reverse := rfl

theorem insertAll_pairwise (h : PreorderOn S cmp) {sorted xs : List α} (hxs : ∀ x ∈ xs, S x)
    (hacc : ∀ y ∈ sorted, S y) (hsorted : sorted.Pairwise fun y z => cmp z y ≠ .gt) :
    (insertAll cmp sorted xs).Pairwise fun y z => cmp z y ≠ .gt := by
  induction xs generalizing sorted with
  | nil => exact hsorted
  | cons x rest ih =>
    have hx : S x := hxs x List.mem_cons_self
    refine ih (fun z hz => hxs z (List.mem_cons_of_mem _ hz)) (fun y hy => ?_)
      (insertDescending_pairwise h hx hacc hsorted)
    rcases mem_insertDescending.mp hy with rfl | hy
    · exact hx
    · exact hacc y hy

theorem insertAll_filter (h : PreorderOn S cmp) {w : α} {sorted xs : List α} (hw : S w)
    (hxs : ∀ x ∈ xs, S x) (hacc : ∀ y ∈ sorted, S y) :
    (insertAll cmp sorted xs).filter (fun y => cmp w y == .eq) =
      (xs.filter fun y => cmp w y == .eq).reverse ++
        sorted.filter fun y => cmp w y == .eq := by
  induction xs generalizing sorted with
  | nil => simp [insertAll]
  | cons x rest ih =>
    have hx : S x := hxs x List.mem_cons_self
    have hnext : ∀ y ∈ insertDescending cmp x sorted, S y := by
      intro y hy
      rcases mem_insertDescending.mp hy with rfl | hy
      · exact hx
      · exact hacc y hy
    have hloop : insertAll cmp sorted (x :: rest) =
        insertAll cmp (insertDescending cmp x sorted) rest := rfl
    rw [hloop, ih (fun z hz => hxs z (List.mem_cons_of_mem _ hz)) hnext,
      insertDescending_filter h hw hx hacc]
    by_cases hwx : cmp w x = .eq
    · simp [hwx]
    · simp [hwx]

/-! ## 3. The result -/

/-- **The result is sorted.** -/
theorem stable_pairwise {xs : List α} (h : PreorderOn (· ∈ xs) cmp) :
    (stable cmp xs).Pairwise fun x y => cmp x y ≠ .gt := by
  rw [stable_eq, List.pairwise_reverse]
  exact insertAll_pairwise h (fun _ hx => hx) (by simp) List.Pairwise.nil

/-- **Items that tie keep their order.** -/
theorem stable_filter {xs : List α} (h : PreorderOn (· ∈ xs) cmp) {w : α} (hw : w ∈ xs) :
    (stable cmp xs).filter (fun y => cmp w y == .eq) = xs.filter fun y => cmp w y == .eq := by
  rw [stable_eq, List.filter_reverse, insertAll_filter h hw (fun _ hx => hx) (by simp)]
  simp

/-! ## 4. Sorting what a function makes of items -/

variable {β : Type} (f : α → β) (cmp : β → β → Ordering)

theorem insertDescending_map (x : α) (ys : List α) :
    insertDescending cmp (f x) (ys.map f) =
      (insertDescending (fun a b => cmp (f a) (f b)) x ys).map f := by
  induction ys with
  | nil => rfl
  | cons y rest ih =>
    rw [List.map_cons, insertDescending, insertDescending]
    split
    · rw [ih, List.map_cons]
    · rw [List.map_cons, List.map_cons]

/-- **The images are sorted as the items are by the comparison of their images.** -/
theorem stable_map (xs : List α) :
    stable cmp (xs.map f) = (stable (fun a b => cmp (f a) (f b)) xs).map f := by
  have hloop : ∀ sorted, insertAll cmp (sorted.map f) (xs.map f) =
      (insertAll (fun a b => cmp (f a) (f b)) sorted xs).map f := by
    induction xs with
    | nil => exact fun _ => rfl
    | cons x rest ih =>
      intro sorted
      have hstep := ih (insertDescending (fun a b => cmp (f a) (f b)) x sorted)
      rwa [← insertDescending_map] at hstep
  rw [stable_eq, stable_eq, List.map_reverse, ← hloop []]
  rfl

/-! ## 5. Settled results -/

theorem isConsistent_map (xs : List α) :
    isConsistent cmp (xs.map f) = isConsistent (fun a b => cmp (f a) (f b)) xs := by
  simp only [isConsistent, rank, List.countP_map, List.all_map, Function.comp_def, List.map_map]

theorem settled_map (xs : List α) :
    settled cmp (xs.map f) = settled (fun a b => cmp (f a) (f b)) xs := by
  rw [settled, settled, isConsistent_map, List.length_map]

variable {cmp : α → α → Ordering} {xs : List α} {x y : α}

theorem isConsistent_iff :
    isConsistent cmp xs = true ↔
      ∀ x ∈ xs, ∀ y ∈ xs, cmp x y = compare (rank cmp xs x) (rank cmp xs y) := by
  simp [isConsistent]

/-- An item has a lower rank than one that it is less than, by that one itself. -/
theorem rank_lt_rank (h : PreorderOn (· ∈ xs) cmp) (hx : x ∈ xs) (hy : y ∈ xs)
    (hxy : cmp x y = .lt) : rank cmp xs x < rank cmp xs y := by
  have hbelow : ∀ z ∈ xs, cmp z x = .lt → cmp z y = .lt := fun z hz hzx =>
    h.lt_of_lt_of_ne_gt hz hx hy hzx (by simp [hxy])
  have hsub : rank cmp xs x = (xs.filter fun z => cmp z y == .lt).countP fun z => cmp z x == .lt := by
    rw [List.countP_filter, rank]
    refine List.countP_congr fun z hz => ?_
    simpa using fun hzx => hbelow z hz hzx
  have hall : rank cmp xs y = (xs.filter fun z => cmp z y == .lt).length :=
    List.countP_eq_length_filter
  have hself : cmp x x = .eq := h.refl hx
  rw [hsub, hall, List.countP_lt_length_iff]
  exact ⟨x, List.mem_filter.mpr ⟨hx, by simp [hxy]⟩, by simp [hself]⟩

theorem rank_eq_rank (h : PreorderOn (· ∈ xs) cmp) (hx : x ∈ xs) (hy : y ∈ xs)
    (hxy : cmp x y = .eq) : rank cmp xs x = rank cmp xs y := by
  refine List.countP_congr fun z hz => ?_
  rw [h.swap hz hx, h.swap hz hy, h.congr_left hx hy hz hxy]

/-- **A preorder goes by ranks.** -/
theorem cmp_eq_compare_rank (h : PreorderOn (· ∈ xs) cmp) (hx : x ∈ xs) (hy : y ∈ xs) :
    cmp x y = compare (rank cmp xs x) (rank cmp xs y) := by
  cases hxy : cmp x y with
  | lt => exact (Nat.compare_eq_lt.mpr (rank_lt_rank h hx hy hxy)).symm
  | eq => exact (Nat.compare_eq_eq.mpr (rank_eq_rank h hx hy hxy)).symm
  | gt =>
    have hyx : cmp y x = .lt := by rw [h.swap hy hx, hxy, Ordering.swap_gt]
    exact (Nat.compare_eq_gt.mpr (rank_lt_rank h hy hx hyx)).symm

/-- **When the result of a sort is settled**: there are few items, or they are preordered. -/
theorem settled_iff :
    settled cmp xs = true ↔ xs.length ≤ insertionLimit ∨ PreorderOn (· ∈ xs) cmp := by
  have hconsistent : isConsistent cmp xs = true ↔ PreorderOn (· ∈ xs) cmp := by
    rw [isConsistent_iff]
    constructor
    · intro hranks
      refine ⟨fun hx hy => ?_, fun hx hy hz => ?_⟩
      · rw [hranks _ hx _ hy, hranks _ hy _ hx, Nat.compare_swap]
      · rw [hranks _ hx _ hy, hranks _ hy _ hz, hranks _ hx _ hz]
        simp only [ne_eq, Nat.compare_eq_gt, Nat.not_lt]
        exact Nat.le_trans
    · exact fun h x hx y hy => cmp_eq_compare_rank h hx hy
  rw [settled, Bool.or_eq_true, decide_eq_true_iff, hconsistent]

theorem settled_of_preorderOn (h : PreorderOn (· ∈ xs) cmp) : settled cmp xs = true :=
  settled_iff.mpr (Or.inr h)

end GraphQuery.Sorting
