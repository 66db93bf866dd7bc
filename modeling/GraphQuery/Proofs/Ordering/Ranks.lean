/-
# Ranks in a preorder

Two ways to pick an item of a list by its place in the order.

One pass that keeps the lesser of two items, and the earlier one if they tie, comes out at the first
of the least items (**`firstLeast_foldl`**): those before it are greater, and none behind it is
less.

In a sorted list, the items less than the one at a place stand before that place, and the greater
ones behind it.  So a place bounds how many there are (**`countP_getElem_le`**), and sorted lists of
the same items tie place by place (**`cmp_getElem_eq`**): there are too many items up to a place for
the other list to have a greater item there.
-/
import GraphQuery.Proofs.Value.Order
import Mathlib.Data.List.Induction

namespace GraphQuery.Sorting

variable {α : Type} {S : α → Prop} {cmp : α → α → Ordering} {x m m' : α}
  {xs ys before after : List α}

/-! ## 1. The first of the least items -/

/-- The item kept so far gives way only to a lesser one. -/
def keepLesser (cmp : α → α → Ordering) (kept x : α) : α := if cmp x kept = .lt then x else kept

/-- The items before it are greater, and none behind it is less. -/
def FirstLeast (cmp : α → α → Ordering) (xs : List α) (m : α) : Prop :=
  ∃ before after, xs = before ++ m :: after ∧
    (∀ x ∈ before, cmp m x = .lt) ∧ ∀ x ∈ after, cmp m x ≠ .gt

theorem FirstLeast.mem (hm : FirstLeast cmp xs m) : m ∈ xs := by
  obtain ⟨before, after, rfl, -, -⟩ := hm
  exact List.mem_append_right _ List.mem_cons_self

theorem FirstLeast.ne_gt (h : PreorderOn S cmp) (hS : ∀ x ∈ xs, S x) (hm : FirstLeast cmp xs m)
    (hx : x ∈ xs) : cmp m x ≠ .gt := by
  have hself : cmp m m = .eq := h.refl (hS m hm.mem)
  obtain ⟨before, after, rfl, hbefore, hafter⟩ := hm
  rcases List.mem_append.mp hx with hx | hx
  · simp [hbefore x hx]
  · rcases List.mem_cons.mp hx with rfl | hx
    · simp [hself]
    · exact hafter x hx

/-- It is the first item that is not greater than any. -/
theorem FirstLeast.find?_eq (h : PreorderOn S cmp) (hS : ∀ x ∈ xs, S x) (hm : FirstLeast cmp xs m) :
    xs.find? (fun x => decide (∀ y ∈ xs, cmp x y ≠ .gt)) = some m := by
  rw [List.find?_eq_some_iff_append]
  refine ⟨decide_eq_true fun x hx => hm.ne_gt h hS hx, ?_⟩
  have hmem := hm.mem
  obtain ⟨before, after, hxs, hbefore, -⟩ := hm
  refine ⟨before, after, hxs, fun x hx => ?_⟩
  have hSx : S x := hS x (hxs ▸ List.mem_append_left _ hx)
  rw [Bool.not_eq_true', decide_eq_false_iff_not]
  intro hleast
  exact (h.ne_gt_iff hSx (hS m hmem)).mp (hleast m hmem) (hbefore x hx)

/-- One more item: if it is less than the one kept, it is less than all. -/
theorem FirstLeast.snoc (h : PreorderOn S cmp) (hS : ∀ y ∈ xs, S y) (hx : S x)
    (hm : FirstLeast cmp xs m) : FirstLeast cmp (xs ++ [x]) (keepLesser cmp m x) := by
  have hSm : S m := hS m hm.mem
  unfold keepLesser
  split
  · next hlt =>
    refine ⟨xs, [], rfl, fun y hy => ?_, fun _ hy => absurd hy List.not_mem_nil⟩
    exact h.lt_of_lt_of_ne_gt hx hSm (hS y hy) hlt (hm.ne_gt h hS hy)
  · next hnlt =>
    obtain ⟨before, after, rfl, hbefore, hafter⟩ := hm
    refine ⟨before, after ++ [x], by simp, hbefore, fun y hy => ?_⟩
    rcases List.mem_append.mp hy with hy | hy
    · exact hafter y hy
    · rw [List.mem_singleton.mp hy]
      exact (h.ne_gt_iff hSm hx).mpr hnlt

/-- **One pass comes out at the first of the least items.** -/
theorem firstLeast_foldl (h : PreorderOn S cmp) {first : α} {rest : List α}
    (hS : ∀ y ∈ first :: rest, S y) :
    FirstLeast cmp (first :: rest) (rest.foldl (keepLesser cmp) first) := by
  induction rest using List.reverseRecOn with
  | nil =>
    exact ⟨[], [], rfl, fun _ hy => absurd hy List.not_mem_nil,
      fun _ hy => absurd hy List.not_mem_nil⟩
  | append_singleton rest x ih =>
    rw [← List.cons_append] at hS ⊢
    rw [List.foldl_append, List.foldl_cons, List.foldl_nil]
    exact (ih fun y hy => hS y (List.mem_append_left _ hy)).snoc h
      (fun y hy => hS y (List.mem_append_left _ hy)) (hS x (by simp))

/-! ## 2. Places in sorted lists -/

theorem countP_le_left {p : α → Bool} (hp : ∀ x ∈ after, ¬p x) :
    (before ++ after).countP p ≤ before.length := by
  rw [List.countP_append, List.countP_eq_zero.mpr hp]
  exact List.countP_le_length

theorem countP_le_right {p : α → Bool} (hp : ∀ x ∈ before, ¬p x) :
    (before ++ after).countP p ≤ after.length := by
  rw [List.countP_append, List.countP_eq_zero.mpr hp, Nat.zero_add]
  exact List.countP_le_length

/-- Up to an item of a sorted list nothing is greater, and from it on nothing is less. -/
theorem ne_gt_of_cut (h : PreorderOn S cmp) (hS : ∀ x ∈ before ++ m :: after, S x)
    (hsorted : (before ++ m :: after).Pairwise fun x y => cmp x y ≠ .gt) :
    (∀ x ∈ before ++ [m], cmp x m ≠ .gt) ∧ ∀ x ∈ m :: after, cmp m x ≠ .gt := by
  have hself : cmp m m ≠ .gt := by simp [h.refl (hS m (by simp))]
  obtain ⟨-, hrest, hacross⟩ := List.pairwise_append.mp hsorted
  refine ⟨fun x hx => ?_, List.forall_mem_cons.mpr ⟨hself, (List.pairwise_cons.mp hrest).1⟩⟩
  rcases List.mem_append.mp hx with hx | hx
  · exact hacross x hx m List.mem_cons_self
  · exact List.mem_singleton.mp hx ▸ hself

/-- The items less than one stand before it. -/
theorem countP_lt_le (h : PreorderOn S cmp) (hS : ∀ x ∈ before ++ m :: after, S x)
    (hsorted : (before ++ m :: after).Pairwise fun x y => cmp x y ≠ .gt) :
    (before ++ m :: after).countP (fun x => cmp x m == .lt) ≤ before.length := by
  refine countP_le_left fun x hx => ?_
  rw [beq_iff_eq, ← ne_eq, ← h.ne_gt_iff (hS m (by simp)) (hS x (List.mem_append_right _ hx))]
  exact (ne_gt_of_cut h hS hsorted).2 x hx

/-- The items greater than one stand behind it. -/
theorem countP_gt_le (h : PreorderOn S cmp) (hS : ∀ x ∈ before ++ m :: after, S x)
    (hsorted : (before ++ m :: after).Pairwise fun x y => cmp x y ≠ .gt) :
    (before ++ m :: after).countP (fun x => cmp x m == .gt) ≤ after.length := by
  have hupto := (ne_gt_of_cut h hS hsorted).1
  rw [List.append_cons]
  exact countP_le_right fun x hx => by simpa using hupto x hx

/-- **A place in a sorted list bounds how many items are less and greater.** -/
theorem countP_getElem_le (h : PreorderOn S cmp) (hS : ∀ x ∈ xs, S x)
    (hsorted : xs.Pairwise fun x y => cmp x y ≠ .gt) {i : Nat} (hi : i < xs.length) :
    xs.countP (fun x => cmp x xs[i] == .lt) ≤ i ∧
      xs.countP (fun x => cmp x xs[i] == .gt) ≤ xs.length - (i + 1) := by
  have hcut : xs.take i ++ xs[i] :: xs.drop (i + 1) = xs := by simp
  rw [← hcut] at hS hsorted
  have hless := countP_lt_le h hS hsorted
  have hgreater := countP_gt_le h hS hsorted
  rw [hcut, List.length_take, Nat.min_eq_left (Nat.le_of_lt hi)] at hless
  rw [hcut, List.length_drop] at hgreater
  exact ⟨hless, hgreater⟩

/-- Cut where as many items stand before, sorted lists of the same items do not have a lesser item
here than there. -/
theorem ne_lt_of_cut (h : PreorderOn S cmp) {before' after' : List α}
    (hS : ∀ x ∈ before ++ m :: after, S x)
    (hsorted : (before ++ m :: after).Pairwise fun x y => cmp x y ≠ .gt)
    (hsorted' : (before' ++ m' :: after').Pairwise fun x y => cmp x y ≠ .gt)
    (hperm : (before ++ m :: after).Perm (before' ++ m' :: after'))
    (hlength : before.length = before'.length) : cmp m m' ≠ .lt := by
  intro hlt
  have hS' : ∀ x ∈ before' ++ m' :: after', S x := fun x hx => hS x (hperm.mem_iff.mpr hx)
  have hm : S m := hS m (by simp)
  have hm' : S m' := hS' m' (by simp)
  -- here the items up to `m` are not greater than it
  have hhere : before.length + 1 ≤ (before ++ m :: after).countP fun x => cmp x m != .gt := by
    have hall : ∀ x ∈ before ++ [m], (cmp x m != .gt) = true :=
      fun x hx => bne_iff_ne.mpr ((ne_gt_of_cut h hS hsorted).1 x hx)
    rw [List.append_cons, List.countP_append, List.countP_eq_length.mpr hall, List.length_append]
    exact Nat.le_add_right _ _
  -- there the items from `m'` on are greater than `m`
  have hthere : (before' ++ m' :: after').countP (fun x => cmp x m != .gt) ≤ before'.length := by
    refine countP_le_left fun x hx => ?_
    have hx' : S x := hS' x (List.mem_append_right _ hx)
    rw [bne_iff_ne, h.ne_gt_iff hx' hm, not_not]
    exact h.lt_of_lt_of_ne_gt hm hm' hx' hlt ((ne_gt_of_cut h hS' hsorted').2 x hx)
  rw [hperm.countP_eq] at hhere
  omega

/-- **Sorted lists of the same items tie place by place.** -/
theorem cmp_getElem_eq (h : PreorderOn S cmp) (hS : ∀ x ∈ xs, S x)
    (hxs : xs.Pairwise fun x y => cmp x y ≠ .gt) (hys : ys.Pairwise fun x y => cmp x y ≠ .gt)
    (hperm : xs.Perm ys) {i : Nat} (hi : i < xs.length) (hi' : i < ys.length) :
    cmp xs[i] ys[i] = .eq := by
  have hx : S xs[i] := hS _ (List.getElem_mem hi)
  have hy : S ys[i] := hS _ (hperm.mem_iff.mpr (List.getElem_mem hi'))
  have hcut : xs.take i ++ xs[i] :: xs.drop (i + 1) = xs := by simp
  have hcut' : ys.take i ++ ys[i] :: ys.drop (i + 1) = ys := by simp
  have hlength : (xs.take i).length = (ys.take i).length := by
    rw [List.length_take, List.length_take, hperm.length_eq]
  rw [← hcut] at hxs hperm hS
  rw [← hcut'] at hys hperm
  have hS' : ∀ y ∈ ys.take i ++ ys[i] :: ys.drop (i + 1), S y :=
    fun y hy => hS y (hperm.mem_iff.mpr hy)
  have hxy := ne_lt_of_cut h hS hxs hys hperm hlength
  have hyx := ne_lt_of_cut h hS' hys hxs hperm.symm hlength.symm
  exact h.eq_of_ne_gt hx hy ((h.ne_gt_iff hx hy).mpr hyx) ((h.ne_gt_iff hy hx).mpr hxy)

end GraphQuery.Sorting
