/-
# The order of values

`Value.cmp` compares any two values, and turning the comparison round swaps its answer
(**`cmp_swap`**): of two values one is at most the other, and a value ties with itself.  So only
transitivity separates the comparison from a total preorder.  It does not hold throughout, since
whole numbers are rounded where they meet floating point numbers; `PreorderedOn` says of a set of
values that it holds there.

The general notion is `Sorting.PreorderOn`: a comparison that is a total preorder on a set.  The
lemmas about it are those that sorting and anchors ask for.
-/
import GraphQuery.Value.Comparison
import Mathlib.Data.Ordering.Basic

namespace GraphQuery

/-! ## 1. Comparisons that preorder a set -/

/-- On the set, the comparison is a total preorder. -/
structure Sorting.PreorderOn {α : Type} (S : α → Prop) (cmp : α → α → Ordering) : Prop where
  swap : ∀ {a b}, S a → S b → cmp a b = (cmp b a).swap
  trans : ∀ {a b c}, S a → S b → S c → cmp a b ≠ .gt → cmp b c ≠ .gt → cmp a c ≠ .gt

namespace Sorting.PreorderOn

variable {α : Type} {S : α → Prop} {cmp : α → α → Ordering} {a b c : α}

theorem refl (h : PreorderOn S cmp) (ha : S a) : cmp a a = .eq := by
  have hswap := h.swap ha ha
  cases hcmp : cmp a a <;> simp_all

theorem ne_gt_iff (h : PreorderOn S cmp) (ha : S a) (hb : S b) : cmp a b ≠ .gt ↔ cmp b a ≠ .lt := by
  rw [h.swap ha hb]
  cases cmp b a <;> simp

/-- Values that tie compare alike with any other. -/
theorem congr_left (h : PreorderOn S cmp) (ha : S a) (hb : S b) (hc : S c) (hab : cmp a b = .eq) :
    cmp a c = cmp b c := by
  have hle : cmp a b ≠ .gt := by simp [hab]
  have hge : cmp b a ≠ .gt := by simp [h.swap hb ha, hab]
  have hgt : cmp a c ≠ .gt ↔ cmp b c ≠ .gt :=
    ⟨h.trans hb ha hc hge, h.trans ha hb hc hle⟩
  have hlt : cmp a c ≠ .lt ↔ cmp b c ≠ .lt := by
    rw [← h.ne_gt_iff hc ha, ← h.ne_gt_iff hc hb]
    exact ⟨fun hca => h.trans hc ha hb hca hle, fun hcb => h.trans hc hb ha hcb hge⟩
  cases hac : cmp a c <;> cases hbc : cmp b c <;> simp_all

theorem lt_of_lt_of_ne_gt (h : PreorderOn S cmp) (ha : S a) (hb : S b) (hc : S c)
    (hab : cmp a b = .lt) (hbc : cmp b c ≠ .gt) : cmp a c = .lt := by
  refine Decidable.byContradiction fun hac => ?_
  have hca : cmp c a ≠ .gt := (h.ne_gt_iff hc ha).mpr hac
  exact (h.ne_gt_iff hb ha).mp (h.trans hb hc ha hbc hca) hab

/-- Values of which neither is greater tie. -/
theorem eq_of_ne_gt (h : PreorderOn S cmp) (ha : S a) (hb : S b) (hab : cmp a b ≠ .gt)
    (hba : cmp b a ≠ .gt) : cmp a b = .eq := by
  have hlt := (h.ne_gt_iff hb ha).mp hba
  cases hcmp : cmp a b
  · exact absurd hcmp hlt
  · rfl
  · exact absurd hcmp hab

theorem mono {S' : α → Prop} (h : PreorderOn S cmp) (hsub : ∀ x, S' x → S x) : PreorderOn S' cmp :=
  ⟨fun ha hb => h.swap (hsub _ ha) (hsub _ hb),
    fun ha hb hc => h.trans (hsub _ ha) (hsub _ hb) (hsub _ hc)⟩

end Sorting.PreorderOn

/-! ## 2. Turning a comparison round -/

theorem compare_swap {α : Type} [Ord α] [Std.OrientedOrd α] (a b : α) :
    compare b a = (compare a b).swap :=
  Std.OrientedCmp.eq_swap

theorem Binary64.compare_swap (x y : Binary64) : y.compare x = (x.compare y).swap :=
  GraphQuery.compare_swap x.orderKey y.orderKey

namespace Value

theorem compareText_swap (a b : String) : compareText b a = (compareText a b).swap := by
  unfold compareText
  by_cases hab : a < b
  · have hne : b ≠ a := by
      rintro rfl
      exact String.lt_irrefl b hab
    rw [if_pos hab, if_neg (String.lt_asymm hab), if_neg hne]
    rfl
  · by_cases hba : b < a
    · have hne : a ≠ b := by
        rintro rfl
        exact hab hba
      rw [if_pos hba, if_neg hab, if_neg hne]
      rfl
    · have heq : a = b := String.le_antisymm (String.not_lt.mp hba) (String.not_lt.mp hab)
      subst heq
      rw [if_neg hab, if_pos rfl]
      rfl

mutual
/-- **Turning a comparison of values round swaps its answer.** -/
theorem cmp_swap : (a b : Value) → b.cmp a = (a.cmp b).swap
  | null, b => by cases b <;> rfl
  | bool a, b => by cases b <;> first | rfl | exact compare_swap _ _
  | int a, b => by cases b <;> first | rfl | exact compare_swap _ _
  | float a, b => by cases b <;> first | rfl | exact Binary64.compare_swap _ _
  | string a, b => by cases b <;> first | rfl | exact compareText_swap _ _
  | list a, b => by cases b <;> first | rfl | exact cmpItems_swap a _
  | map a, b => by cases b <;> first | rfl | exact cmpEntries_swap a _
theorem cmpItems_swap : (as bs : List Value) → cmpItems bs as = (cmpItems as bs).swap
  | [], bs => by cases bs <;> rfl
  | a :: as, bs => by
    cases bs with
    | nil => rfl
    | cons b bs =>
      rw [cmpItems, cmpItems, cmp_swap a b, cmpItems_swap as bs, Ordering.swap_then]
theorem cmpEntries_swap :
    (as bs : List (String × Value)) → cmpEntries bs as = (cmpEntries as bs).swap
  | [], bs => by cases bs <;> rfl
  | (k, a) :: as, bs => by
    cases bs with
    | nil => rfl
    | cons e bs =>
      obtain ⟨l, b⟩ := e
      rw [cmpEntries, cmpEntries, compareText_swap k l, cmp_swap a b, cmpEntries_swap as bs,
        Ordering.swap_then, Ordering.swap_then]
end

theorem cmp_self (v : Value) : v.cmp v = .eq := by
  have hswap := cmp_swap v v
  cases hcmp : v.cmp v <;> simp_all

/-! ## 3. Sets of values that are preordered -/

/-- On a set of values the comparison is transitive, and so a total preorder. -/
def PreorderedOn (S : Value → Prop) : Prop :=
  ∀ a b c, S a → S b → S c → a.cmp b ≠ .gt → b.cmp c ≠ .gt → a.cmp c ≠ .gt

theorem PreorderedOn.preorderOn {S : Value → Prop} (h : PreorderedOn S) :
    Sorting.PreorderOn S cmp :=
  ⟨fun _ _ => cmp_swap _ _, h _ _ _⟩

theorem PreorderedOn.perm {items items' : List Value} (h : PreorderedOn (· ∈ items))
    (hperm : items'.Perm items) : PreorderedOn (· ∈ items') := by
  simpa only [PreorderedOn, hperm.mem_iff] using h

end Value

end GraphQuery
