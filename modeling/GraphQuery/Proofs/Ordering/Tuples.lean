/-
# The order of tuples

`Precedes` says what it means that one tuple of key values comes before another, and `Tied` that no
key tells them apart; neither mentions the comparison that is run.  `compareTuples` decides both
(`compareTuples_eq_lt_iff`, `compareTuples_eq_eq_iff`).

An anchor gives only the values of the leading keys, and `compareTuples` stops where the shorter
tuple ends.  Such a comparison is no order of its own, but it goes along with that of the full
tuples: **`compareTuples_trans`** asks only the tuple in the middle to be full.
-/
import GraphQuery.Proofs.Value.Order
import GraphQuery.Rows.Arrangement

namespace GraphQuery

open Sorting (PreorderOn)

/-! ## 1. Which tuple comes first -/

/-- The first key that tells the tuples apart puts the first one before the second, in the direction
of that key. -/
inductive Precedes : List OrderKey → List Value → List Value → Prop
  | head {k : OrderKey} {keys : List OrderKey} {a b : Value} {as bs : List Value}
      (h : k.direction.orient (a.cmp b) = .lt) : Precedes (k :: keys) (a :: as) (b :: bs)
  | tail {k : OrderKey} {keys : List OrderKey} {a b : Value} {as bs : List Value}
      (h : a.cmp b = .eq) (hrest : Precedes keys as bs) : Precedes (k :: keys) (a :: as) (b :: bs)

/-- No key tells the tuples apart, as far as both go. -/
def Tied : List OrderKey → List Value → List Value → Prop
  | _ :: keys, a :: as, b :: bs => a.cmp b = .eq ∧ Tied keys as bs
  | _, _, _ => True

theorem Direction.orient_swap (d : Direction) (o : Ordering) :
    d.orient o.swap = (d.orient o).swap := by
  cases d <;> rfl

theorem Direction.orient_eq_eq_iff {d : Direction} {o : Ordering} : d.orient o = .eq ↔ o = .eq := by
  cases d <;> cases o <;> simp [Direction.orient]

theorem Direction.orient_eq_iff {d : Direction} {o o' : Ordering} :
    d.orient o = o' ↔ o = d.orient o' := by
  cases d <;> cases o <;> cases o' <;> decide

theorem compareTuples_eq_lt_iff {order : List OrderKey} {s t : List Value} :
    compareTuples order s t = .lt ↔ Precedes order s t := by
  constructor
  · intro h
    induction order generalizing s t with
    | nil => simp [compareTuples] at h
    | cons k keys ih =>
      match s, t with
      | [], _ => simp [compareTuples] at h
      | _ :: _, [] => simp [compareTuples] at h
      | a :: as, b :: bs =>
        rw [compareTuples, Ordering.then_eq_lt, Direction.orient_eq_eq_iff] at h
        rcases h with h | ⟨heq, hrest⟩
        · exact .head h
        · exact .tail heq (ih hrest)
  · intro h
    induction h with
    | head h => rw [compareTuples, h]; rfl
    | tail h _ ih => rw [compareTuples, h, Direction.orient_eq_eq_iff.mpr rfl]; exact ih

theorem compareTuples_eq_eq_iff {order : List OrderKey} {s t : List Value} :
    compareTuples order s t = .eq ↔ Tied order s t := by
  induction order generalizing s t with
  | nil => simp [compareTuples, Tied]
  | cons k keys ih =>
    match s, t with
    | [], _ => simp [compareTuples, Tied]
    | _ :: _, [] => simp [compareTuples, Tied]
    | a :: as, b :: bs =>
      rw [compareTuples, Ordering.then_eq_eq, Direction.orient_eq_eq_iff, Tied, ih]

theorem compareTuples_swap (order : List OrderKey) (s t : List Value) :
    compareTuples order t s = (compareTuples order s t).swap := by
  induction order generalizing s t with
  | nil => rfl
  | cons k keys ih =>
    match s, t with
    | [], [] => rfl
    | [], _ :: _ => rfl
    | _ :: _, [] => rfl
    | a :: as, b :: bs =>
      rw [compareTuples, compareTuples, Value.cmp_swap a b, Direction.orient_swap, ih as bs,
        Ordering.swap_then]

theorem compareTuples_eq_gt_iff {order : List OrderKey} {s t : List Value} :
    compareTuples order s t = .gt ↔ Precedes order t s := by
  rw [← compareTuples_eq_lt_iff, compareTuples_swap order s t, Ordering.swap_eq_lt]

instance (order : List OrderKey) (s t : List Value) : Decidable (Precedes order s t) :=
  decidable_of_iff _ compareTuples_eq_lt_iff

instance (order : List OrderKey) (s t : List Value) : Decidable (Tied order s t) :=
  decidable_of_iff _ compareTuples_eq_eq_iff

/-! ## 2. Leading parts of tuples -/

/-- Only as much of a tuple counts as the other one has. -/
theorem compareTuples_take {n : Nat} (order : List OrderKey) {s t : List Value}
    (h : t.length ≤ n) : compareTuples order (s.take n) t = compareTuples order s t := by
  induction order generalizing s t n with
  | nil => rfl
  | cons k keys ih =>
    match s, t, n with
    | [], _, _ => rw [List.take_nil]
    | _ :: _, [], 0 => rfl
    | _ :: _, [], _ + 1 => rfl
    | a :: as, b :: bs, n + 1 =>
      rw [List.take_succ_cons, compareTuples, compareTuples, ih (Nat.le_of_succ_le_succ h)]

/-! ## 3. Transitivity -/

/-- The values of a tuple belong to the sets that go with its keys. -/
def TupleIn (S : String → Value → Prop) : List OrderKey → List Value → Prop
  | k :: keys, a :: as => S k.field a ∧ TupleIn S keys as
  | _, _ => True

theorem Direction.preorderOn {S : Value → Prop} (d : Direction) (h : Value.PreorderedOn S) :
    PreorderOn S fun a b => d.orient (a.cmp b) where
  swap _ _ := by rw [Value.cmp_swap, Direction.orient_swap]
  trans {a b c} ha hb hc hab hbc := by
    have hcmp := h.preorderOn
    cases d with
    | asc => exact hcmp.trans ha hb hc hab hbc
    | desc =>
      simp only [Direction.orient] at hab hbc ⊢
      rw [← Value.cmp_swap] at hab hbc ⊢
      exact hcmp.trans hc hb ha hbc hab

theorem then_ne_gt_iff {o o' : Ordering} :
    o.then o' ≠ .gt ↔ o = .lt ∨ (o = .eq ∧ o' ≠ .gt) := by
  cases o <;> simp

/-- **Comparison is transitive across a full tuple.** -/
theorem compareTuples_trans {S : String → Value → Prop} {order : List OrderKey}
    (hS : ∀ k ∈ order, Value.PreorderedOn (S k.field)) {s t u : List Value}
    (hs : TupleIn S order s) (ht : TupleIn S order t) (hu : TupleIn S order u)
    (hfull : order.length ≤ t.length) (hst : compareTuples order s t ≠ .gt)
    (htu : compareTuples order t u ≠ .gt) : compareTuples order s u ≠ .gt := by
  induction order generalizing s t u with
  | nil => simp [compareTuples]
  | cons k keys ih =>
    match s, t, u with
    | [], _, _ => simp [compareTuples]
    | _ :: _, _, [] => simp [compareTuples]
    | _ :: _, [], _ => simp at hfull
    | a :: as, b :: bs, c :: cs =>
      obtain ⟨ha, has⟩ := hs
      obtain ⟨hb, hbs⟩ := ht
      obtain ⟨hc, hcs⟩ := hu
      have hk := k.direction.preorderOn (hS k List.mem_cons_self)
      rw [compareTuples, then_ne_gt_iff] at hst htu ⊢
      rcases hst with hab | ⟨hab, hrest⟩
      · have hbc : k.direction.orient (b.cmp c) ≠ .gt := by
          rcases htu with h | ⟨h, -⟩ <;> simp [h]
        exact Or.inl (hk.lt_of_lt_of_ne_gt ha hb hc hab hbc)
      · have hac := hk.congr_left ha hb hc hab
        rcases htu with hbc | ⟨hbc, hrest'⟩
        · exact Or.inl (hac.trans hbc)
        · exact Or.inr ⟨hac.trans hbc, ih (fun k' hk' => hS k' (List.mem_cons_of_mem _ hk')) has hbs
            hcs (Nat.le_of_succ_le_succ hfull) hrest hrest'⟩

end GraphQuery
