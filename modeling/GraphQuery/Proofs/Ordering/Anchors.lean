/-
# What a slice keeps of ordered items

`arrange` sorts by the full tuples of the items and then drops what does not lie between the
anchors, which give only leading parts of tuples.  Where the values that are compared are
preordered (`Preordered`), the result can be said without the algorithm:

* a slice without limit and offset keeps exactly the items that lie strictly between its anchors
  (`Slice.Between`), in order, and those that tie as they came;
* one anchor cuts the ordered items in three: those in front of it, those whose leading part ties
  with it, and those behind it.  No item is lost and none is there twice.

**`arrange_between_anchors`** states both.  The second part rests on `compareTuples_trans`: along a
sorted list, the comparison of leading parts with an anchor can only grow
(`pairwise_compare_anchor`).
-/
import GraphQuery.Proofs.Ordering.StableSort
import GraphQuery.Proofs.Ordering.Tuples
import GraphQuery.Proofs.Outcome
import GraphQuery.Rows.Grouping

namespace GraphQuery

open Sorting (PreorderOn)

/-! ## 1. Anchors that fit an order -/

/-- An anchor fits if it has entries, no more than sort keys, and its keys are all among the fields of
as many sort keys. -/
theorem checkAnchor_eq_ok_iff {order : List OrderKey} {a : Anchor} :
    checkAnchor order a = .ok () ↔
      1 ≤ a.length ∧ a.length ≤ order.length ∧ Keyed.keys a ⊆ leadingFields order a := by
  unfold checkAnchor
  split
  · next hlength =>
    simp only [Bool.or_eq_true, List.isEmpty_iff_length_eq_zero, decide_eq_true_eq] at hlength
    simp only [reduceCtorEq, false_iff]
    rintro ⟨hpos, hle, -⟩
    omega
  · next hlength =>
    simp only [Bool.or_eq_true, List.isEmpty_iff_length_eq_zero, decide_eq_true_eq] at hlength
    have hbounds : 1 ≤ a.length ∧ a.length ≤ order.length := by omega
    split
    · next key hfind =>
      have hmem := List.mem_of_find?_eq_some hfind
      have hout : key ∉ leadingFields order a := by simpa using List.find?_some hfind
      simp only [reduceCtorEq, false_iff]
      rintro ⟨-, -, hsub⟩
      exact hout (hsub hmem)
    · next hfind =>
      rw [List.find?_eq_none] at hfind
      refine ⟨fun _ => ⟨hbounds.1, hbounds.2, fun key hkey => ?_⟩, fun _ => rfl⟩
      simpa using hfind key hkey

theorem ne_nil_of_checkAnchor {order : List OrderKey} {a : Anchor}
    (h : checkAnchor order a = .ok ()) : order ≠ [] := by
  rintro rfl
  obtain ⟨hpos, hle, -⟩ := checkAnchor_eq_ok_iff.mp h
  exact absurd (Nat.le_trans hpos hle) (by simp)

namespace Slice

variable {order : List OrderKey} {s : Slice}

theorem hasAnchor_iff : s.hasAnchor = true ↔ s.anchors ≠ [] := by
  obtain ⟨_, _, before, after⟩ := s
  cases before <;> cases after <;> simp [hasAnchor, anchors]

theorem check_of_ne_nil (h : order ≠ []) :
    s.check order = s.anchors.forM (checkAnchor order) := by
  unfold check
  by_cases hs : s.hasAnchor = true
  · simp [hs, h]
  · have hnil : s.anchors = [] := by simpa [hasAnchor_iff] using hs
    simp [hs, hnil]
    rfl

theorem check_nil :
    s.check [] = if s.anchors = [] then .ok () else .error .anchorWithoutOrder := by
  unfold check
  by_cases hs : s.hasAnchor = true
  · rw [if_neg (hasAnchor_iff.mp hs)]
    simp [hs]
  · have hnil : s.anchors = [] := by simpa [hasAnchor_iff] using hs
    simp [hs, hnil]

/-- A slice fits an order if each of its anchors does. -/
theorem check_eq_ok_iff : s.check order = .ok () ↔ ∀ a ∈ s.anchors, checkAnchor order a = .ok () := by
  by_cases horder : order = []
  · subst horder
    rw [check_nil]
    by_cases hanchors : s.anchors = []
    · simp [hanchors]
    · obtain ⟨a, ha⟩ := List.exists_mem_of_ne_nil _ hanchors
      rw [if_neg hanchors]
      refine ⟨fun h => absurd h (by simp), fun h => ?_⟩
      exact absurd rfl (ne_nil_of_checkAnchor (h a ha))
  · rw [check_of_ne_nil horder, forM_eq_ok_iff]

end Slice

theorem length_anchorTuple_le (order : List OrderKey) (a : Anchor) :
    (anchorTuple order a).length ≤ a.length := by
  simp only [anchorTuple, leadingFields, List.length_map, List.length_take]
  exact Nat.min_le_left _ _

variable {α : Type} {key : α → String → Value} {order : List OrderKey} {items : List α}

/-! ## 2. Items between anchors -/

/-- The leading part of the item's tuple lies strictly behind `after` and strictly in front of
`before`. -/
def Slice.Between (key : α → String → Value) (order : List OrderKey) (s : Slice) (x : α) : Prop :=
  (∀ a, s.after = some a →
    Precedes order (anchorTuple order a) ((tupleOf key order x).take a.length)) ∧
  ∀ b, s.before = some b →
    Precedes order ((tupleOf key order x).take b.length) (anchorTuple order b)

/-- The comparison of an item with an anchor is that of its leading part. -/
theorem compareTuples_anchor (order : List OrderKey) (t : List Value) (a : Anchor) :
    compareTuples order (t.take a.length) (anchorTuple order a) =
      compareTuples order t (anchorTuple order a) :=
  compareTuples_take order (length_anchorTuple_le order a)

theorem Slice.admits_iff_between {s : Slice} {x : α} :
    s.admits order (tupleOf key order x) = true ↔ s.Between key order x := by
  have hafter : ∀ a, compareTuples order (tupleOf key order x) (anchorTuple order a) = .gt ↔
      Precedes order (anchorTuple order a) ((tupleOf key order x).take a.length) := fun a => by
    rw [← compareTuples_eq_gt_iff, compareTuples_anchor]
  have hbefore : ∀ b, compareTuples order (tupleOf key order x) (anchorTuple order b) = .lt ↔
      Precedes order ((tupleOf key order x).take b.length) (anchorTuple order b) := fun b => by
    rw [← compareTuples_eq_lt_iff, compareTuples_anchor]
  simp only [Slice.admits, Bool.and_eq_true, Option.all_eq_true, beq_iff_eq, hafter, hbefore,
    Slice.Between]

instance (s : Slice) (x : α) : Decidable (s.Between key order x) :=
  decidable_of_iff _ Slice.admits_iff_between

/-! ## 3. Preordered key values -/

/-- A value that is compared under a field: that of an item, or of an anchor that gives the field. -/
def OccursUnder (key : α → String → Value) (order : List OrderKey) (items : List α)
    (anchors : List Anchor) (field : String) (v : Value) : Prop :=
  (∃ x ∈ items, key x field = v) ∨
    ∃ a ∈ anchors, field ∈ leadingFields order a ∧ (Keyed.get? field a).getD .null = v

/-- For each sort key, the values that are compared are preordered. -/
def Preordered (key : α → String → Value) (order : List OrderKey) (items : List α)
    (anchors : List Anchor) : Prop :=
  ∀ k ∈ order, Value.PreorderedOn (OccursUnder key order items anchors k.field)

/-- The values that are compared under a field. -/
def valuesUnder (key : α → String → Value) (order : List OrderKey) (items : List α)
    (anchors : List Anchor) (field : String) : List Value :=
  items.map (fun x => key x field) ++
    (anchors.filter fun a => field ∈ leadingFields order a).map fun a =>
      (Keyed.get? field a).getD .null

theorem mem_valuesUnder {anchors : List Anchor} {field : String} {v : Value} :
    v ∈ valuesUnder key order items anchors field ↔
      OccursUnder key order items anchors field v := by
  simp [valuesUnder, OccursUnder, and_assoc]

/-- There are only finitely many values to try. -/
theorem preordered_iff {anchors : List Anchor} :
    Preordered key order items anchors ↔
      ∀ k ∈ order, ∀ a ∈ valuesUnder key order items anchors k.field,
        ∀ b ∈ valuesUnder key order items anchors k.field,
        ∀ c ∈ valuesUnder key order items anchors k.field,
          a.cmp b ≠ .gt → b.cmp c ≠ .gt → a.cmp c ≠ .gt := by
  simp only [Preordered, Value.PreorderedOn, mem_valuesUnder]
  exact ⟨fun h k hk a ha b hb c hc => h k hk a b c ha hb hc,
    fun h k hk a b c ha hb hc => h k hk a ha b hb c hc⟩

instance (anchors : List Anchor) : Decidable (Preordered key order items anchors) :=
  decidable_of_iff _ preordered_iff.symm

theorem tupleIn_map {S : String → Value → Prop} {order : List OrderKey} {f : OrderKey → Value}
    {n : Nat} (h : ∀ k ∈ order.take n, S k.field (f k)) :
    TupleIn S order ((order.take n).map f) := by
  induction order generalizing n with
  | nil => trivial
  | cons k keys ih =>
    cases n with
    | zero => trivial
    | succ n =>
      rw [List.take_succ_cons] at h ⊢
      obtain ⟨hk, hkeys⟩ := List.forall_mem_cons.mp h
      exact ⟨hk, ih hkeys⟩

theorem tupleIn_tupleOf {anchors : List Anchor} {x : α} (hx : x ∈ items) :
    TupleIn (OccursUnder key order items anchors) order (tupleOf key order x) := by
  have h := @tupleIn_map (OccursUnder key order items anchors) order (fun k => key x k.field)
    order.length fun k _ => Or.inl ⟨x, hx, rfl⟩
  rwa [List.take_length] at h

theorem tupleIn_anchorTuple {anchors : List Anchor} {a : Anchor} (ha : a ∈ anchors) :
    TupleIn (OccursUnder key order items anchors) order (anchorTuple order a) := by
  rw [anchorTuple, leadingFields, List.map_map]
  exact tupleIn_map fun k hk => Or.inr ⟨a, ha, List.mem_map_of_mem hk, rfl⟩

theorem length_tupleOf (x : α) : (tupleOf key order x).length = order.length := List.length_map _

/-! ## 4. Ordered items -/

theorem Preordered.preorderOn {anchors : List Anchor} (h : Preordered key order items anchors) :
    PreorderOn (· ∈ items) (compareItems key order) where
  swap _ _ := compareTuples_swap _ _ _
  trans hx hy hz hxy hyz :=
    compareTuples_trans h (tupleIn_tupleOf hx) (tupleIn_tupleOf hy) (tupleIn_tupleOf hz)
      (Nat.le_of_eq (length_tupleOf _).symm) hxy hyz

/-- **In a preorder of the items the result of the sort is settled.** -/
theorem Preordered.isSettled {anchors : List Anchor} (h : Preordered key order items anchors) :
    isSettled key order items = true :=
  Sorting.settled_of_preorderOn h.preorderOn

theorem sortItems_perm (key : α → String → Value) (order : List OrderKey) (items : List α) :
    (sortItems key order items).Perm items :=
  Sorting.stable_perm _ items

theorem sortItems_pairwise {anchors : List Anchor} (h : Preordered key order items anchors) :
    (sortItems key order items).Pairwise fun x y => compareItems key order x y ≠ .gt :=
  Sorting.stable_pairwise h.preorderOn

/-- Sorting leaves the order among items that tie. -/
theorem sortItems_filter_tied {anchors : List Anchor} (h : Preordered key order items anchors)
    {x : α} (hx : x ∈ items) :
    (sortItems key order items).filter
        (fun y => Tied order (tupleOf key order x) (tupleOf key order y)) =
      items.filter fun y => Tied order (tupleOf key order x) (tupleOf key order y) := by
  have htied : (fun y => decide (Tied order (tupleOf key order x) (tupleOf key order y))) =
      fun y => compareItems key order x y == .eq := by
    funext y
    rw [Bool.eq_iff_iff, decide_eq_true_iff, beq_iff_eq, ← compareTuples_eq_eq_iff, compareItems]
  rw [htied]
  exact Sorting.stable_filter h.preorderOn hx

/-- Whether two items of a list tie does not depend on the order in which they come. -/
theorem untied_of_perm {others : List α} (hperm : others.Perm items)
    (h : items.Pairwise fun x y => ¬Tied order (tupleOf key order x) (tupleOf key order y)) :
    others.Pairwise fun x y => ¬Tied order (tupleOf key order x) (tupleOf key order y) := by
  refine (hperm.pairwise_iff fun {x y} hxy hyx => hxy ?_).mpr h
  rw [← compareTuples_eq_eq_iff] at hyx ⊢
  rw [compareTuples_swap, hyx]
  rfl

/-- Where no two items tie, the ordered ones increase strictly. -/
theorem sortItems_pairwise_lt {anchors : List Anchor} (h : Preordered key order items anchors)
    (huntied : items.Pairwise fun x y => ¬Tied order (tupleOf key order x) (tupleOf key order y)) :
    (sortItems key order items).Pairwise fun x y => compareItems key order x y = .lt := by
  have hsorted := untied_of_perm (sortItems_perm key order items) huntied
  refine (sortItems_pairwise h).imp₂ (fun x y hle hne => ?_) hsorted
  rw [← compareTuples_eq_eq_iff] at hne
  cases hcmp : compareItems key order x y with
  | lt => rfl
  | eq => exact absurd hcmp hne
  | gt => exact absurd hcmp hle

/-- **Where no two items tie, there is one way to order them.** -/
theorem eq_sortItems {anchors : List Anchor} (h : Preordered key order items anchors)
    (huntied : items.Pairwise fun x y => ¬Tied order (tupleOf key order x) (tupleOf key order y))
    {xs : List α} (hperm : xs.Perm items)
    (hlt : xs.Pairwise fun x y => compareItems key order x y = .lt) :
    xs = sortItems key order items := by
  refine List.Perm.eq_of_pairwise (fun x y _ _ hxy hyx => ?_) hlt (sortItems_pairwise_lt h huntied)
    (hperm.trans (sortItems_perm key order items).symm)
  have hswap := compareTuples_swap order (tupleOf key order x) (tupleOf key order y)
  simp only [compareItems] at hxy hyx
  simp [hxy, hyx] at hswap

/-- **Along ordered items the comparison with an anchor can only grow.**  Of two items in order,
the tuple of one is in the middle each time, and it is full. -/
theorem pairwise_compare_anchor {anchors : List Anchor} (h : Preordered key order items anchors)
    {a : Anchor} (ha : a ∈ anchors) :
    (sortItems key order items).Pairwise fun x y =>
      (compareTuples order (tupleOf key order y) (anchorTuple order a) = .lt →
        compareTuples order (tupleOf key order x) (anchorTuple order a) = .lt) ∧
      (compareTuples order (tupleOf key order x) (anchorTuple order a) = .gt →
        compareTuples order (tupleOf key order y) (anchorTuple order a) = .gt) := by
  have hanchor := @tupleIn_anchorTuple _ key order items _ _ ha
  have hitem : ∀ {x}, x ∈ sortItems key order items →
      TupleIn (OccursUnder key order items anchors) order (tupleOf key order x) :=
    fun hx => tupleIn_tupleOf ((sortItems_perm key order items).mem_iff.mp hx)
  have hfull : ∀ x, order.length ≤ (tupleOf key order x).length := fun x =>
    Nat.le_of_eq (length_tupleOf x).symm
  refine (sortItems_pairwise h).imp_of_mem fun {x y} hx hy hxy => ⟨fun hlt => ?_, fun hgt => ?_⟩
  · refine Decidable.byContradiction fun hnlt => ?_
    have hax : compareTuples order (anchorTuple order a) (tupleOf key order x) ≠ .gt := by
      rw [compareTuples_swap order (tupleOf key order x), Ne, Ordering.swap_eq_gt]
      exact hnlt
    have hay := compareTuples_trans h hanchor (hitem hx) (hitem hy) (hfull x) hax hxy
    rw [compareTuples_swap order (tupleOf key order y), hlt] at hay
    exact hay rfl
  · refine Decidable.byContradiction fun hngt => ?_
    exact compareTuples_trans h (hitem hx) (hitem hy) hanchor (hfull y) hxy hngt hgt

/-! ## 5. Windows -/

theorem sortSettled_of_isSettled (h : isSettled key order items = true) :
    sortSettled key order items = .ok (sortItems key order items) :=
  if_pos h

theorem sortSettled_eq_ok_iff {sorted : List α} :
    sortSettled key order items = .ok sorted ↔
      isSettled key order items = true ∧ sortItems key order items = sorted := by
  rw [sortSettled]
  cases isSettled key order items <;> simp

theorem arrange_of_check {s : Slice} (h : s.check order = .ok ())
    (hsettled : isSettled key order items = true) :
    arrange key order s items =
      .ok (s.cut ((sortItems key order items).filter fun x =>
        s.admits order (tupleOf key order x))) := by
  rw [arrange, arrangeBy, h, sortSettled_of_isSettled hsettled]
  rfl

theorem arrange_eq_ok_iff {s : Slice} {kept : List α} :
    arrange key order s items = .ok kept ↔
      s.check order = .ok () ∧ isSettled key order items = true ∧
        s.cut ((sortItems key order items).filter fun x =>
          s.admits order (tupleOf key order x)) = kept := by
  rw [arrange, arrangeBy, check_bind_eq_ok, bind_eq_ok]
  refine and_congr_right fun _ => ?_
  constructor
  · rintro ⟨_, hsorted, hkept⟩
    obtain ⟨hsettled, rfl⟩ := sortSettled_eq_ok_iff.mp hsorted
    exact ⟨hsettled, pure_eq_ok.mp hkept⟩
  · rintro ⟨hsettled, hkept⟩
    exact ⟨_, sortSettled_of_isSettled hsettled, pure_eq_ok.mpr hkept⟩

theorem arrange_nil {s : Slice} (h : s.check order = .ok ()) :
    arrange key order s [] = .ok [] := by
  rw [arrange_of_check h rfl]
  simp [sortItems, Sorting.stable, Slice.cut]

theorem Slice.cut_sublist (s : Slice) (xs : List α) : (s.cut xs).Sublist xs :=
  (List.take_sublist _ _).trans (List.drop_sublist _ _)

/-- Arranging brings in no item. -/
theorem mem_of_mem_arrange {s : Slice} {kept : List α} (h : arrange key order s items = .ok kept)
    {x : α} (hx : x ∈ kept) : x ∈ items := by
  obtain ⟨-, -, rfl⟩ := arrange_eq_ok_iff.mp h
  have hsorted : x ∈ sortItems key order items :=
    List.mem_of_mem_filter ((s.cut_sublist _).subset hx)
  exact (sortItems_perm key order items).mem_iff.mp hsorted

/-- Without limit and offset the window is everything. -/
theorem Slice.cut_of_unlimited {s : Slice} (hlimit : s.limit = none) (hoffset : s.offset = none)
    (xs : List α) : s.cut xs = xs := by
  simp [Slice.cut, Slice.bounds, hlimit, hoffset]

/-- A list along which a comparison can only grow is what is less, what ties, and what is greater,
in this order. -/
theorem filter_lt_eq_gt {f : α → Ordering} {xs : List α}
    (h : xs.Pairwise fun x y => (f y = .lt → f x = .lt) ∧ (f x = .gt → f y = .gt)) :
    xs.filter (fun x => f x == .lt) ++ xs.filter (fun x => f x == .eq) ++
      xs.filter (fun x => f x == .gt) = xs := by
  induction xs with
  | nil => rfl
  | cons x rest ih =>
    obtain ⟨hfirst, hrest⟩ := List.pairwise_cons.mp h
    have ih := ih hrest
    cases hx : f x with
    | lt =>
      simp only [List.filter_cons, hx]
      exact congrArg (x :: ·) ih
    | eq =>
      have hlt : rest.filter (fun y => f y == .lt) = [] := by
        rw [List.filter_eq_nil_iff]
        intro y hy hyf
        simp [(hfirst y hy).1 (beq_iff_eq.mp hyf)] at hx
      rw [hlt, List.nil_append] at ih
      simp only [List.filter_cons, hx, hlt]
      exact congrArg (x :: ·) ih
    | gt =>
      have hall : ∀ y ∈ rest, f y = .gt := fun y hy => (hfirst y hy).2 hx
      have hlt : rest.filter (fun y => f y == .lt) = [] := by
        rw [List.filter_eq_nil_iff]
        intro y hy
        simp [hall y hy]
      have heq : rest.filter (fun y => f y == .eq) = [] := by
        rw [List.filter_eq_nil_iff]
        intro y hy
        simp [hall y hy]
      rw [hlt, heq, List.nil_append, List.nil_append] at ih
      simp only [List.filter_cons, hx, hlt, heq]
      exact congrArg (x :: ·) ih

/-- A slice without limit and offset keeps exactly the items between its anchors, in order, and
those that tie as they came. -/
theorem arrange_between {s : Slice} (hcheck : s.check order = .ok ()) (hlimit : s.limit = none)
    (hoffset : s.offset = none) (h : Preordered key order items s.anchors) :
    ∃ rows, arrange key order s items = .ok rows ∧
      rows.Perm (items.filter fun x => s.Between key order x) ∧
      (rows.Pairwise fun x y => ¬Precedes order (tupleOf key order y) (tupleOf key order x)) ∧
      ∀ x ∈ items,
        rows.filter (fun y => Tied order (tupleOf key order x) (tupleOf key order y)) =
          (items.filter fun y => s.Between key order y).filter fun y =>
            Tied order (tupleOf key order x) (tupleOf key order y) := by
  have hbetween : (fun x => s.admits order (tupleOf key order x)) =
      fun x => decide (s.Between key order x) := by
    funext x
    rw [Bool.eq_iff_iff, decide_eq_true_iff, Slice.admits_iff_between]
  refine ⟨(sortItems key order items).filter fun x => s.Between key order x, ?_, ?_, ?_, ?_⟩
  · rw [arrange_of_check hcheck h.isSettled, Slice.cut_of_unlimited hlimit hoffset, hbetween]
  · exact (sortItems_perm key order items).filter _
  · refine ((sortItems_pairwise h).filter _).imp fun {x y} hxy => ?_
    rwa [← compareTuples_eq_gt_iff]
  · intro x hx
    rw [List.filter_comm, sortItems_filter_tied h hx, List.filter_comm]

/-- The results for an anchor as `before` and as `after`, and between them the items whose leading
part ties with it, are all items in order. -/
theorem arrange_append_tied_append {a : Anchor} (ha : checkAnchor order a = .ok ())
    (h : Preordered key order items [a]) :
    ∃ front back sorted, arrange key order { before := some a } items = .ok front ∧
      arrange key order { after := some a } items = .ok back ∧
      arrange key order {} items = .ok sorted ∧
      front ++ sorted.filter (fun x =>
        Tied order ((tupleOf key order x).take a.length) (anchorTuple order a)) ++ back =
        sorted := by
  have hbefore : ({ before := some a } : Slice).check order = .ok () :=
    Slice.check_eq_ok_iff.mpr (by simpa [Slice.anchors] using ha)
  have hafter : ({ after := some a } : Slice).check order = .ok () :=
    Slice.check_eq_ok_iff.mpr (by simpa [Slice.anchors] using ha)
  have htied : (fun x => decide (Tied order ((tupleOf key order x).take a.length)
      (anchorTuple order a))) =
      fun x => compareTuples order (tupleOf key order x) (anchorTuple order a) == .eq := by
    funext x
    rw [Bool.eq_iff_iff, decide_eq_true_iff, beq_iff_eq, ← compareTuples_eq_eq_iff,
      compareTuples_anchor]
  have hall : (sortItems key order items).filter (fun x =>
      Slice.admits {} order (tupleOf key order x)) = sortItems key order items := by
    simp [Slice.admits]
  have hsplit := filter_lt_eq_gt (pairwise_compare_anchor h (List.mem_singleton_self a))
  have hsettled := h.isSettled
  refine ⟨_, _, _, arrange_of_check hbefore hsettled, arrange_of_check hafter hsettled,
    arrange_of_check rfl hsettled, ?_⟩
  rw [Slice.cut_of_unlimited rfl rfl, Slice.cut_of_unlimited rfl rfl,
    Slice.cut_of_unlimited rfl rfl, htied, hall]
  simpa [Slice.admits] using hsplit

/-- **What anchors keep.**  A slice without limit and offset keeps exactly the items between its
anchors, in order, and those that tie as they came; and one anchor cuts the ordered items in three
parts, two of which are the results for the anchor as `before` and as `after`. -/
theorem arrange_between_anchors (key : α → String → Value) (order : List OrderKey)
    (items : List α) :
    (∀ s : Slice, s.check order = .ok () → s.limit = none → s.offset = none →
      Preordered key order items s.anchors →
      ∃ rows, arrange key order s items = .ok rows ∧
        rows.Perm (items.filter fun x => s.Between key order x) ∧
        (rows.Pairwise fun x y => ¬Precedes order (tupleOf key order y) (tupleOf key order x)) ∧
        ∀ x ∈ items,
          rows.filter (fun y => Tied order (tupleOf key order x) (tupleOf key order y)) =
            (items.filter fun y => s.Between key order y).filter fun y =>
              Tied order (tupleOf key order x) (tupleOf key order y)) ∧
    ∀ a : Anchor, checkAnchor order a = .ok () → Preordered key order items [a] →
      ∃ front back sorted, arrange key order { before := some a } items = .ok front ∧
        arrange key order { after := some a } items = .ok back ∧
        arrange key order {} items = .ok sorted ∧
        front ++ sorted.filter (fun x =>
          Tied order ((tupleOf key order x).take a.length) (anchorTuple order a)) ++ back =
          sorted :=
  ⟨fun _ hcheck hlimit hoffset h => arrange_between hcheck hlimit hoffset h,
    fun _ ha h => arrange_append_tied_append ha h⟩

/-- Rows of which two tie under the first key and one does not have it. -/
def ages : List Row := [
  [("age", .int 30), ("name", .string "Cid")], [("age", .int 40), ("name", .string "Bob")],
  [("name", .string "Dan")], [("age", .int 30), ("name", .string "Ann")]]

theorem arrange_between_anchors_ages :
    let order : List OrderKey := [⟨"age", .desc⟩, ⟨"name", .asc⟩]
    let a : Anchor := [("age", .int 30)]
    (∃ rows, arrange Row.valueAt order { before := some a } ages = .ok rows ∧
      rows.Perm (ages.filter fun x => Slice.Between Row.valueAt order { before := some a } x)) ∧
    ∃ front back sorted, arrange Row.valueAt order { before := some a } ages = .ok front ∧
      arrange Row.valueAt order { after := some a } ages = .ok back ∧
      arrange Row.valueAt order {} ages = .ok sorted ∧
      front ++ sorted.filter (fun x =>
        Tied order ((tupleOf Row.valueAt order x).take a.length) (anchorTuple order a)) ++ back =
        sorted := by
  intro order a
  obtain ⟨hslice, hanchor⟩ := arrange_between_anchors Row.valueAt order ages
  obtain ⟨rows, hrows, hperm, -⟩ :=
    hslice { before := some a } (by decide +kernel) rfl rfl (by decide +kernel)
  exact ⟨⟨rows, hrows, hperm⟩, hanchor a (by decide +kernel) (by decide +kernel)⟩

end GraphQuery
