/-
# Orders turned round

Turning every direction of an order round swaps each comparison of tuples, and so what lies in front
of an anchor comes to lie behind it.  Where no two items tie, the ordered items come in reverse
(`sortItems_opposite`).  Items that tie would not: they keep the order in which they came.

A window is counted from the start, but from the end if there is only the anchor `before`.  So with
one anchor, `before` on one side and `after` on the other, the two windows are mirror images, however
large the limit and the offset (`Slice.cut_mirrored`).  With both anchors, or with none, they are
not: both are counted from the start.

**`arrange_mirrored`** puts this together: looking back from an anchor is looking ahead from it in
the opposite order, read from the end.  `arrange_opposite` says the same of all outcomes, refusals
included.
-/
import GraphQuery.Proofs.Ordering.Windows

namespace GraphQuery

variable {α : Type} {key : α → String → Value} {order : List OrderKey} {items : List α}

/-! ## 1. Opposite orders -/

/-- The other direction. -/
def Direction.opposite : Direction → Direction
  | asc => desc
  | desc => asc

/-- The same field in the other direction. -/
def OrderKey.opposite (k : OrderKey) : OrderKey := { k with direction := k.direction.opposite }

/-- The order with every direction turned round. -/
def opposite (order : List OrderKey) : List OrderKey := order.map OrderKey.opposite

theorem Direction.orient_opposite (d : Direction) (o : Ordering) :
    d.opposite.orient o = (d.orient o).swap := by
  cases d <;> cases o <;> rfl

theorem compareTuples_opposite (order : List OrderKey) (s t : List Value) :
    compareTuples (opposite order) s t = (compareTuples order s t).swap := by
  induction order generalizing s t with
  | nil => rfl
  | cons k keys ih =>
    match s, t with
    | [], _ => rfl
    | _ :: _, [] => rfl
    | a :: as, b :: bs =>
      rw [opposite] at ih ⊢
      rw [List.map_cons, compareTuples, compareTuples, ih, Ordering.swap_then,
        OrderKey.opposite, Direction.orient_opposite]

/-- The fields stay, so items keep their tuples and anchors theirs. -/
theorem tupleOf_opposite (key : α → String → Value) (order : List OrderKey) (x : α) :
    tupleOf key (opposite order) x = tupleOf key order x := by
  simp [tupleOf, opposite, OrderKey.opposite]

theorem leadingFields_opposite (order : List OrderKey) (a : Anchor) :
    leadingFields (opposite order) a = leadingFields order a := by
  simp [leadingFields, opposite, OrderKey.opposite, ← List.map_take]

theorem anchorTuple_opposite (order : List OrderKey) (a : Anchor) :
    anchorTuple (opposite order) a = anchorTuple order a := by
  rw [anchorTuple, anchorTuple, leadingFields_opposite]

theorem checkAnchor_opposite (order : List OrderKey) (a : Anchor) :
    checkAnchor (opposite order) a = checkAnchor order a := by
  have hfields : (opposite order).map OrderKey.field = order.map OrderKey.field := by
    simp [opposite, OrderKey.opposite]
  have hlength : (opposite order).length = order.length := List.length_map _
  rw [checkAnchor, checkAnchor, leadingFields_opposite, hfields, hlength]

/-! ## 2. Items in the opposite order -/

theorem compareItems_opposite (x y : α) :
    compareItems key (opposite order) x y = compareItems key order y x := by
  rw [compareItems, compareItems, compareTuples_opposite, tupleOf_opposite, tupleOf_opposite,
    ← compareTuples_swap]

/-- The same values are compared. -/
theorem Preordered.opposite {anchors : List Anchor} (h : Preordered key order items anchors) :
    Preordered key (opposite order) items anchors := by
  intro k' hk'
  obtain ⟨k, hk, rfl⟩ := List.mem_map.mp hk'
  have hoccurs : OccursUnder key (GraphQuery.opposite order) items anchors k.opposite.field =
      OccursUnder key order items anchors k.field := by
    funext v
    simp only [OccursUnder, leadingFields_opposite, OrderKey.opposite]
  rw [hoccurs]
  exact h k hk

theorem untied_opposite
    (h : items.Pairwise fun x y => ¬Tied order (tupleOf key order x) (tupleOf key order y)) :
    items.Pairwise fun x y =>
      ¬Tied (opposite order) (tupleOf key (opposite order) x) (tupleOf key (opposite order) y) := by
  refine h.imp fun {x y} hne htied => hne ?_
  rwa [← compareTuples_eq_eq_iff, compareTuples_opposite, tupleOf_opposite, tupleOf_opposite,
    Ordering.swap_eq_eq, compareTuples_eq_eq_iff] at htied

/-- **In the opposite order the items come in reverse.** -/
theorem sortItems_opposite {anchors : List Anchor} (h : Preordered key order items anchors)
    (huntied : items.Pairwise fun x y => ¬Tied order (tupleOf key order x) (tupleOf key order y)) :
    sortItems key (opposite order) items = (sortItems key order items).reverse := by
  have hlt := sortItems_pairwise_lt h.opposite (untied_opposite huntied)
  simp only [compareItems_opposite] at hlt
  have hperm : (sortItems key (opposite order) items).reverse.Perm items :=
    (List.reverse_perm _).trans (sortItems_perm key (opposite order) items)
  rw [← eq_sortItems h huntied hperm (List.pairwise_reverse.mpr hlt), List.reverse_reverse]

/-! ## 3. Mirrored slices -/

namespace Slice

/-- The slice with its anchors exchanged. -/
def mirrored (s : Slice) : Slice := { s with before := s.after, after := s.before }

/-- The slice has one anchor, and any counts. -/
inductive OneAnchor : Slice → Prop
  | before (limit offset : Option UInt64) (a : Anchor) :
    OneAnchor { limit := limit, offset := offset, before := some a }
  | after (limit offset : Option UInt64) (a : Anchor) :
    OneAnchor { limit := limit, offset := offset, after := some a }

theorem admits_mirrored (s : Slice) (order : List OrderKey) (tuple : List Value) :
    s.mirrored.admits (opposite order) tuple = s.admits order tuple := by
  have hgt : ∀ o : Ordering, (o.swap == .gt) = (o == .lt) := by decide
  have hlt : ∀ o : Ordering, (o.swap == .lt) = (o == .gt) := by decide
  simp only [admits, mirrored, compareTuples_opposite, anchorTuple_opposite, hgt, hlt]
  rw [Bool.and_comm]

theorem check_mirrored {s : Slice} (h : s.OneAnchor) (order : List OrderKey) :
    s.mirrored.check (opposite order) = s.check order := by
  have hempty : (opposite order).isEmpty = order.isEmpty := by cases order <;> rfl
  have hchecks : checkAnchor (opposite order) = checkAnchor order := by
    funext a
    exact checkAnchor_opposite order a
  cases h with
  | before limit offset a => simp [check, mirrored, hasAnchor, anchors, hempty, hchecks]
  | after limit offset a => simp [check, mirrored, hasAnchor, anchors, hempty, hchecks]

/-- **With one anchor, exchanging the anchors mirrors the window.** -/
theorem cut_mirrored {s : Slice} (h : s.OneAnchor) (xs : List α) :
    s.mirrored.cut xs.reverse = (s.cut xs).reverse := by
  rw [cut_eq_window, cut_eq_window]
  cases h with
  | before limit offset a =>
    cases limit with
    | none => simp [window, mirrored, skipped, List.rdrop_eq_reverse_drop_reverse]
    | some n =>
      simp [window, mirrored, skipped, List.rdrop_eq_reverse_drop_reverse,
        List.rtake_eq_reverse_take_reverse]
  | after limit offset a =>
    cases limit with
    | none => simp [window, mirrored, skipped, List.rdrop_eq_reverse_drop_reverse]
    | some n =>
      simp [window, mirrored, skipped, List.rdrop_eq_reverse_drop_reverse,
        List.rtake_eq_reverse_take_reverse]

end Slice

/-! ## 4. The two sides of an anchor -/

/-- The mirrored slice of the opposite order has the mirrored outcome. -/
theorem arrange_opposite {s : Slice} (hs : s.OneAnchor) {anchors : List Anchor}
    (h : Preordered key order items anchors)
    (huntied : items.Pairwise fun x y => ¬Tied order (tupleOf key order x) (tupleOf key order y)) :
    arrange key (opposite order) s.mirrored items =
      (arrange key order s items).map List.reverse := by
  rw [arrange, arrange, arrangeBy, arrangeBy, Slice.check_mirrored hs,
    sortSettled_of_isSettled h.isSettled, sortSettled_of_isSettled h.opposite.isSettled,
    sortItems_opposite h huntied]
  cases s.check order with
  | error err => rfl
  | ok =>
    simp only [ok_bind, Slice.admits_mirrored, tupleOf_opposite, List.filter_reverse]
    exact congrArg Except.ok (Slice.cut_mirrored hs _)

/-- **Before and after are mirror images.**  Where no two items tie, what an anchor leaves as `before`
is the reverse of what it leaves as `after` in the opposite order, with the same limit and offset;
and the other way round. -/
theorem arrange_mirrored (key : α → String → Value) (order : List OrderKey) (items : List α)
    (a : Anchor) (limit offset : Option UInt64) (ha : checkAnchor order a = .ok ())
    (hpre : Preordered key order items [])
    (huntied : items.Pairwise fun x y => ¬Tied order (tupleOf key order x) (tupleOf key order y)) :
    (∃ front,
      arrange key order { limit := limit, offset := offset, before := some a } items = .ok front ∧
      arrange key (opposite order) { limit := limit, offset := offset, after := some a } items =
        .ok front.reverse) ∧
    ∃ back,
      arrange key order { limit := limit, offset := offset, after := some a } items = .ok back ∧
      arrange key (opposite order) { limit := limit, offset := offset, before := some a } items =
        .ok back.reverse := by
  -- An anchor on either side is an anchor of its own slice; the other slice is the mirrored one.
  have hside : ∀ s : Slice, s.OneAnchor → s.anchors = [a] →
      ∃ rows, arrange key order s items = .ok rows ∧
        arrange key (opposite order) s.mirrored items = .ok rows.reverse := by
    intro s hs hanchors
    have hcheck : s.check order = .ok () := by
      rw [Slice.check_eq_ok_iff, hanchors, List.forall_mem_singleton]
      exact ha
    refine ⟨_, arrange_of_check hcheck hpre.isSettled, ?_⟩
    rw [arrange_opposite hs hpre huntied, arrange_of_check hcheck hpre.isSettled]
    rfl
  exact ⟨hside _ (.before limit offset a) rfl, hside _ (.after limit offset a) rfl⟩

theorem arrange_mirrored_ages :
    let order : List OrderKey := [⟨"age", .desc⟩, ⟨"name", .asc⟩]
    let a : Anchor := [("age", .int 30), ("name", .string "Cid")]
    ∃ front, arrange Row.valueAt order { limit := some 1, offset := some 1, before := some a } ages =
        .ok front ∧ front.length = 1 ∧
      arrange Row.valueAt (opposite order) { limit := some 1, offset := some 1, after := some a }
        ages = .ok front.reverse := by
  intro order a
  obtain ⟨⟨front, hfront, hback⟩, -⟩ := arrange_mirrored Row.valueAt order ages a (some 1) (some 1)
    (by decide +kernel) (by decide +kernel) (by decide +kernel)
  refine ⟨front, hfront, ?_, hback⟩
  have hrows : arrange Row.valueAt order { limit := some 1, offset := some 1, before := some a } ages =
      .ok [[("age", .int 40), ("name", .string "Bob")]] := by decide +kernel
  rw [hfront] at hrows
  rw [Except.ok.inj hrows]
  rfl

end GraphQuery
