/-
# Order statistics

What `min`, `max` and `median` pick out of items that the order of values preorders.

* An extreme is the first item of those that are not null which no other such item beats
  (**`isExtreme_extremeOf`**).  Both extremes are one loop, which keeps the lesser of two items in
  one direction of the order or the other.
* The median of an odd number of numbers is one of them, with at most half of the others on either
  side (**`isMedian_medianOf`**).
* Another order of the items leads to a value that ties.  Two numbers that tie have one value as
  floating point numbers, so the midpoint of the two in the middle even stays the same.

Null stands for a result where there is nothing to pick from.  An extreme passes over nulls alone, a
median over everything but numbers.
-/
import GraphQuery.Proofs.Expression.Checks
import GraphQuery.Proofs.Expression.Trichotomy
import GraphQuery.Proofs.Ordering.Ranks
import GraphQuery.Proofs.Ordering.StableSort
import GraphQuery.Proofs.Ordering.Tuples
import GraphQuery.Proofs.Value.Transitivity
import GraphQuery.Expression.Reduction

namespace GraphQuery

open Sorting (PreorderOn FirstLeast keepLesser)

namespace Value

variable {items items' : List Value} {v w : Value}

theorem isNull_eq_false_iff : v.isNull = false ↔ v ≠ null := by
  cases v <;> simp [isNull]

/-! ## 1. Extremes -/

/-- The items that are not null. -/
def present (items : List Value) : List Value := items.filter fun v => !v.isNull

theorem mem_present : v ∈ present items ↔ v ∈ items ∧ v ≠ null := by
  rw [present, List.mem_filter, Bool.not_eq_true', isNull_eq_false_iff]

theorem present_eq_nil_iff : present items = [] ↔ ∀ w ∈ items, w = null := by
  rw [List.eq_nil_iff_forall_not_mem]
  exact forall_congr' fun w => by rw [mem_present, not_and_not_right]

/-- The value is not null, and its comparison with no item that is not null comes out as refused. -/
def Unbeaten (refused : Ordering) (items : List Value) (v : Value) : Prop :=
  v ≠ null ∧ ∀ w ∈ items, w ≠ null → v.cmp w ≠ refused

instance (refused : Ordering) (items : List Value) (v : Value) :
    Decidable (Unbeaten refused items v) :=
  inferInstanceAs (Decidable (_ ∧ _))

theorem unbeaten_iff {d : Direction} {o : Ordering} :
    Unbeaten (d.orient o) items v ↔ v ≠ null ∧ ∀ w ∈ present items, d.orient (v.cmp w) ≠ o := by
  refine and_congr_right fun _ => forall_congr' fun w => ?_
  rw [mem_present, and_imp, ne_eq, ne_eq (d.orient _), Direction.orient_eq_iff]

/-- Both extremes are one loop. -/
theorem extremeOf_eq_foldl (d : Direction) {first : Value} {rest : List Value}
    (h : present items = first :: rest) :
    extremeOf (d.orient .lt) items =
      rest.foldl (keepLesser fun a b => d.orient (a.cmp b)) first := by
  rw [extremeOf, ← present, h]
  refine congrArg (fun step => rest.foldl step first) (funext₂ fun kept x => ?_)
  simp only [keepLesser, Direction.orient_eq_iff]

/-- **An extreme comes first among the items that nothing beats.** -/
theorem firstLeast_extremeOf (d : Direction) (h : PreorderedOn (· ∈ items))
    (hpresent : present items ≠ []) :
    FirstLeast (fun a b => d.orient (a.cmp b)) (present items)
      (extremeOf (d.orient .lt) items) := by
  obtain ⟨first, rest, hcons⟩ := List.exists_cons_of_ne_nil hpresent
  rw [extremeOf_eq_foldl d hcons, hcons]
  refine Sorting.firstLeast_foldl (d.preorderOn h) fun y hy => ?_
  exact (mem_present.mp (hcons ▸ hy)).1

theorem extremeOf_of_present_eq_nil {better : Ordering} (h : present items = []) :
    extremeOf better items = null := by
  rw [extremeOf, ← present, h]

/-- What an extreme is: null if all items are, else the first item that is not beaten. -/
structure IsExtreme (refused : Ordering) (items : List Value) (v : Value) : Prop where
  null_iff : v = null ↔ ∀ w ∈ items, w = null
  first : v ≠ null → items.find? (fun u => decide (Unbeaten refused items u)) = some v

theorem isExtreme_extremeOf (d : Direction) (h : PreorderedOn (· ∈ items)) :
    IsExtreme (d.orient .gt) items (extremeOf (d.orient .lt) items) := by
  by_cases hpresent : present items = []
  · have hnull := @extremeOf_of_present_eq_nil items (d.orient .lt) hpresent
    exact ⟨iff_of_true hnull (present_eq_nil_iff.mp hpresent), fun hne => absurd hnull hne⟩
  · have hfirst := firstLeast_extremeOf d h hpresent
    have hne := (mem_present.mp hfirst.mem).2
    refine ⟨iff_of_false hne fun hall => hpresent (present_eq_nil_iff.mpr hall), fun _ => ?_⟩
    have hpick : (fun u => decide (Unbeaten (d.orient .gt) items u)) =
        fun u => decide ((!u.isNull) = true ∧
          decide (∀ w ∈ present items, d.orient (u.cmp w) ≠ .gt) = true) := by
      funext u
      rw [decide_eq_decide, unbeaten_iff, decide_eq_true_iff, Bool.not_eq_true',
        isNull_eq_false_iff]
    rw [hpick, ← List.find?_filter]
    exact hfirst.find?_eq (d.preorderOn h) fun x hx => (mem_present.mp hx).1

/-- **Another order of the items leads to an extreme that ties.** -/
theorem cmp_extremeOf_perm (d : Direction) (h : PreorderedOn (· ∈ items))
    (hperm : items'.Perm items) :
    (extremeOf (d.orient .lt) items').cmp (extremeOf (d.orient .lt) items) = .eq := by
  have h' := h.perm hperm
  have hpresent : (present items').Perm (present items) := hperm.filter _
  by_cases hnil : present items = []
  · have hnil' : present items' = [] := (hnil ▸ hpresent).eq_nil
    rw [extremeOf_of_present_eq_nil hnil, extremeOf_of_present_eq_nil hnil', cmp_self]
  · have hnil' : present items' ≠ [] := fun hnil' => hnil (hnil' ▸ hpresent).symm.eq_nil
    have hfirst := firstLeast_extremeOf d h hnil
    have hfirst' := firstLeast_extremeOf d h' hnil'
    have hpre := d.preorderOn h
    have hmem : ∀ x ∈ present items, x ∈ items := fun x hx => (mem_present.mp hx).1
    have hmem' : ∀ x ∈ present items', x ∈ items := fun x hx => hmem x (hpresent.mem_iff.mp hx)
    have hle := hfirst'.ne_gt hpre hmem' (hpresent.mem_iff.mpr hfirst.mem)
    have hge := hfirst.ne_gt hpre hmem (hpresent.mem_iff.mp hfirst'.mem)
    exact Direction.orient_eq_eq_iff.mp
      (hpre.eq_of_ne_gt (hmem' _ hfirst'.mem) (hmem _ hfirst.mem) hle hge)

/-! ## 2. The median -/

/-- The numbers from the least to the greatest. -/
def sortedNumbers (items : List Value) : List Value := Sorting.stable cmp (numbers items)

theorem mem_numbers : v ∈ numbers items ↔ v ∈ items ∧ v.isNumber = true := List.mem_filter

theorem numbers_eq_nil_iff : numbers items = [] ↔ ∀ w ∈ items, w.isNumber = false := by
  simp [numbers, List.filter_eq_nil_iff]

theorem sortedNumbers_perm (items : List Value) : (sortedNumbers items).Perm (numbers items) :=
  Sorting.stable_perm cmp _

theorem length_sortedNumbers (items : List Value) :
    (sortedNumbers items).length = (numbers items).length :=
  (sortedNumbers_perm items).length_eq

theorem preorderOn_numbers (h : PreorderedOn (· ∈ items)) :
    PreorderOn (· ∈ numbers items) cmp :=
  h.preorderOn.mono fun _ hx => (mem_numbers.mp hx).1

theorem sortedNumbers_pairwise (h : PreorderedOn (· ∈ items)) :
    (sortedNumbers items).Pairwise fun x y => x.cmp y ≠ .gt :=
  Sorting.stable_pairwise (preorderOn_numbers h)

theorem mem_numbers_of_mem_sortedNumbers (h : v ∈ sortedNumbers items) : v ∈ numbers items :=
  (sortedNumbers_perm items).mem_iff.mp h

/-- Where the median is looked up, if there are numbers. -/
theorem medianOf_of_pos (h : 0 < (sortedNumbers items).length) :
    medianOf items =
      if (sortedNumbers items).length % 2 = 1 then
        (sortedNumbers items).getD ((sortedNumbers items).length / 2) null
      else
        midpoint ((sortedNumbers items).getD ((sortedNumbers items).length / 2 - 1) null)
          ((sortedNumbers items).getD ((sortedNumbers items).length / 2) null) := by
  have hnil : (sortedNumbers items).isEmpty = false := by
    rw [List.isEmpty_eq_false_iff]
    exact List.ne_nil_of_length_pos h
  rw [medianOf, ← sortedNumbers, hnil, if_neg Bool.false_ne_true]

/-- The middle one of an odd number of numbers. -/
theorem medianOf_odd {k : Nat} (hlength : (sortedNumbers items).length = 2 * k + 1)
    (hk : k < (sortedNumbers items).length) : medianOf items = (sortedNumbers items)[k] := by
  have hhalf : (2 * k + 1) / 2 = k := by omega
  have hodd : (2 * k + 1) % 2 = 1 := by omega
  rw [medianOf_of_pos (by omega), hlength, hhalf, if_pos hodd, List.getD_eq_getElem?_getD,
    List.getElem?_eq_getElem hk, Option.getD_some]

/-- The midpoint of the two in the middle of an even number of numbers. -/
theorem medianOf_even {k : Nat} (hlength : (sortedNumbers items).length = 2 * (k + 1))
    (hk : k < (sortedNumbers items).length) (hk' : k + 1 < (sortedNumbers items).length) :
    medianOf items = midpoint (sortedNumbers items)[k] (sortedNumbers items)[k + 1] := by
  have hhalf : 2 * (k + 1) / 2 = k + 1 := by omega
  have heven : ¬2 * (k + 1) % 2 = 1 := by omega
  rw [medianOf_of_pos (by omega), hlength, hhalf, if_neg heven, Nat.add_sub_cancel,
    List.getD_eq_getElem?_getD, List.getD_eq_getElem?_getD, List.getElem?_eq_getElem hk,
    List.getElem?_eq_getElem hk', Option.getD_some, Option.getD_some]

/-- There are no numbers, an odd number of them or an even one. -/
theorem length_sortedNumbers_cases (items : List Value) :
    numbers items = [] ∨ (∃ k, (sortedNumbers items).length = 2 * k + 1) ∨
      ∃ k, (sortedNumbers items).length = 2 * (k + 1) := by
  rcases Nat.eq_zero_or_pos (sortedNumbers items).length with hzero | hpos
  · exact .inl (List.length_eq_zero_iff.mp (length_sortedNumbers items ▸ hzero))
  · rcases Nat.mod_two_eq_zero_or_one (sortedNumbers items).length with heven | hodd
    · exact .inr (.inr ⟨(sortedNumbers items).length / 2 - 1, by omega⟩)
    · exact .inr (.inl ⟨(sortedNumbers items).length / 2, by omega⟩)

theorem medianOf_of_numbers_eq_nil (h : numbers items = []) : medianOf items = null := by
  rw [medianOf, h]
  rfl

theorem medianOf_ne_null (h : numbers items ≠ []) : medianOf items ≠ null := by
  obtain hnil | ⟨k, hlength⟩ | ⟨k, hlength⟩ := length_sortedNumbers_cases items
  · exact absurd hnil h
  · have hk : k < (sortedNumbers items).length := by omega
    have hmem := mem_numbers_of_mem_sortedNumbers (List.getElem_mem hk)
    rw [medianOf_odd hlength hk]
    intro hnull
    rw [hnull] at hmem
    exact absurd (mem_numbers.mp hmem).2 (by decide)
  · rw [medianOf_even hlength (by omega) (by omega), midpoint]
    exact Value.noConfusion

/-- What a median is: null if there are no numbers; of an odd number of them, one with at most half of
the others below and at most half above. -/
structure IsMedian (items : List Value) (v : Value) : Prop where
  null_iff : v = null ↔ ∀ w ∈ items, w.isNumber = false
  middle : ∀ k, (numbers items).length = 2 * k + 1 →
    v ∈ numbers items ∧ (numbers items).countP (fun w => w.cmp v == .lt) ≤ k ∧
      (numbers items).countP (fun w => w.cmp v == .gt) ≤ k

theorem isMedian_medianOf (h : PreorderedOn (· ∈ items)) : IsMedian items (medianOf items) := by
  constructor
  · rw [← numbers_eq_nil_iff]
    exact ⟨not_imp_not.mp medianOf_ne_null, medianOf_of_numbers_eq_nil⟩
  · intro k hlength
    rw [← length_sortedNumbers] at hlength
    have hk : k < (sortedNumbers items).length := by omega
    obtain ⟨hbelow, habove⟩ := Sorting.countP_getElem_le (preorderOn_numbers h)
      (fun _ => mem_numbers_of_mem_sortedNumbers) (sortedNumbers_pairwise h) hk
    have hbehind : (sortedNumbers items).length - (k + 1) = k := by omega
    rw [(sortedNumbers_perm items).countP_eq] at hbelow habove
    rw [hbehind] at habove
    rw [medianOf_odd hlength hk]
    exact ⟨mem_numbers_of_mem_sortedNumbers (List.getElem_mem hk), hbelow, habove⟩

/-- Numbers that tie are one floating point number. -/
theorem number?_eq_of_cmp (hv : v.isNumber = true) (hw : w.isNumber = true)
    (h : v.cmp w = .eq) : v.number? = w.number? := by
  cases v with
  | int i =>
    cases w with
    | int j =>
      rw [cmp] at h
      rw [number?, number?, Std.LawfulEqOrd.eq_of_compare h]
    | float y => exact congrArg some (Binary64.compare_eq_eq_iff.mp h)
    | _ => exact Bool.noConfusion hw
  | float x =>
    cases w with
    | int j => exact congrArg some (Binary64.compare_eq_eq_iff.mp h)
    | float y => exact congrArg some (Binary64.compare_eq_eq_iff.mp h)
    | _ => exact Bool.noConfusion hw
  | _ => exact Bool.noConfusion hv

/-- **Another order of the items leads to a median that ties.** -/
theorem cmp_medianOf_perm (h : PreorderedOn (· ∈ items)) (hperm : items'.Perm items) :
    (medianOf items').cmp (medianOf items) = .eq := by
  have h' := h.perm hperm
  have hnumbers : (numbers items').Perm (numbers items) := hperm.filter _
  have hsorted : (sortedNumbers items').Perm (sortedNumbers items) :=
    ((sortedNumbers_perm items').trans hnumbers).trans (sortedNumbers_perm items).symm
  have hmem : ∀ x ∈ sortedNumbers items, x ∈ numbers items :=
    fun _ => mem_numbers_of_mem_sortedNumbers
  have hmem' : ∀ x ∈ sortedNumbers items', x ∈ numbers items :=
    fun x hx => hmem x (hsorted.mem_iff.mp hx)
  have htie : ∀ i (hi' : i < (sortedNumbers items').length) (hi : i < (sortedNumbers items).length),
      (sortedNumbers items')[i].cmp (sortedNumbers items)[i] = .eq :=
    fun i hi' hi => Sorting.cmp_getElem_eq (preorderOn_numbers h) hmem'
      (sortedNumbers_pairwise h') (sortedNumbers_pairwise h) hsorted hi' hi
  have hlengths := hsorted.length_eq
  obtain hnil | ⟨k, hlength⟩ | ⟨k, hlength⟩ := length_sortedNumbers_cases items
  · have hnil' : numbers items' = [] := (hnil ▸ hnumbers).eq_nil
    rw [medianOf_of_numbers_eq_nil hnil, medianOf_of_numbers_eq_nil hnil', cmp_self]
  · rw [medianOf_odd hlength (by omega), medianOf_odd (hlengths.trans hlength) (by omega)]
    exact htie k (by omega) (by omega)
  · have hnumber : ∀ i (hi' : i < (sortedNumbers items').length)
        (hi : i < (sortedNumbers items).length),
        (sortedNumbers items')[i].number? = (sortedNumbers items)[i].number? :=
      fun i hi' hi => number?_eq_of_cmp (mem_numbers.mp (hmem' _ (List.getElem_mem hi'))).2
        (mem_numbers.mp (hmem _ (List.getElem_mem hi))).2 (htie i hi' hi)
    rw [medianOf_even hlength (by omega) (by omega),
      medianOf_even (hlengths.trans hlength) (by omega) (by omega), midpoint, midpoint,
      hnumber k (by omega) (by omega), hnumber (k + 1) (by omega) (by omega), cmp_self]

/-- Where the order of values preorders the items, they can be sorted for the median. -/
theorem apply_median (h : PreorderedOn (· ∈ items)) :
    Reduction.median.apply items = .ok (medianOf items) := by
  rw [Reduction.apply, Sorting.settled_of_preorderOn (preorderOn_numbers h), if_pos rfl]

end Value

/-! ## 3. The operators -/

namespace OperatorTable

open Value

/-- **Extremes and medians are picked by their place in the order.**  An operand that has a value lists
items.  Where the order of values preorders the items, there is a value: the minimum and the maximum
are the first items that are not null and not beaten, the median of an odd number of numbers has at
most half of the others on either side, and another order of the items leads to a value that ties. -/
theorem evaluate_orderStatistic {t : OperatorTable} {tag : String} {r : Reduction}
    (hr : r ∈ [Reduction.min, .max, .median]) (h : t.get? tag = some (.builtIn (.reduction r)))
    (operand input : Value) :
    (∀ v, t.evaluate (.map [(tag, operand)]) input = .ok v →
      ∃ items, t.reducedItems r operand input = .ok items) ∧
    ∀ items, t.reducedItems r operand input = .ok items → PreorderedOn (· ∈ items) →
      ∃ v, t.evaluate (.map [(tag, operand)]) input = .ok v ∧
        (r = .min → IsExtreme .gt items v) ∧
        (r = .max → IsExtreme .lt items v) ∧
        (r = .median → IsMedian items v) ∧
        ∀ operand' input' items', t.reducedItems r operand' input' = .ok items' →
          items'.Perm items →
            ∃ v', t.evaluate (.map [(tag, operand')]) input' = .ok v' ∧ v'.cmp v = .eq := by
  simp only [evaluate_reduction h]
  refine ⟨fun v hv => ?_, fun items hitems hpre => ?_⟩
  · obtain ⟨items, hitems, -⟩ := bind_eq_ok.mp hv
    exact ⟨items, hitems⟩
  · rw [hitems, ok_bind]
    simp only [List.mem_cons, List.not_mem_nil, or_false] at hr
    rcases hr with rfl | rfl | rfl
    · refine ⟨_, rfl, fun _ => isExtreme_extremeOf .asc hpre, nofun, nofun, ?_⟩
      intro operand' input' items' hitems' hperm
      exact ⟨_, by rw [hitems']; rfl, cmp_extremeOf_perm .asc hpre hperm⟩
    · refine ⟨_, rfl, nofun, fun _ => isExtreme_extremeOf .desc hpre, nofun, ?_⟩
      intro operand' input' items' hitems' hperm
      exact ⟨_, by rw [hitems']; rfl, cmp_extremeOf_perm .desc hpre hperm⟩
    · refine ⟨_, apply_median hpre, nofun, nofun, fun _ => isMedian_medianOf hpre, ?_⟩
      intro operand' input' items' hitems' hperm
      refine ⟨_, ?_, cmp_medianOf_perm hpre hperm⟩
      rw [hitems', ok_bind, apply_median (hpre.perm hperm)]

/-- Numbers of both kinds that tie, with other values between them: the first of the two is the least
value, and the other one the median. -/
theorem evaluate_orderStatistic_mixed :
    let one := float (Binary64.ofInt 1)
    let items := [one, null, int 3, string "b", int 1]
    let items' := [string "b", int 1, int 3, one, null]
    PreorderedOn (· ∈ items) ∧ items'.Perm items ∧
      standard.evaluate (.map [("$min", .list items)]) null = .ok one ∧
      IsExtreme .gt items one ∧
      standard.evaluate (.map [("$max", .list items)]) null = .ok (string "b") ∧
      IsExtreme .lt items (string "b") ∧
      standard.evaluate (.map [("$median", .list items)]) null = .ok (int 1) ∧
      IsMedian items (int 1) ∧
      ∀ tag ∈ ["$min", "$max", "$median"],
        ∃ v v', standard.evaluate (.map [(tag, .list items)]) null = .ok v ∧
          standard.evaluate (.map [(tag, .list items')]) null = .ok v' ∧ v'.cmp v = .eq := by
  intro one items items'
  have hexact : ∀ v ∈ items, NumbersIn IsExact (fun _ => True) v := by
    have hone : IsExact 1 := Nat.le_of_ble_eq_true rfl
    have hthree : IsExact 3 := Nat.le_of_ble_eq_true rfl
    simp only [items, List.forall_mem_cons, List.not_mem_nil, false_implies, implies_true, and_true]
    exact ⟨.float trivial, .null, .int hthree, .string, .int hone⟩
  have hpre : PreorderedOn (· ∈ items) := fun a b c ha hb hc =>
    preorderedOn_exact a b c (hexact a ha) (hexact b hb) (hexact c hc)
  have hperm : items'.Perm items := by decide +kernel
  have hleast : standard.evaluate (.map [("$min", .list items)]) null = .ok one := by
    decide +kernel
  have hgreatest : standard.evaluate (.map [("$max", .list items)]) null = .ok (string "b") := by
    decide +kernel
  have hmiddle : standard.evaluate (.map [("$median", .list items)]) null = .ok (int 1) := by
    decide +kernel
  have hmin : standard.get? "$min" = some (.builtIn (.reduction .min)) := rfl
  have hmax : standard.get? "$max" = some (.builtIn (.reduction .max)) := rfl
  have hmedian : standard.get? "$median" = some (.builtIn (.reduction .median)) := rfl
  obtain ⟨v, hv, hextreme, -, -, hminPerm⟩ :=
    (evaluate_orderStatistic (by decide) hmin (.list items) null).2 items rfl hpre
  obtain rfl : one = v := Except.ok.inj (hleast.symm.trans hv)
  obtain ⟨v, hv, -, hextreme', -, hmaxPerm⟩ :=
    (evaluate_orderStatistic (by decide) hmax (.list items) null).2 items rfl hpre
  obtain rfl : string "b" = v := Except.ok.inj (hgreatest.symm.trans hv)
  obtain ⟨v, hv, -, -, hmedian', hmedianPerm⟩ :=
    (evaluate_orderStatistic (by decide) hmedian (.list items) null).2 items rfl hpre
  obtain rfl : int 1 = v := Except.ok.inj (hmiddle.symm.trans hv)
  refine ⟨hpre, hperm, hleast, hextreme rfl, hgreatest, hextreme' rfl, hmiddle, hmedian' rfl, ?_⟩
  simp only [List.forall_mem_cons, List.not_mem_nil, false_implies, implies_true, and_true]
  obtain ⟨_, hmin', htie⟩ := hminPerm (.list items') null items' rfl hperm
  obtain ⟨_, hmax', htie'⟩ := hmaxPerm (.list items') null items' rfl hperm
  obtain ⟨_, hmedian', htie''⟩ := hmedianPerm (.list items') null items' rfl hperm
  exact ⟨⟨_, _, hleast, hmin', htie⟩, ⟨_, _, hgreatest, hmax', htie'⟩,
    ⟨_, _, hmiddle, hmedian', htie''⟩⟩

end OperatorTable

end GraphQuery
