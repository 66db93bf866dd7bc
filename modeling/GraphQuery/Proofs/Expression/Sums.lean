/-
# Sums that stay whole

`sum` adds up whole numbers as long as every running total fits 64 bits.  The first real, or the first
running total that does not fit, makes the sum a real for good: a later item may bring the total back
into range, but the sum does not become whole again.  So a sum is whole just if no item is a real and
every running total fits, and then it is exact (**`sumOf_eq_int_iff`**).  What is no number is passed
over.

Running totals depend on the order.  They are bounded by the sizes of the items that were added, so a
list of items whose sizes add up to less than `2 ^ 63` has its exact sum (**`sumOf_of_bounded`**) in
whatever order they come.
-/
import GraphQuery.Proofs.Expression.Checks
import GraphQuery.Expression.Reduction
import Mathlib.Algebra.Order.BigOperators.Group.List
import Mathlib.Tactic.Ring

namespace GraphQuery

namespace Value

variable {items items' rest : List Value}

/-! ## 1. Totals -/

/-- The whole number that a value is; everything else counts as zero. -/
def whole : Value → Int
  | int i => i.toInt
  | _ => 0

/-- The sizes of the whole numbers in a list, added up. -/
def totalSize (items : List Value) : Nat := (items.map fun v => v.whole.natAbs).sum

/-- The whole numbers in a list, added up. -/
def total (items : List Value) : Int := (items.map whole).sum

@[simp]
theorem total_nil : total [] = 0 := rfl

@[simp]
theorem total_cons (v : Value) (rest : List Value) : total (v :: rest) = v.whole + total rest := rfl

theorem whole_of_not_isNumber {v : Value} (h : v.isNumber = false) : v.whole = 0 := by
  cases v with
  | int | float => exact Bool.noConfusion h
  | _ => rfl

theorem natAbs_sum_le (xs : List Int) : xs.sum.natAbs ≤ (xs.map Int.natAbs).sum := by
  induction xs with
  | nil => exact Nat.le_refl 0
  | cons x rest ih =>
    rw [List.sum_cons, List.map_cons, List.sum_cons]
    omega

theorem natAbs_total_le (items : List Value) : (total items).natAbs ≤ totalSize items := by
  refine (natAbs_sum_le (items.map whole)).trans_eq ?_
  rw [List.map_map]
  rfl

theorem total_perm (h : items'.Perm items) : total items' = total items :=
  (h.map whole).sum_eq

theorem totalSize_perm (h : items'.Perm items) : totalSize items' = totalSize items :=
  (h.map _).sum_eq

theorem totalSize_le_of_prefix {before : List Value} (h : before <+: items) :
    totalSize before ≤ totalSize items :=
  List.Sublist.sum_le_sum (h.sublist.map _) fun _ _ => Nat.zero_le _

theorem toInt_ofInt_of_natAbs_lt {n : Int} (h : n.natAbs < 0x8000000000000000) :
    (Int64.ofInt n).toInt = n :=
  toInt_ofInt_of_fits (by constructor <;> omega)

/-! ## 2. Running totals -/

/-- On top of `start`, the total of every first few items fits 64 bits. -/
def TotalsFit (start : Int) (items : List Value) : Prop :=
  ∀ before, before <+: items → FitsInt64 (start + total before)

theorem totalsFit_nil {start : Int} : TotalsFit start [] ↔ FitsInt64 start := by
  simp [TotalsFit]

theorem totalsFit_cons {start : Int} {v : Value} :
    TotalsFit start (v :: rest) ↔ FitsInt64 start ∧ TotalsFit (start + v.whole) rest := by
  constructor
  · intro h
    refine ⟨by simpa using h [] (List.nil_prefix), fun before hbefore => ?_⟩
    have hcons := h (v :: before) (List.cons_prefix_cons.mpr ⟨rfl, hbefore⟩)
    rwa [total_cons, ← Int.add_assoc] at hcons
  · rintro ⟨hstart, hrest⟩ before hbefore
    obtain rfl | ⟨before', rfl, hbefore'⟩ := List.prefix_cons_iff.mp hbefore
    · simpa using hstart
    · rw [total_cons, ← Int.add_assoc]
      exact hrest before' hbefore'

theorem TotalsFit.start {start : Int} (h : TotalsFit start items) : FitsInt64 start := by
  simpa using h [] (List.nil_prefix)

/-- Totals of items that are small together fit. -/
theorem totalsFit_of_bounded (h : totalSize items < 0x8000000000000000) : TotalsFit 0 items := by
  intro before hbefore
  have hsize := totalSize_le_of_prefix hbefore
  have htotal := natAbs_total_le before
  constructor <;> omega

/-! ## 3. Whole sums -/

theorem addWhole?_eq_some_iff {a b n : Int64} :
    addWhole? a b = some n ↔ FitsInt64 (a.toInt + b.toInt) ∧ n.toInt = a.toInt + b.toInt := by
  rw [addWhole?, Option.ite_none_right_eq_some, Option.some_inj]
  refine and_congr_right fun hfits => ?_
  rw [← Int64.toInt_inj, toInt_ofInt_of_fits hfits, eq_comm]

/-- **One pass over the numbers** comes to a whole number just if it meets no real and stays in range,
and then to the exact total. -/
theorem wholeSum?_eq_some_iff {start n : Int64} :
    wholeSum? start (numbers items) = some n ↔
      (∀ x, float x ∉ items) ∧ TotalsFit start.toInt items ∧
        n.toInt = start.toInt + total items := by
  induction items generalizing start with
  | nil =>
    have hreal : ∀ x, float x ∉ ([] : List Value) := fun _ => List.not_mem_nil
    have hfits := totalsFit_nil.mpr (fitsInt64_toInt start)
    rw [numbers, List.filter_nil, wholeSum?, Option.some_inj, total_nil, Int.add_zero,
      ← Int64.toInt_inj, eq_comm]
    exact ⟨fun h => ⟨hreal, hfits, h⟩, fun h => h.2.2⟩
  | cons v rest ih =>
    have hstart := fitsInt64_toInt start
    rw [totalsFit_cons, and_iff_right hstart, total_cons, ← Int.add_assoc]
    cases v with
    | int i =>
      have hwhole : (int i).whole = i.toInt := rfl
      rw [numbers, List.filter_cons_of_pos rfl, ← numbers, wholeSum?, Option.bind_eq_some_iff,
        hwhole]
      constructor
      · rintro ⟨next, hnext, hsum⟩
        obtain ⟨-, hvalue⟩ := addWhole?_eq_some_iff.mp hnext
        obtain ⟨hreal, hfit, hn⟩ := ih.mp hsum
        rw [hvalue] at hfit hn
        exact ⟨by simpa using hreal, hfit, hn⟩
      · rintro ⟨hreal, hfit, hn⟩
        have hnext := toInt_ofInt_of_fits hfit.start
        refine ⟨_, addWhole?_eq_some_iff.mpr ⟨hfit.start, hnext⟩, ih.mpr ⟨by simpa using hreal, ?_⟩⟩
        rw [hnext]
        exact ⟨hfit, hn⟩
    | float x =>
      rw [numbers, List.filter_cons_of_pos rfl, wholeSum?]
      · exact ⟨fun h => absurd h (Option.some_ne_none n).symm,
          fun h => absurd List.mem_cons_self (h.1 x)⟩
      · exact fun i hi => Value.noConfusion hi
    -- what is no number is passed over and adds nothing
    | _ =>
      rw [numbers, List.filter_cons_of_neg Bool.false_ne_true, ← numbers, ih,
        whole_of_not_isNumber rfl, Int.add_zero]
      simp

/-- **When a sum is whole, and which number it is then.** -/
theorem sumOf_eq_int_iff {n : Int64} :
    sumOf items = int n ↔
      (∀ x, float x ∉ items) ∧ TotalsFit 0 items ∧ n.toInt = total items := by
  have hiff := @wholeSum?_eq_some_iff items 0 n
  rw [show (0 : Int64).toInt = 0 from rfl, Int.zero_add] at hiff
  rw [← hiff, sumOf]
  cases wholeSum? 0 (numbers items) <;> simp

/-- A sum is a number of one kind or the other. -/
theorem sumOf_eq_int_or_float (items : List Value) :
    (∃ n, sumOf items = int n) ∨ ∃ x, sumOf items = float x := by
  rw [sumOf]
  cases wholeSum? 0 (numbers items) with
  | some n => exact .inl ⟨n, rfl⟩
  | none => exact .inr ⟨_, rfl⟩

/-- Only the numbers are added. -/
theorem sumOf_congr (h : numbers items' = numbers items) : sumOf items' = sumOf items := by
  rw [sumOf, sumOf, floats, floats, h]

/-- **A bounded sum of whole numbers is exact.** -/
theorem sumOf_of_bounded (hwhole : ∀ x, float x ∉ items)
    (hbound : totalSize items < 0x8000000000000000) :
    sumOf items = int (Int64.ofInt (total items)) := by
  have hexact := toInt_ofInt_of_natAbs_lt ((natAbs_total_le items).trans_lt hbound)
  exact sumOf_eq_int_iff.mpr ⟨hwhole, totalsFit_of_bounded hbound, hexact⟩

/-- **A bounded whole sum does not depend on the order.** -/
theorem sumOf_perm_of_bounded (h : items'.Perm items) {n : Int64} (hsum : sumOf items = int n)
    (hbound : totalSize items < 0x8000000000000000) : sumOf items' = int n := by
  obtain ⟨hreal, -, hn⟩ := sumOf_eq_int_iff.mp hsum
  refine sumOf_eq_int_iff.mpr ⟨fun x hx => hreal x (h.mem_iff.mp hx), ?_, ?_⟩
  · exact totalsFit_of_bounded (totalSize_perm h ▸ hbound)
  · rw [hn, total_perm h]

end Value

/-! ## 4. The operator -/

open Value in
/-- **A sum is the exact whole number or visibly a real.**  Whatever operand and input `sum` accepts,
its value is whole just if no item is a real and every running total fits 64 bits; then it is the
exact total, and in every other case it is a real.  Items that are no numbers do not count, wherever
they stand, and neither does the order of the items when the sum is whole and their sizes add up to
no more than the largest whole number. -/
theorem OperatorTable.evaluate_sum_exact {t : OperatorTable} {tag : String}
    (h : t.get? tag = some (.builtIn (.reduction .sum))) {operand input v : Value}
    (hv : t.evaluate (.map [(tag, operand)]) input = .ok v) :
    ∃ items, t.reducedItems .sum operand input = .ok items ∧
      ((∃ n, v = int n) ↔
        (∀ x, float x ∉ items) ∧ ∀ before, before <+: items → FitsInt64 (total before)) ∧
      (∀ n, v = int n → n.toInt = total items) ∧
      ((∀ n, v ≠ int n) → ∃ x, v = float x) ∧
      ∀ operand' input' items', t.reducedItems .sum operand' input' = .ok items' →
        (items'.filter isNumber = items.filter isNumber →
          t.evaluate (.map [(tag, operand')]) input' = .ok v) ∧
        (items'.Perm items → (∃ n, v = int n) → totalSize items ≤ 0x7fffffffffffffff →
          t.evaluate (.map [(tag, operand')]) input' = .ok v) := by
  rw [evaluate_reduction h, bind_eq_ok] at hv
  obtain ⟨items, hitems, hv⟩ := hv
  obtain rfl : sumOf items = v := Except.ok.inj hv
  refine ⟨items, hitems, ?_, ?_, ?_, fun operand' input' items' hitems' => ?_⟩
  · have hfit : TotalsFit 0 items ↔
        ∀ before, before <+: items → FitsInt64 (total before) := by
      simp only [TotalsFit, Int.zero_add]
    constructor
    · rintro ⟨n, hn⟩
      obtain ⟨hreal, htotals, -⟩ := sumOf_eq_int_iff.mp hn
      exact ⟨hreal, hfit.mp htotals⟩
    · rintro ⟨hreal, htotals⟩
      have hexact := toInt_ofInt_of_fits (htotals items List.prefix_rfl)
      exact ⟨_, sumOf_eq_int_iff.mpr ⟨hreal, hfit.mpr htotals, hexact⟩⟩
  · exact fun n hn => (sumOf_eq_int_iff.mp hn).2.2
  · intro hnone
    obtain ⟨n, hn⟩ | hreal := sumOf_eq_int_or_float items
    · exact absurd hn (hnone n)
    · exact hreal
  · rw [evaluate_reduction h, hitems']
    refine ⟨fun hnumbers => congrArg Except.ok (sumOf_congr hnumbers), ?_⟩
    rintro hperm ⟨n, hn⟩ hbound
    have hsum : sumOf items = int n := hn
    have hsum' := sumOf_perm_of_bounded hperm hsum (Nat.lt_succ_of_le hbound)
    exact congrArg Except.ok (hsum'.trans hsum.symm)

open Value in
/-- A sum that turns back before it passes the largest whole number, and the same items in an order
in which it passes it. -/
theorem OperatorTable.evaluate_sum_exact_largest :
    let largest : Int64 := 0x7fffffffffffffff
    let items := [int largest, string "x", int (-5), null, int 5]
    let items' := [int largest, int 5, null, int (-5), string "x"]
    let x := Binary64.ofInt 0x8000000000000000
    standard.get? "$sum" = some (.builtIn (.reduction .sum)) ∧ items'.Perm items ∧
      standard.evaluate (.map [("$sum", .list items)]) .null = .ok (int largest) ∧
      (∀ before, before <+: items → FitsInt64 (total before)) ∧
      standard.evaluate (.map [("$sum", .list items')]) .null = .ok (float x) ∧
      ¬∀ before, before <+: items' → FitsInt64 (total before) := by
  intro largest items items' x
  have hget : standard.get? "$sum" = some (.builtIn (.reduction .sum)) := rfl
  have hwhole : standard.evaluate (.map [("$sum", .list items)]) .null = .ok (int largest) := by
    decide +kernel
  have hreal : standard.evaluate (.map [("$sum", .list items')]) .null = .ok (float x) := by
    decide +kernel
  obtain ⟨_, hitems, hiff, -⟩ := evaluate_sum_exact hget hwhole
  obtain ⟨_, hitems', hiff', -⟩ := evaluate_sum_exact hget hreal
  cases hitems
  cases hitems'
  refine ⟨hget, by decide, hwhole, (hiff.mp ⟨_, rfl⟩).2, hreal, fun hfit => ?_⟩
  obtain ⟨n, hn⟩ := hiff'.mpr ⟨by simp [items'], hfit⟩
  exact Value.noConfusion hn

end GraphQuery
