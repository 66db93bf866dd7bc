/-
# Less, equal or greater

Equality and order of values are two relations.  Both round a whole number that meets a floating point
number; then equality is that of the numbers, and the order is the total one, in which the negative
zero comes before the positive one.  The six comparison operators ask one relation or the other, or
the order for both.

**`comparisons_trichotomy`: for two numbers, two texts or two truth values the operators fit together
as those of one order do, exactly if the two are not zeros with different signs.**  The whole number
zero counts as positive, so it equals the negative zero and is greater than it
(`trichotomy_fails`).

NaN is no number here.  It equals nothing, itself included, and yet has a place in the order.
-/
import GraphQuery.Proofs.Binary64.Rounding
import GraphQuery.Proofs.Expression.Checks
import GraphQuery.Proofs.Value.Order

namespace GraphQuery

/-! ## 1. Zeros -/

namespace Binary64

variable {x y : Binary64}

theorem isNaN_ofInt (i : Int) : (ofInt i).isNaN = false := by
  rw [isNaN, decide_eq_false_iff_not, magnitude_ofInt]
  exact Nat.not_lt.mpr (Nat.min_le_right _ _)

/-- Only zero rounds to a zero. -/
theorem isZero_ofInt (i : Int) : (ofInt i).isZero = decide (i = 0) := by
  by_cases hi : i = 0
  · rw [hi]
    decide +kernel
  · have hone : 0 < (ofInt 1).magnitude.val := by decide +kernel
    have hmono : (ofInt 1).magnitude.val ≤ (ofInt i).magnitude.val :=
      magnitude_ofInt_mono (by omega)
    rw [isZero, decide_eq_false hi, decide_eq_false_iff_not]
    omega

/-- Zeros with one sign are one number. -/
theorem eq_of_isZero (hx : x.isZero = true) (hy : y.isZero = true)
    (h : x.negative = y.negative) : x = y := by
  obtain ⟨sx, mx⟩ := x
  obtain ⟨sy, my⟩ := y
  simp only [isZero, decide_eq_true_eq] at hx hy
  rw [Fin.ext (hx.trans hy.symm), show sx = sy from h]

theorem compare_eq_eq_iff : x.compare y = .eq ↔ x = y :=
  ⟨fun h => orderKey_injective (Std.LawfulEqOrd.eq_of_compare h),
    fun h => by rw [h]; exact Std.compare_self⟩

/-- Among numbers that are no NaN, the equal ones are those that tie, and the zeros. -/
theorem eqv_iff (hx : x.isNaN = false) (hy : y.isNaN = false) :
    x.eqv y = true ↔ x.compare y = .eq ∨
      x.isZero = true ∧ y.isZero = true ∧ y.negative = !x.negative := by
  rw [compare_eq_eq_iff, eqv, hx, hy, Bool.not_false, Bool.true_and, Bool.true_and, Bool.or_eq_true,
    beq_iff_eq, Bool.and_eq_true]
  by_cases hsign : x.negative = y.negative
  · have hne : ¬y.negative = !x.negative := by simp [hsign]
    simp only [hne, and_false, or_false]
    exact ⟨fun h => h.elim id fun hzero => eq_of_isZero hzero.1 hzero.2 hsign, Or.inl⟩
  · have hnot : y.negative = !x.negative := by
      cases hx' : x.negative <;> cases hy' : y.negative <;> simp_all
    simp only [hnot, and_true]

end Binary64

namespace Value

variable {x y : Value}

/-- The sign of a zero of either kind; the whole number has none, and counts as positive. -/
def zeroSign? : Value → Option Bool
  | int i => if i = 0 then some false else none
  | float x => if x.isZero then some x.negative else none
  | _ => none

/-- Two zeros, one of them negative. -/
def OppositeZeros (x y : Value) : Prop :=
  ∃ negative, x.zeroSign? = some negative ∧ y.zeroSign? = some !negative

theorem zeroSign?_ofInt (i : Int64) : (float (.ofInt i.toInt)).zeroSign? = (int i).zeroSign? := by
  have hzero : i.toInt = 0 ↔ i = 0 := ⟨fun h => Int64.toInt_inj.mp h, fun h => by rw [h]; rfl⟩
  rw [zeroSign?, zeroSign?, Binary64.isZero_ofInt, Binary64.negative_ofInt]
  simp only [hzero, decide_eq_true_eq]
  split
  · next h => rw [h]; rfl
  · rfl

/-! ## 2. Equality and order -/

/-- The value is a number, and not NaN. -/
inductive Orderable : Value → Prop
  | int (i : Int64) : Orderable (.int i)
  | float {a : Binary64} (h : a.isNaN = false) : Orderable (.float a)

/-- Both values are numbers, NaN apart, or both are texts, or both are truth values. -/
inductive Comparable : Value → Value → Prop
  | numbers {x y : Value} (hx : x.Orderable) (hy : y.Orderable) : Comparable x y
  | texts (a b : String) : Comparable (.string a) (.string b)
  | truths (a b : Bool) : Comparable (.bool a) (.bool b)

theorem oppositeZeros_floats {a b : Binary64} :
    OppositeZeros (float a) (float b) ↔
      a.isZero = true ∧ b.isZero = true ∧ b.negative = !a.negative := by
  simp only [OppositeZeros, zeroSign?, Option.ite_none_right_eq_some, Option.some.injEq]
  constructor
  · rintro ⟨negative, ⟨ha, rfl⟩, hb, hsign⟩
    exact ⟨ha, hb, hsign⟩
  · rintro ⟨ha, hb, hsign⟩
    exact ⟨a.negative, ⟨ha, rfl⟩, hb, hsign⟩

theorem looseEq_floats {a b : Binary64} (ha : a.isNaN = false) (hb : b.isNaN = false) :
    (float a).looseEq (float b) = true ↔
      (float a).cmp (float b) = .eq ∨ OppositeZeros (float a) (float b) := by
  rw [looseEq, cmp, Binary64.eqv_iff ha hb, oppositeZeros_floats]

/-- A whole number that meets a floating point number is first rounded, which keeps its sign if it is
zero. -/
theorem oppositeZeros_ofInt_left {i : Int64} :
    OppositeZeros (int i) y ↔ OppositeZeros (float (.ofInt i.toInt)) y := by
  rw [OppositeZeros, OppositeZeros, zeroSign?_ofInt]

theorem oppositeZeros_ofInt_right {i : Int64} :
    OppositeZeros x (int i) ↔ OppositeZeros x (float (.ofInt i.toInt)) := by
  rw [OppositeZeros, OppositeZeros, zeroSign?_ofInt]

theorem not_oppositeZeros_ints (i j : Int64) : ¬OppositeZeros (int i) (int j) := by
  simp only [OppositeZeros, zeroSign?, Option.ite_none_right_eq_some, Option.some.injEq]
  rintro ⟨negative, ⟨-, rfl⟩, -, hsign⟩
  cases hsign

theorem compareText_eq_eq_iff {a b : String} : compareText a b = .eq ↔ a = b := by
  unfold compareText
  split
  · next hlt =>
    refine iff_of_false nofun ?_
    rintro rfl
    exact String.lt_irrefl a hlt
  · split <;> simp [*]

/-- **Equality and order tie the same values, but for zeros with different signs.** -/
theorem looseEq_iff (h : Comparable x y) :
    x.looseEq y = true ↔ x.cmp y = .eq ∨ OppositeZeros x y := by
  cases h with
  | texts a b =>
    have hzeros : ¬OppositeZeros (string a) (string b) := fun ⟨_, hx, _⟩ => nomatch hx
    rw [looseEq, cmp, beq_iff_eq, compareText_eq_eq_iff, or_iff_left hzeros]
  | truths a b =>
    have hzeros : ¬OppositeZeros (bool a) (bool b) := fun ⟨_, hx, _⟩ => nomatch hx
    rw [looseEq, cmp, beq_iff_eq, or_iff_left hzeros]
    exact Std.LawfulEqOrd.compare_eq_iff_eq.symm
  | numbers hx hy =>
    cases hx with
    | int i =>
      cases hy with
      | int j =>
        rw [looseEq, cmp, beq_iff_eq, or_iff_left (not_oppositeZeros_ints i j),
          Std.LawfulEqOrd.compare_eq_iff_eq, Int64.toInt_inj]
      | float hb =>
        rw [oppositeZeros_ofInt_left]
        exact looseEq_floats (Binary64.isNaN_ofInt _) hb
    | float ha =>
      cases hy with
      | int j =>
        rw [oppositeZeros_ofInt_right, looseEq, Binary64.eqv_comm]
        exact looseEq_floats ha (Binary64.isNaN_ofInt _)
      | float hb => exact looseEq_floats ha hb

/-- Zeros with different signs do not tie. -/
theorem cmp_ne_eq_of_oppositeZeros (h : OppositeZeros x y) : x.cmp y ≠ .eq := by
  have hfloats : ∀ {a b : Binary64}, OppositeZeros (float a) (float b) →
      (float a).cmp (float b) ≠ .eq := by
    intro a b hab hcmp
    rw [cmp, Binary64.compare_eq_eq_iff] at hcmp
    obtain ⟨-, -, hsign⟩ := oppositeZeros_floats.mp hab
    simp [hcmp] at hsign
  obtain ⟨negative, hx, hy⟩ := id h
  cases x with
  | int i =>
    cases y with
    | int j => exact absurd h (not_oppositeZeros_ints i j)
    | float b => exact hfloats (oppositeZeros_ofInt_left.mp h)
    | _ => cases hy
  | float a =>
    cases y with
    | int j => exact hfloats (oppositeZeros_ofInt_right.mp h)
    | float b => exact hfloats h
    | _ => cases hy
  | _ => cases hx

end Value

/-! ## 3. Comparison operators -/

namespace OperatorTable

variable {t : OperatorTable} {x y : Value}

/-- The tags of the comparisons have their operators. -/
structure Comparisons (t : OperatorTable) : Prop where
  eq : t.get? "$eq" = some (.builtIn (.comparison .eq))
  ne : t.get? "$ne" = some (.builtIn (.comparison .ne))
  lt : t.get? "$lt" = some (.builtIn (.comparison .lt))
  lte : t.get? "$lte" = some (.builtIn (.comparison .lte))
  gt : t.get? "$gt" = some (.builtIn (.comparison .gt))
  gte : t.get? "$gte" = some (.builtIn (.comparison .gte))

/-- The expression with the tag and the operand is true of the input. -/
def IsTrue (t : OperatorTable) (tag : String) (operand input : Value) : Prop :=
  t.evaluate (.map [(tag, operand)]) input = .ok (.bool true)

theorem isExpression_of_comparable (h : Value.Comparable x y) : t.isExpression y = false := by
  cases h with
  | texts => rfl
  | truths => rfl
  | numbers _ hy => cases hy <;> rfl

theorem compareWithin?_of_comparable (h : Value.Comparable x y) :
    x.compareWithin? y = some (x.cmp y) := by
  cases h with
  | texts => rfl
  | truths => rfl
  | numbers hx hy => cases hx <;> cases hy <;> rfl

/-- A comparison of an input with such an operand has the answer of its test. -/
theorem evaluate_of_test {tag : String} {c : Comparison} {b : Bool}
    (h : t.get? tag = some (.builtIn (.comparison c))) (hxy : Value.Comparable x y)
    (htest : c.test x y = .ok b) : t.evaluate (.map [(tag, y)]) x = .ok (.bool b) := by
  rw [evaluate_comparison h (isExpression_of_comparable hxy), htest]
  rfl

theorem isTrue_iff {tag : String} {c : Comparison} {b : Bool}
    (h : t.get? tag = some (.builtIn (.comparison c))) (hxy : Value.Comparable x y)
    (htest : c.test x y = .ok b) : t.IsTrue tag y x ↔ b = true := by
  rw [IsTrue, evaluate_of_test h hxy htest]
  simp

/-- A comparison by order looks at the order of the values alone. -/
theorem isTrue_ordered_iff {tag : String} {c : Comparison} {accept : Ordering → Bool}
    (h : t.get? tag = some (.builtIn (.comparison c))) (hxy : Value.Comparable x y)
    (htest : c.test x y = .ok (Comparison.ordered accept x y)) :
    t.IsTrue tag y x ↔ accept (x.cmp y) = true := by
  rw [isTrue_iff h hxy htest, Comparison.ordered, compareWithin?_of_comparable hxy, Option.any_some]

/-! ## 4. Trichotomy -/

/-- Of an input, exactly one of the tests for less, equal and greater than the operand is true; the
tests that admit equality are true where one of their two parts is, and the test for a difference
where that for equality is not. -/
structure Trichotomy (t : OperatorTable) (operand input : Value) : Prop where
  one :
    (t.IsTrue "$lt" operand input ∧ ¬t.IsTrue "$eq" operand input ∧
      ¬t.IsTrue "$gt" operand input) ∨
    (¬t.IsTrue "$lt" operand input ∧ t.IsTrue "$eq" operand input ∧
      ¬t.IsTrue "$gt" operand input) ∨
    (¬t.IsTrue "$lt" operand input ∧ ¬t.IsTrue "$eq" operand input ∧
      t.IsTrue "$gt" operand input)
  lte : t.IsTrue "$lte" operand input ↔
    t.IsTrue "$lt" operand input ∨ t.IsTrue "$eq" operand input
  gte : t.IsTrue "$gte" operand input ↔
    t.IsTrue "$gt" operand input ∨ t.IsTrue "$eq" operand input
  ne : t.IsTrue "$ne" operand input ↔ ¬t.IsTrue "$eq" operand input

theorem exists_evaluate_comparison (h : t.Comparisons) (hxy : Value.Comparable x y) :
    ∀ tag ∈ ["$eq", "$ne", "$lt", "$lte", "$gt", "$gte"],
      ∃ b, t.evaluate (.map [(tag, y)]) x = .ok (.bool b) := by
  simp only [List.forall_mem_cons, List.not_mem_nil, false_implies, implies_true, and_true]
  exact ⟨⟨_, evaluate_of_test h.eq hxy rfl⟩, ⟨_, evaluate_of_test h.ne hxy rfl⟩,
    ⟨_, evaluate_of_test h.lt hxy rfl⟩, ⟨_, evaluate_of_test h.lte hxy rfl⟩,
    ⟨_, evaluate_of_test h.gt hxy rfl⟩, ⟨_, evaluate_of_test h.gte hxy rfl⟩⟩

/-- **When comparisons form a trichotomy.**  For two numbers, two texts or two truth values all
comparisons have an answer, and they agree as those of an order do, unless the two are zeros with
different signs.  Such zeros are equal, and yet one of them is less than the other. -/
theorem comparisons_trichotomy (t : OperatorTable) (h : t.Comparisons) (x y : Value)
    (hxy : Value.Comparable x y) :
    (∀ tag ∈ ["$eq", "$ne", "$lt", "$lte", "$gt", "$gte"],
      ∃ b, t.evaluate (.map [(tag, y)]) x = .ok (.bool b)) ∧
    (t.Trichotomy y x ↔ ¬Value.OppositeZeros x y) ∧
    (Value.OppositeZeros x y →
      t.IsTrue "$eq" y x ∧ ¬t.IsTrue "$ne" y x ∧ (t.IsTrue "$lt" y x ↔ ¬t.IsTrue "$gt" y x) ∧
        (t.IsTrue "$lte" y x ↔ t.IsTrue "$lt" y x) ∧
        (t.IsTrue "$gte" y x ↔ t.IsTrue "$gt" y x)) := by
  have heq : t.IsTrue "$eq" y x ↔ x.looseEq y = true := isTrue_iff h.eq hxy rfl
  have hne : t.IsTrue "$ne" y x ↔ (!x.looseEq y) = true := isTrue_iff h.ne hxy rfl
  have hlt : t.IsTrue "$lt" y x ↔ (x.cmp y == .lt) = true := isTrue_ordered_iff h.lt hxy rfl
  have hlte : t.IsTrue "$lte" y x ↔ (x.cmp y != .gt) = true := isTrue_ordered_iff h.lte hxy rfl
  have hgt : t.IsTrue "$gt" y x ↔ (x.cmp y == .gt) = true := isTrue_ordered_iff h.gt hxy rfl
  have hgte : t.IsTrue "$gte" y x ↔ (x.cmp y != .lt) = true := isTrue_ordered_iff h.gte hxy rfl
  refine ⟨exists_evaluate_comparison h hxy, ⟨?_, ?_⟩, ?_⟩
  · rintro ⟨hone, -, -, -⟩ hzeros
    -- the zeros are equal, so neither may be less than the other
    have hcmp := Value.cmp_ne_eq_of_oppositeZeros hzeros
    rw [heq, hlt, hgt, (Value.looseEq_iff hxy).mpr (Or.inr hzeros)] at hone
    cases ho : x.cmp y <;> simp [ho] at hone hcmp
  · intro hzeros
    have hequal : x.looseEq y = (x.cmp y == .eq) := by
      rw [Bool.eq_iff_iff, Value.looseEq_iff hxy, or_iff_left hzeros, beq_iff_eq]
    cases ho : x.cmp y <;> constructor <;> simp [heq, hne, hlt, hlte, hgt, hgte, hequal, ho]
  · intro hzeros
    have hequal : x.looseEq y = true := (Value.looseEq_iff hxy).mpr (Or.inr hzeros)
    have hcmp := Value.cmp_ne_eq_of_oppositeZeros hzeros
    cases ho : x.cmp y <;> simp [heq, hne, hlt, hlte, hgt, hgte, hequal, ho] at hcmp ⊢

theorem comparisons_standard : standard.Comparisons := ⟨rfl, rfl, rfl, rfl, rfl, rfl⟩

/-- A whole number of 54 bits and the floating point number to which it is rounded. -/
theorem comparisons_trichotomy_rounded :
    let x := Value.int 9007199254740993
    let y := Value.float (.ofInt 9007199254740992)
    standard.Comparisons ∧ Value.Comparable x y ∧ standard.Trichotomy y x ∧
      standard.IsTrue "$eq" y x := by
  intro x y
  have hxy : Value.Comparable x y :=
    .numbers (.int _) (.float (Binary64.isNaN_ofInt _))
  have hzeros : ¬Value.OppositeZeros x y := fun ⟨_, hx, _⟩ => nomatch hx
  exact ⟨comparisons_standard, hxy,
    (comparisons_trichotomy standard comparisons_standard x y hxy).2.1.mpr hzeros,
    (isTrue_iff comparisons_standard.eq hxy rfl).mpr (by decide +kernel)⟩

/-- The whole number zero equals the negative zero and is greater. -/
theorem trichotomy_fails :
    standard.Comparisons ∧ Value.Comparable (.int 0) (.float (.zero true)) ∧
      (Binary64.zero true).isFinite = true ∧
      standard.IsTrue "$eq" (.float (.zero true)) (.int 0) ∧
      standard.IsTrue "$gt" (.float (.zero true)) (.int 0) ∧
      ¬standard.Trichotomy (.float (.zero true)) (.int 0) := by
  have hxy : Value.Comparable (.int 0) (.float (.zero true)) :=
    .numbers (.int 0) (.float (by decide))
  have heq : standard.IsTrue "$eq" (.float (.zero true)) (.int 0) :=
    (isTrue_iff comparisons_standard.eq hxy rfl).mpr (by decide +kernel)
  have hgt : standard.IsTrue "$gt" (.float (.zero true)) (.int 0) :=
    (isTrue_ordered_iff comparisons_standard.gt hxy rfl).mpr (by decide +kernel)
  refine ⟨comparisons_standard, hxy, by decide, heq, hgt, ?_⟩
  rintro ⟨⟨-, -, h⟩ | ⟨-, -, h⟩ | ⟨-, h, -⟩, -, -, -⟩
  · exact h hgt
  · exact h hgt
  · exact h heq

end OperatorTable

end GraphQuery
