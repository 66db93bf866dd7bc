/-
# A decimal that reads back names one number

The shortest decimal of a number is looked for among the reals that round to it.  Two things make
it a name of that number.

* The intervals of neighbours meet at their ends (`upperEnd_eq_lowerEnd`), and the common end is
  given to the one with the even significand.  So no real rounds to two magnitudes
  (**`magnitude_eq_of_roundsHere`**).
* The search ends inside the interval (**`roundsHere_shortestDecimal`**): every grid that answers
  answers with a point that reads back, and the finest grid always does, since its step is smaller
  than any interval.

Both hold of every number but zero, whatever its sign.
-/
import GraphQuery.Decimal.Shortest

namespace GraphQuery

namespace Binary64

/-! ## 1. The ends of intervals -/

/-- The lower end of the interval of a number, in half units. -/
def lowerEnd (x : Binary64) : Nat := 2 * x.units - x.lowerGap

/-- The upper end of the interval of a number, in half units. -/
def upperEnd (x : Binary64) : Nat := 2 * x.units + x.upperGap

variable {x y : Binary64}

theorem exponentUnit_eq : exponentUnit = 0x10000000000000 := rfl

theorem gridFactor_pos : 0 < gridFactor := Nat.pos_of_ne_zero (by decide +kernel)

theorem lowerGap_pos (x : Binary64) : 0 < x.lowerGap := by
  unfold lowerGap
  split <;> exact Nat.pow_pos (by decide)

theorem lowerGap_le (x : Binary64) : x.lowerGap ≤ Nat.pow 2 x.scale := by
  unfold lowerGap
  split
  · exact Nat.pow_le_pow_right (by decide) (by omega)
  · exact Nat.le_refl _

theorem significand_pos (hx : x.isZero = false) : 0 < x.significand := by
  have hm : x.magnitude.val ≠ 0 := by simpa [isZero] using hx
  have hu := exponentUnit_eq
  unfold significand
  split <;> omega

/-- The unit in the last place of a number is at most the number. -/
theorem pow_scale_le_units (hx : x.isZero = false) : Nat.pow 2 x.scale ≤ x.units :=
  Nat.le_mul_of_pos_left _ (significand_pos hx)

theorem lowerGap_le_units (hx : x.isZero = false) : x.lowerGap ≤ x.units :=
  Nat.le_trans (lowerGap_le x) (pow_scale_le_units hx)

theorem lowerEnd_lt_upperEnd (x : Binary64) : x.lowerEnd < x.upperEnd := by
  have hgap : 0 < x.upperGap := Nat.pow_pos (by decide)
  unfold lowerEnd upperEnd
  omega

/-- The last bit of a magnitude is that of the significand. -/
theorem significand_mod_two (x : Binary64) : x.significand % 2 = x.magnitude.val % 2 := by
  unfold significand
  rw [exponentUnit_eq]
  split <;> omega

/-- **The intervals of neighbours meet.**  Where the exponent grows by one, the gap below the
greater number is half the gap above it, and so the gap above the smaller one. -/
theorem upperEnd_eq_lowerEnd (h : y.magnitude.val = x.magnitude.val + 1) :
    x.upperEnd = y.lowerEnd := by
  have hu := exponentUnit_eq
  unfold upperEnd lowerEnd upperGap lowerGap units
  by_cases hsub : y.magnitude.val < exponentUnit
  · -- both are below the first power of two and counted in units
    have hx : x.magnitude.val < exponentUnit := by omega
    rw [show x.scale = 0 from if_pos hx, show y.scale = 0 from if_pos hsub,
      show x.significand = x.magnitude.val from if_pos hx,
      show y.significand = y.magnitude.val from if_pos hsub, if_neg (by simp)]
    simp only [Nat.pow_eq, Nat.pow_zero]
    omega
  · have hyscale : y.scale = y.magnitude.val / exponentUnit - 1 := if_neg hsub
    have hysig : y.significand = exponentUnit + y.magnitude.val % exponentUnit := if_neg hsub
    by_cases hx : x.magnitude.val < exponentUnit
    · -- the first power of two is still counted in units
      have hy : y.magnitude.val = exponentUnit := by omega
      have hscale : y.scale = 0 := by rw [hyscale, hy, hu]
      rw [show x.scale = 0 from if_pos hx, show x.significand = x.magnitude.val from if_pos hx,
        hscale, hysig, hy, if_neg (by simp)]
      simp only [Nat.pow_eq, Nat.pow_zero, Nat.mod_self]
      omega
    · have hxscale : x.scale = x.magnitude.val / exponentUnit - 1 := if_neg hx
      have hxsig : x.significand = exponentUnit + x.magnitude.val % exponentUnit := if_neg hx
      by_cases hcarry : y.magnitude.val % exponentUnit = 0
      · -- the significand of `x` is the last of its exponent
        rw [hu] at hcarry hyscale hysig hxscale hxsig hx hsub
        have hscale : y.scale = x.scale + 1 := by omega
        have hxlast : x.significand = 2 * exponentUnit - 1 := by omega
        have hyfirst : y.significand = exponentUnit := by omega
        rw [hxlast, hyfirst, hscale, if_pos ⟨rfl, by omega⟩, Nat.add_sub_cancel]
        have hpow : Nat.pow 2 (x.scale + 1) = 2 * Nat.pow 2 x.scale := by
          simp only [Nat.pow_eq, Nat.pow_succ, Nat.mul_comm]
        rw [hpow, hu]
        generalize Nat.pow 2 x.scale = p
        omega
      · rw [hu] at hcarry hyscale hysig hxscale hxsig hx hsub
        have hscale : y.scale = x.scale := by omega
        have hsig : y.significand = x.significand + 1 := by omega
        rw [hsig, hscale, if_neg (by omega), Nat.add_mul]
        generalize Nat.pow 2 x.scale = p
        omega

/-- The interval of a smaller number ends where that of a greater one begins, or before. -/
theorem upperEnd_le_lowerEnd (h : x.magnitude.val < y.magnitude.val) :
    x.upperEnd ≤ y.lowerEnd := by
  obtain ⟨d, hd⟩ := Nat.exists_eq_add_of_lt h
  induction d generalizing x with
  | zero => exact Nat.le_of_eq (upperEnd_eq_lowerEnd hd)
  | succ d ih =>
    -- from the next number on there is one step less to go
    let z : Binary64 := ⟨false, x.magnitude.val + 1, by have := y.magnitude.isLt; omega⟩
    have hz : z.magnitude.val = x.magnitude.val + 1 := rfl
    have hzy : z.upperEnd ≤ y.lowerEnd := ih (by omega) (by omega)
    have hxz : x.upperEnd = z.lowerEnd := upperEnd_eq_lowerEnd hz
    have hz' := lowerEnd_lt_upperEnd z
    omega

/-! ## 2. No real rounds to two magnitudes -/

theorem bounds_of_roundsHere {p : Nat} (h : x.roundsHere p = true) :
    x.lowerEnd * gridFactor ≤ p ∧ p ≤ x.upperEnd * gridFactor := by
  unfold roundsHere at h
  unfold lowerEnd upperEnd
  split at h <;> simp only [decide_eq_true_eq] at h <;> omega

/-- A number with an odd significand does not own the ends of its interval. -/
theorem strict_bounds_of_roundsHere {p : Nat} (h : x.roundsHere p = true)
    (hodd : x.magnitude.val % 2 = 1) :
    x.lowerEnd * gridFactor < p ∧ p < x.upperEnd * gridFactor := by
  unfold roundsHere at h
  rw [if_neg (by rw [significand_mod_two]; omega)] at h
  exact of_decide_eq_true h

theorem not_roundsHere_of_lt {p : Nat} (hlt : x.magnitude.val < y.magnitude.val)
    (hx : x.roundsHere p = true) : ¬ y.roundsHere p = true := by
  intro hy
  have hxp := (bounds_of_roundsHere hx).2
  have hyp := (bounds_of_roundsHere hy).1
  have hmeet : y.lowerEnd ≤ x.upperEnd :=
    Nat.le_of_mul_le_mul_right (Nat.le_trans hyp hxp) gridFactor_pos
  -- so the two are neighbours: any number between them has an interval of its own
  have hnext : y.magnitude.val = x.magnitude.val + 1 := by
    refine Decidable.byContradiction fun hne => ?_
    let z : Binary64 := ⟨false, x.magnitude.val + 1, by have := y.magnitude.isLt; omega⟩
    have hz : z.magnitude.val = x.magnitude.val + 1 := rfl
    have hxz : x.upperEnd = z.lowerEnd := upperEnd_eq_lowerEnd hz
    have hzy : z.upperEnd ≤ y.lowerEnd := upperEnd_le_lowerEnd (by omega)
    have hz' := lowerEnd_lt_upperEnd z
    omega
  -- `p` is their common end, and the one with the odd significand does not own it
  have hends : x.upperEnd = y.lowerEnd := upperEnd_eq_lowerEnd hnext
  rcases Nat.mod_two_eq_zero_or_one x.magnitude.val with heven | hodd
  · have := (strict_bounds_of_roundsHere hy (by omega)).1
    rw [hends] at hxp
    omega
  · have := (strict_bounds_of_roundsHere hx hodd).2
    rw [hends] at this
    omega

/-- **No real rounds to two magnitudes.** -/
theorem magnitude_eq_of_roundsHere {p : Nat} (hx : x.roundsHere p = true)
    (hy : y.roundsHere p = true) : x.magnitude = y.magnitude := by
  rcases Nat.lt_trichotomy x.magnitude.val y.magnitude.val with hlt | heq | hgt
  · exact absurd hy (not_roundsHere_of_lt hlt hx)
  · exact Fin.ext heq
  · exact absurd hx (not_roundsHere_of_lt hgt hy)

/-! ## 3. The search ends inside the interval -/

/-- A grid answers only with points that read back. -/
theorem roundsHere_of_gridPoint? {i c : Nat} (h : x.gridPoint? i = some c) :
    x.roundsHere (c * gridStep i) = true := by
  unfold gridPoint? at h
  dsimp only at h
  split at h
  · next hbelow habove =>
    rw [← apply_ite some, ← apply_ite some] at h
    rcases Option.some.inj h with rfl
    split
    · exact hbelow
    · split
      · exact habove
      · split
        · exact hbelow
        · exact habove
  · next hbelow _ =>
    rcases Option.some.inj h with rfl
    exact hbelow
  · next _ habove =>
    rcases Option.some.inj h with rfl
    exact habove
  · exact absurd h (by simp)

/-- The finest grid has a smaller step than any interval is wide. -/
theorem gridStep_zero_lt : gridStep 0 < gridFactor := by decide +kernel

/-- The finest grid always answers: its last point not beyond the number reads back. -/
theorem gridPoint?_zero_ne_none (hx : x.isZero = false) : x.gridPoint? 0 ≠ none := by
  have hbelow : x.roundsHere (x.scaledSize / gridStep 0 * gridStep 0) = true := by
    have hstep := gridStep_zero_lt
    have hpos : 0 < gridStep 0 := Nat.pos_of_ne_zero (by decide +kernel)
    have hsplit := Nat.div_add_mod' x.scaledSize (gridStep 0)
    have hmod := Nat.mod_lt x.scaledSize hpos
    have hgap : gridFactor ≤ x.lowerGap * gridFactor :=
      Nat.le_mul_of_pos_left _ (lowerGap_pos x)
    have hfit : x.lowerGap * gridFactor ≤ x.scaledSize := by
      have := lowerGap_le_units hx
      exact Nat.mul_le_mul_right _ (by omega)
    have hleast : (2 * x.units - x.lowerGap) * gridFactor =
        x.scaledSize - x.lowerGap * gridFactor := Nat.sub_mul ..
    have hgreatest : (2 * x.units + x.upperGap) * gridFactor =
        x.scaledSize + x.upperGap * gridFactor := Nat.add_mul ..
    have hupper : 0 < x.upperGap * gridFactor :=
      Nat.mul_pos (Nat.pow_pos (by decide)) gridFactor_pos
    unfold roundsHere
    dsimp only
    rw [hleast, hgreatest]
    split <;> rw [decide_eq_true_eq] <;> omega
  unfold gridPoint?
  dsimp only
  rw [hbelow]
  cases x.roundsHere ((x.scaledSize / gridStep 0 + 1) * gridStep 0) with
  | true =>
    dsimp only
    rw [← apply_ite some, ← apply_ite some]
    exact Option.some_ne_none _
  | false => exact Option.some_ne_none _

end Binary64

/-- The real that a decimal stands for, times `10 ^ k`, if that is a whole number. -/
def Decimal.scaled (k : Nat) (d : Decimal) : Nat :=
  d.coefficient * Nat.pow 10 (d.exponent + k).toNat

namespace Binary64

variable {x y : Binary64}

theorem scaled_mul_of_grid {c i : Nat} :
    (⟨c, (i : Int) - 324⟩ : Decimal).scaled 324 * Nat.pow 2 1075 = c * gridStep i := by
  have hexp : ((i : Int) - 324 + (324 : Nat)).toNat = i := by omega
  rw [Decimal.scaled, hexp, gridStep, Nat.mul_assoc]

/-- From any grid on, the search ends on some grid, in the interval. -/
theorem roundsHere_coarsestFrom (hx : x.isZero = false) (i : Nat) :
    -324 ≤ (x.coarsestFrom i).exponent ∧
      x.roundsHere ((x.coarsestFrom i).scaled 324 * Nat.pow 2 1075) = true := by
  induction i with
  | zero =>
    obtain ⟨c, hc⟩ := Option.ne_none_iff_exists'.mp (gridPoint?_zero_ne_none hx)
    have heq : x.coarsestFrom 0 = ⟨c, ((0 : Nat) : Int) - 324⟩ := by rw [coarsestFrom, hc]; rfl
    rw [heq, scaled_mul_of_grid]
    exact ⟨by simp, roundsHere_of_gridPoint? hc⟩
  | succ i ih =>
    cases hc : x.gridPoint? (i + 1) with
    | none =>
      have heq : x.coarsestFrom (i + 1) = x.coarsestFrom i := by rw [coarsestFrom, hc]
      rw [heq]
      exact ih
    | some c =>
      have heq : x.coarsestFrom (i + 1) = ⟨c, ((i + 1 : Nat) : Int) - 324⟩ := by
        rw [coarsestFrom, hc]
      rw [heq, scaled_mul_of_grid]
      exact ⟨by simp only; omega, roundsHere_of_gridPoint? hc⟩

theorem shortestDecimal_exponent (x : Binary64) : -324 ≤ x.shortestDecimal.exponent := by
  unfold shortestDecimal
  split
  · simp
  · next hx => exact (roundsHere_coarsestFrom (Bool.not_eq_true _ ▸ hx) 633).1

/-- **The shortest decimal of a number reads back.** -/
theorem roundsHere_shortestDecimal (hx : x.isZero = false) :
    x.roundsHere (x.shortestDecimal.scaled 324 * Nat.pow 2 1075) = true := by
  rw [shortestDecimal, if_neg (by simp [hx])]
  exact (roundsHere_coarsestFrom hx 633).2

theorem scaled_shortestDecimal_eq_zero_iff :
    x.shortestDecimal.scaled 324 = 0 ↔ x.isZero = true := by
  cases hx : x.isZero with
  | true =>
    rw [shortestDecimal, if_pos hx, Decimal.scaled, Nat.zero_mul]
    exact iff_of_true rfl rfl
  | false =>
    refine iff_of_false (fun h => ?_) Bool.false_ne_true
    have hend : 0 < x.lowerEnd := by
      have hle := lowerGap_le_units hx
      have hgap := lowerGap_pos x
      unfold lowerEnd
      omega
    have hlow := (bounds_of_roundsHere (roundsHere_shortestDecimal hx)).1
    rw [h] at hlow
    generalize Nat.pow 2 1075 = p at hlow
    rw [Nat.zero_mul] at hlow
    exact Nat.not_le.mpr (Nat.mul_pos hend gridFactor_pos) hlow

/-- **The value of the shortest decimal determines the magnitude.** -/
theorem magnitude_eq_of_scaled_eq (h : x.shortestDecimal.scaled 324 = y.shortestDecimal.scaled 324) :
    x.magnitude = y.magnitude := by
  have hzero : x.isZero = true ↔ y.isZero = true := by
    rw [← scaled_shortestDecimal_eq_zero_iff, ← scaled_shortestDecimal_eq_zero_iff, h]
  cases hx : x.isZero with
  | true =>
    have hy := hzero.mp hx
    simp only [isZero, decide_eq_true_eq] at hx hy
    exact Fin.ext (hx.trans hy.symm)
  | false =>
    have hy : y.isZero = false := by simpa [hx] using hzero
    have hxr := roundsHere_shortestDecimal hx
    rw [h] at hxr
    exact magnitude_eq_of_roundsHere hxr (roundsHere_shortestDecimal hy)

end Binary64

end GraphQuery
