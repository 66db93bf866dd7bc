/-
# Rounding keeps the order

A whole number that is compared with a floating point number is rounded first.  Two facts say what
this does to the order of whole numbers.

* Of two whole numbers the greater one never rounds to the smaller number
  (**`orderKey_ofInt_mono`**): it may tie with the other one, but it is never put before it.
* Up to `2 ^ 53` no two whole numbers round to the same number (**`ofInt_injective`**).

Both come from the magnitude of a quotient.  Its exponent bits count how far the quotient is beyond
53 bits, and its fraction lies in the same range for each such count, so the magnitudes for one count
end where those for the next begin (`nearestMagnitude_le`, `le_nearestMagnitude`).
-/
import GraphQuery.Binary64.Rounding

namespace GraphQuery.Binary64

variable {n m d q : Nat} {i j : Int}

/-! ## 1. Whole quotients -/

theorem div_le_divideToNearest (n d : Nat) : n / d ≤ divideToNearest n d := by
  unfold divideToNearest
  dsimp only
  split <;> omega

theorem divideToNearest_le (n d : Nat) : divideToNearest n d ≤ n / d + 1 := by
  unfold divideToNearest
  dsimp only
  split <;> omega

theorem divideToNearest_mono (d : Nat) (h : n ≤ m) :
    divideToNearest n d ≤ divideToNearest m d := by
  rcases Nat.lt_or_eq_of_le (Nat.div_le_div_right h (c := d)) with hlt | heq
  · have hn := divideToNearest_le n d
    have hm := div_le_divideToNearest m d
    omega
  · -- the same whole part: the greater rest does not go down if the smaller one goes up
    have hrest : n % d ≤ m % d := by
      have hn := Nat.div_add_mod n d
      have hm := Nat.div_add_mod m d
      rw [heq] at hn
      omega
    unfold divideToNearest
    dsimp only
    rw [heq]
    simp only [Bool.or_eq_true, Bool.and_eq_true, decide_eq_true_eq, beq_iff_eq]
    split <;> split <;> omega

theorem divideToNearest_of_dvd (hd : 0 < d) (h : d ∣ n) : divideToNearest n d = n / d := by
  unfold divideToNearest
  rw [Nat.mod_eq_zero_of_dvd h]
  dsimp only
  rw [if_neg]
  simp only [Bool.or_eq_true, Bool.and_eq_true, decide_eq_true_eq, beq_iff_eq]
  omega

/-! ## 2. Magnitudes -/

/-- The distance of neighbouring magnitudes around a quotient with a whole part, in units. -/
def spacing (q : Nat) : Nat := Nat.pow 2 (excessBits q)

theorem spacing_pos (q : Nat) : 0 < spacing q := Nat.pow_pos (by decide)

theorem nearestMagnitude_eq (n d : Nat) :
    nearestMagnitude n d =
      excessBits (n / d) * exponentUnit + divideToNearest n (d * spacing (n / d)) := rfl

theorem excessBits_mono (h : n ≤ m) : excessBits n ≤ excessBits m := by
  unfold excessBits
  rcases Nat.eq_zero_or_pos n with rfl | hn
  · rw [Nat.log2_zero]
    omega
  · have hlog : n.log2 ≤ m.log2 :=
      (Nat.le_log2 (by omega)).mpr (Nat.le_trans (Nat.log2_self_le (by omega)) h)
    omega

/-- The significand of a quotient has at most 53 bits. -/
theorem div_spacing_lt (q : Nat) : q / spacing q < 2 * exponentUnit := by
  rw [Nat.div_lt_iff_lt_mul (spacing_pos q)]
  calc
    q < 2 ^ (q.log2 + 1) := Nat.lt_log2_self
    _ ≤ 2 ^ (53 + excessBits q) :=
      Nat.pow_le_pow_right (by decide) (by unfold excessBits; omega)
    _ = 2 * exponentUnit * spacing q := by rw [Nat.pow_add]; rfl

/-- Beyond 53 bits none of them is left out. -/
theorem le_div_spacing (h : 0 < excessBits q) : exponentUnit ≤ q / spacing q := by
  have hlog : q.log2 = 52 + excessBits q := by unfold excessBits at h ⊢; omega
  have hq : q ≠ 0 := by
    rintro rfl
    exact absurd h (by decide)
  rw [Nat.le_div_iff_mul_le (spacing_pos q)]
  calc
    exponentUnit * spacing q = 2 ^ (52 + excessBits q) := by rw [Nat.pow_add]; rfl
    _ = 2 ^ q.log2 := by rw [hlog]
    _ ≤ q := Nat.log2_self_le hq

theorem nearestMagnitude_le (n d : Nat) :
    nearestMagnitude n d ≤ (excessBits (n / d) + 2) * exponentUnit := by
  have hround := divideToNearest_le n (d * spacing (n / d))
  have hbound := div_spacing_lt (n / d)
  rw [Nat.div_div_eq_div_mul] at hbound
  rw [nearestMagnitude_eq, Nat.add_mul]
  omega

theorem le_nearestMagnitude (h : 0 < excessBits (n / d)) :
    (excessBits (n / d) + 1) * exponentUnit ≤ nearestMagnitude n d := by
  have hround := div_le_divideToNearest n (d * spacing (n / d))
  have hbound := le_div_spacing h
  rw [Nat.div_div_eq_div_mul] at hbound
  rw [nearestMagnitude_eq, Nat.add_mul]
  omega

/-- **The magnitude of a quotient grows with it.** -/
theorem nearestMagnitude_mono (d : Nat) (h : n ≤ m) :
    nearestMagnitude n d ≤ nearestMagnitude m d := by
  rcases Nat.lt_or_eq_of_le (excessBits_mono (Nat.div_le_div_right h (c := d))) with hlt | heq
  · calc
      nearestMagnitude n d ≤ (excessBits (n / d) + 2) * exponentUnit := nearestMagnitude_le n d
      _ ≤ (excessBits (m / d) + 1) * exponentUnit := Nat.mul_le_mul_right _ (by omega)
      _ ≤ nearestMagnitude m d := le_nearestMagnitude (by omega)
  · rw [nearestMagnitude_eq, nearestMagnitude_eq, spacing, spacing, heq]
    exact Nat.add_le_add_left (divideToNearest_mono _ h) _

/-- Of two quotients that need no rounding the greater one has the greater magnitude. -/
theorem nearestMagnitude_lt (hd : 0 < d) (h : n < m) (hn : d * spacing (n / d) ∣ n)
    (hm : d * spacing (m / d) ∣ m) : nearestMagnitude n d < nearestMagnitude m d := by
  have hexact : nearestMagnitude n d =
      excessBits (n / d) * exponentUnit + n / (d * spacing (n / d)) := by
    rw [nearestMagnitude_eq, divideToNearest_of_dvd (Nat.mul_pos hd (spacing_pos _)) hn]
  rcases Nat.lt_or_eq_of_le (excessBits_mono (Nat.div_le_div_right (Nat.le_of_lt h) (c := d)))
    with hlt | heq
  · have hbound := div_spacing_lt (n / d)
    rw [Nat.div_div_eq_div_mul] at hbound
    calc
      nearestMagnitude n d < (excessBits (n / d) + 2) * exponentUnit := by
        rw [hexact, Nat.add_mul]
        omega
      _ ≤ (excessBits (m / d) + 1) * exponentUnit := Nat.mul_le_mul_right _ (by omega)
      _ ≤ nearestMagnitude m d := le_nearestMagnitude (by omega)
  · rw [hexact, nearestMagnitude_eq, divideToNearest_of_dvd (Nat.mul_pos hd (spacing_pos _)) hm,
      spacing, spacing, heq]
    exact Nat.add_lt_add_left (Nat.div_lt_div_of_lt_of_dvd hm h) _

/-! ## 3. Whole numbers -/

theorem magnitude_ofInt (i : Int) :
    (ofInt i).magnitude.val =
      min (nearestMagnitude (i.natAbs * Nat.pow 2 1074) 1) infinityMagnitude := rfl

theorem negative_ofInt (i : Int) : (ofInt i).negative = decide (i < 0) := rfl

theorem magnitude_ofInt_mono (h : i.natAbs ≤ j.natAbs) :
    (ofInt i).magnitude.val ≤ (ofInt j).magnitude.val := by
  have hmono := nearestMagnitude_mono 1 (Nat.mul_le_mul_right (Nat.pow 2 1074) h)
  rw [magnitude_ofInt, magnitude_ofInt]
  omega

/-- **Rounding keeps the order of whole numbers.** -/
theorem orderKey_ofInt_mono (h : i ≤ j) : (ofInt i).orderKey ≤ (ofInt j).orderKey := by
  unfold orderKey
  simp only [negative_ofInt, decide_eq_true_eq]
  by_cases hj : j < 0
  · have hmag := magnitude_ofInt_mono (i := j) (j := i) (by omega)
    rw [if_pos hj, if_pos (by omega)]
    omega
  · by_cases hi : i < 0
    · rw [if_pos hi, if_neg hj]
      omega
    · have hmag := magnitude_ofInt_mono (i := i) (j := j) (by omega)
      rw [if_neg hi, if_neg hj]
      omega

/-- The greatest size up to which all whole numbers are floating point numbers, `2 ^ 53`. -/
def exactLimit : Nat := 2 * exponentUnit

/-- Up to the limit a whole number of powers of two is a multiple of the distance of magnitudes
around it. -/
theorem spacing_dvd (e : Nat) (h : n ≤ exactLimit) :
    1 * spacing (n * Nat.pow 2 e / 1) ∣ n * Nat.pow 2 e := by
  rw [Nat.one_mul, Nat.div_one]
  rcases Nat.eq_zero_or_pos n with rfl | hn
  · rw [Nat.zero_mul]
    exact Nat.dvd_zero _
  · have hpow : 0 < Nat.pow 2 e := Nat.pow_pos (by decide)
    have hpos : n * Nat.pow 2 e ≠ 0 := Nat.ne_of_gt (Nat.mul_pos hn hpow)
    rcases Nat.lt_or_eq_of_le h with hlt | rfl
    · have hlog : (n * Nat.pow 2 e).log2 < 53 + e := by
        rw [Nat.log2_lt hpos, Nat.pow_add]
        exact Nat.mul_lt_mul_of_pos_right hlt hpow
      exact Nat.dvd_trans (Nat.pow_dvd_pow 2 (by unfold excessBits; omega)) (Nat.dvd_mul_left _ _)
    · have hlimit : exactLimit * Nat.pow 2 e = 2 ^ (53 + e) := by rw [Nat.pow_add]; rfl
      have hlog : (exactLimit * Nat.pow 2 e).log2 < 54 + e := by
        rw [Nat.log2_lt hpos, hlimit]
        exact Nat.pow_lt_pow_right (by decide) (by omega)
      rw [hlimit] at hlog ⊢
      exact Nat.pow_dvd_pow 2 (by unfold excessBits; omega)

theorem nearestMagnitude_scaled_lt (e : Nat) (hm : m ≤ exactLimit) (h : n < m) :
    nearestMagnitude (n * Nat.pow 2 e) 1 < nearestMagnitude (m * Nat.pow 2 e) 1 :=
  nearestMagnitude_lt Nat.one_pos (Nat.mul_lt_mul_of_pos_right h (Nat.pow_pos (by decide)))
    (spacing_dvd e (by omega)) (spacing_dvd e hm)

/-- Up to the limit a whole number does not round to infinity. -/
theorem magnitude_ofInt_of_le (h : i.natAbs ≤ exactLimit) :
    (ofInt i).magnitude.val = nearestMagnitude (i.natAbs * Nat.pow 2 1074) 1 := by
  have hlimit : nearestMagnitude (exactLimit * Nat.pow 2 1074) 1 ≤ infinityMagnitude := by
    decide +kernel
  have hmono := nearestMagnitude_mono 1 (Nat.mul_le_mul_right (Nat.pow 2 1074) h)
  rw [magnitude_ofInt]
  exact Nat.min_eq_left (Nat.le_trans hmono hlimit)

theorem magnitude_ofInt_lt (hj : j.natAbs ≤ exactLimit) (h : i.natAbs < j.natAbs) :
    (ofInt i).magnitude.val < (ofInt j).magnitude.val := by
  rw [magnitude_ofInt_of_le hj, magnitude_ofInt_of_le (Nat.le_trans (Nat.le_of_lt h) hj)]
  generalize 1074 = e
  exact nearestMagnitude_scaled_lt e hj h

/-- **Up to `2 ^ 53` whole numbers are told apart after rounding.** -/
theorem ofInt_injective (hi : i.natAbs ≤ exactLimit) (hj : j.natAbs ≤ exactLimit)
    (h : ofInt i = ofInt j) : i = j := by
  have hmag : (ofInt i).magnitude.val = (ofInt j).magnitude.val := by rw [h]
  have hsign : decide (i < 0) = decide (j < 0) := congrArg negative h
  rw [decide_eq_decide] at hsign
  rcases Nat.lt_trichotomy i.natAbs j.natAbs with hlt | heq | hgt
  · have := magnitude_ofInt_lt hj hlt
    omega
  · omega
  · have := magnitude_ofInt_lt hi hgt
    omega

end GraphQuery.Binary64
