/-
# What the writing of a decimal says

A written decimal is read back without knowing which of the two forms was chosen: only the form
with an exponent holds an `e`, and only a negative number starts with a sign.  So the writing
determines the sign and the value (**`write_injective`**).  It does not determine coefficient and
exponent, since the positional form of `10 * 10 ^ 0` is that of `1 * 10 ^ 1`.

With the uniqueness of the shortest decimal, finite numbers with one text are the same number, sign
included (**`realText_injective`**).
-/
import GraphQuery.Proofs.Decimal.Intervals
import GraphQuery.Json.Printer
import Mathlib.Data.List.Basic
import Mathlib.Tactic.Ring

namespace GraphQuery

namespace Decimal

variable {d d' : Decimal}

/-! ## 1. Digits -/

theorem isDigit_of_mem_digits {c : Char} (h : c ∈ d.digits) : c.isDigit = true :=
  Nat.isDigit_of_mem_toDigits (by decide) (by decide) h

theorem digits_ne_nil (d : Decimal) : d.digits ≠ [] := Nat.toDigits_ne_nil

theorem ofDigitChars_digits (d : Decimal) : Nat.ofDigitChars 10 d.digits 0 = d.coefficient :=
  Nat.ofDigitChars_ten_toDigits

theorem toDigits_injective {m n : Nat} (h : Nat.toDigits 10 m = Nat.toDigits 10 n) : m = n := by
  rw [← Nat.ofDigitChars_ten_toDigits (n := m), h, Nat.ofDigitChars_ten_toDigits]

theorem isDigit_of_mem_replicate {n : Nat} {c : Char} (h : c ∈ List.replicate n '0') :
    c.isDigit = true := by
  rw [List.eq_of_mem_replicate h]
  decide

/-! ## 2. The positional form -/

theorem pow_ten_add (m n : Nat) : Nat.pow 10 (m + n) = 10 ^ m * 10 ^ n :=
  Nat.pow_add 10 m n

/-- A text has the digits `whole` before its point and `frac` after it. -/
structure PointedAs (cs whole frac : List Char) : Prop where
  eq : cs = whole ++ '.' :: frac
  whole_ne_nil : whole ≠ []
  isDigit : ∀ c ∈ whole ++ frac, c.isDigit = true

theorem PointedAs.notMem_point {cs whole frac : List Char} (h : PointedAs cs whole frac) :
    '.' ∉ whole ∧ '.' ∉ frac := by
  constructor <;> intro hmem
  · exact absurd (h.isDigit '.' (List.mem_append_left _ hmem)) (by decide)
  · exact absurd (h.isDigit '.' (List.mem_append_right _ hmem)) (by decide)

/-- **The positional form, read back.**  As many places as there are digits after the point, the
number of all digits is the value of the decimal. -/
theorem positional_pointedAs {k : Nat} (h : -(k : Int) ≤ d.exponent) :
    ∃ whole frac, PointedAs d.positional whole frac ∧
      Nat.ofDigitChars 10 (whole ++ frac) 0 * 10 ^ k = d.scaled k * 10 ^ frac.length := by
  unfold positional
  dsimp only
  split
  · -- a whole number: zeros stand for the exponent, and one more behind the point
    next hexp =>
    refine ⟨d.digits ++ List.replicate d.exponent.toNat '0', ['0'], ⟨by simp, ?_, ?_⟩, ?_⟩
    · simp [digits_ne_nil]
    · intro c hc
      rw [List.append_assoc, List.mem_append, List.mem_append, List.mem_singleton] at hc
      rcases hc with hc | hc | rfl
      · exact isDigit_of_mem_digits hc
      · exact isDigit_of_mem_replicate hc
      · decide
    · rw [Nat.ofDigitChars_append, Nat.ofDigitChars_append, ofDigitChars_digits,
        Nat.ofDigitChars_replicate_zero, show ['0'] = List.replicate 1 '0' from rfl,
        Nat.ofDigitChars_replicate_zero, List.length_replicate, scaled,
        show (d.exponent + k).toNat = d.exponent.toNat + k by omega, pow_ten_add]
      ring
  · next hexp =>
    split
    · -- the point stands between two digits
      next hpoint =>
      have htake : (d.exponent + d.digits.length).toNat ≤ d.digits.length := by omega
      refine ⟨d.digits.take (d.exponent + d.digits.length).toNat,
        d.digits.drop (d.exponent + d.digits.length).toNat, ⟨rfl, ?_, ?_⟩, ?_⟩
      · intro hnil
        have := congrArg List.length hnil
        rw [List.length_take, List.length_nil] at this
        omega
      · rw [List.take_append_drop]
        exact fun c => isDigit_of_mem_digits
      · rw [List.take_append_drop, ofDigitChars_digits, List.length_drop, scaled, Nat.mul_assoc,
          Nat.pow_eq, ← Nat.pow_add]
        congr 2
        omega
    · -- all digits stand behind the point
      next hpoint =>
      refine ⟨['0'], List.replicate (-(d.exponent + d.digits.length)).toNat '0' ++ d.digits,
        ⟨by simp, by simp, ?_⟩, ?_⟩
      · intro c hc
        rw [List.mem_append, List.mem_append, List.mem_singleton] at hc
        rcases hc with rfl | hc | hc
        · decide
        · exact isDigit_of_mem_replicate hc
        · exact isDigit_of_mem_digits hc
      · rw [List.singleton_append, Nat.ofDigitChars_cons,
          show 10 * 0 + ('0'.toNat - '0'.toNat) = 0 from rfl, Nat.ofDigitChars_append,
          Nat.ofDigitChars_replicate_zero, Nat.mul_zero, ofDigitChars_digits,
          List.length_append, List.length_replicate, scaled, Nat.mul_assoc,
          Nat.pow_eq, ← Nat.pow_add]
        congr 2
        omega

/-- One positional form, one value. -/
theorem positional_injective {k : Nat} (h : -(k : Int) ≤ d.exponent) (h' : -(k : Int) ≤ d'.exponent)
    (heq : d.positional = d'.positional) : d.scaled k = d'.scaled k := by
  obtain ⟨whole, frac, hd, hval⟩ := positional_pointedAs h
  obtain ⟨whole', frac', hd', hval'⟩ := positional_pointedAs h'
  rw [hd.eq, hd'.eq,
    List.append_cons_inj_of_notMem hd.notMem_point.1 hd.notMem_point.2] at heq
  obtain ⟨rfl, -, rfl⟩ := heq
  exact Nat.eq_of_mul_eq_mul_right (Nat.pow_pos (by decide)) (hval.symm.trans hval')

/-! ## 3. The form with an exponent -/

theorem pointed_injective {cs cs' : List Char} (hcs : '.' ∉ cs) (hcs' : '.' ∉ cs')
    (h : pointed cs = pointed cs') : cs = cs' := by
  cases cs with
  | nil => cases cs' with
    | nil => rfl
    | cons c' rest' => cases rest' <;> simp [pointed] at h
  | cons c rest => cases cs' with
    | nil => cases rest <;> simp [pointed] at h
    | cons c' rest' => cases rest <;> cases rest' <;> simp_all [pointed]

theorem mem_pointed {c : Char} {cs : List Char} (h : c ∈ pointed cs) : c = '.' ∨ c ∈ cs := by
  unfold pointed at h
  split at h
  · exact absurd h List.not_mem_nil
  · exact Or.inr h
  · rcases List.mem_cons.mp h with rfl | h
    · exact Or.inr List.mem_cons_self
    · exact (List.mem_cons.mp h).imp_right (List.mem_cons_of_mem _)

theorem notMem_digits {c : Char} (h : c.isDigit = false) : c ∉ d.digits := by
  intro hmem
  rw [isDigit_of_mem_digits hmem] at h
  exact Bool.noConfusion h

/-- One form with an exponent, one decimal. -/
theorem scientific_injective (h : d.scientific = d'.scientific) : d = d' := by
  have hmantissa (d : Decimal) : 'e' ∉ pointed d.digits := fun hmem =>
    (mem_pointed hmem).elim (by decide) (notMem_digits (by decide))
  have hexponent : 'e' ∉ (if d.leadingExponent < 0 then '-' else '+') ::
      Nat.toDigits 10 d.leadingExponent.natAbs := by
    rw [List.mem_cons, not_or]
    refine ⟨by split <;> decide, fun hmem => ?_⟩
    exact absurd (Nat.isDigit_of_mem_toDigits (by decide) (by decide) hmem) (by decide)
  unfold scientific at h
  dsimp only at h
  rw [List.append_cons_inj_of_notMem (hmantissa d) hexponent, List.cons.injEq] at h
  obtain ⟨hpointed, -, hsign, hsize⟩ := h
  have hdigits : d.digits = d'.digits :=
    pointed_injective (notMem_digits (by decide)) (notMem_digits (by decide)) hpointed
  have hcoefficient : d.coefficient = d'.coefficient := toDigits_injective hdigits
  have hnatAbs := toDigits_injective hsize
  have hneg : d.leadingExponent < 0 ↔ d'.leadingExponent < 0 := by
    split at hsign <;> split at hsign
    · next hl hl' => exact iff_of_true hl hl'
    · exact absurd hsign (by decide)
    · exact absurd hsign (by decide)
    · next hl hl' => exact iff_of_false hl hl'
  have hleading : d.leadingExponent = d'.leadingExponent := by omega
  have hexp : d.exponent = d'.exponent := by
    unfold leadingExponent at hleading
    rw [hdigits] at hleading
    omega
  cases d
  cases d'
  simp_all

/-! ## 4. Both forms -/

/-- The characters of a written number. -/
def isNumeral (c : Char) : Bool := c.isDigit || c == '.' || c == 'e' || c == '+' || c == '-'

theorem isNumeral_of_isDigit {c : Char} (h : c.isDigit = true) : isNumeral c = true := by
  simp [isNumeral, h]

/-- The digits and signs of a decimal under its sign. -/
def body (layout : Layout) (d : Decimal) : List Char :=
  if layout.lowest ≤ d.leadingExponent ∧ d.leadingExponent ≤ layout.highest then d.positional
  else d.scientific

theorem toList_write (layout : Layout) (negative : Bool) (d : Decimal) :
    (d.write layout negative).toList =
      if negative then '-' :: d.body layout else d.body layout :=
  String.toList_ofList

theorem scientific_head (d : Decimal) :
    ∃ c rest, d.scientific = c :: rest ∧ c.isDigit = true := by
  obtain ⟨c, rest, hcs⟩ := List.exists_cons_of_ne_nil d.digits_ne_nil
  have hc : c.isDigit = true := isDigit_of_mem_digits (d := d) (hcs ▸ List.mem_cons_self)
  unfold scientific
  dsimp only
  rw [hcs]
  cases rest with
  | nil => exact ⟨c, _, rfl, hc⟩
  | cons c' rest => exact ⟨c, _, rfl, hc⟩

theorem e_mem_scientific (d : Decimal) : 'e' ∈ d.scientific :=
  List.mem_append_right _ List.mem_cons_self

theorem isNumeral_of_mem_scientific {c : Char} (h : c ∈ d.scientific) : isNumeral c = true := by
  unfold scientific at h
  dsimp only at h
  rw [List.mem_append, List.mem_cons, List.mem_cons] at h
  rcases h with h | rfl | h | h
  · rcases mem_pointed h with rfl | h
    · decide
    · exact isNumeral_of_isDigit (isDigit_of_mem_digits h)
  · decide
  · rw [h]
    split <;> decide
  · exact isNumeral_of_isDigit (Nat.isDigit_of_mem_toDigits (by decide) (by decide) h)

/-- A decimal without its sign: it starts with a digit, and tells itself from a whole number. -/
theorem body_spec (layout : Layout) {k : Nat} (h : -(k : Int) ≤ d.exponent) :
    (∃ c rest, d.body layout = c :: rest ∧ c.isDigit = true) ∧
      (∀ c ∈ d.body layout, isNumeral c = true) ∧
      ('.' ∈ d.body layout ∨ 'e' ∈ d.body layout) := by
  unfold body
  split
  · obtain ⟨whole, frac, hd, -⟩ := positional_pointedAs h
    have hmem : ∀ c ∈ d.positional, isNumeral c = true := by
      intro c hc
      rw [hd.eq, List.mem_append, List.mem_cons] at hc
      rcases hc with hc | rfl | hc
      · exact isNumeral_of_isDigit (hd.isDigit c (List.mem_append_left _ hc))
      · decide
      · exact isNumeral_of_isDigit (hd.isDigit c (List.mem_append_right _ hc))
    obtain ⟨c, rest, rfl⟩ := List.exists_cons_of_ne_nil hd.whole_ne_nil
    refine ⟨⟨c, _, hd.eq, hd.isDigit c (by simp)⟩, hmem, Or.inl ?_⟩
    rw [hd.eq]
    simp
  · exact ⟨scientific_head d, fun c => isNumeral_of_mem_scientific, Or.inr (e_mem_scientific d)⟩

theorem body_injective {layout : Layout} {k : Nat} (h : -(k : Int) ≤ d.exponent)
    (h' : -(k : Int) ≤ d'.exponent) (heq : d.body layout = d'.body layout) :
    d.scaled k = d'.scaled k := by
  have hmixed : ∀ {d d' : Decimal}, -(k : Int) ≤ d.exponent → d.positional ≠ d'.scientific := by
    intro d d' hd heq
    obtain ⟨whole, frac, hp, -⟩ := positional_pointedAs hd
    have he := e_mem_scientific d'
    rw [← heq, hp.eq, List.mem_append, List.mem_cons] at he
    rcases he with he | he | he
    · exact absurd (hp.isDigit 'e' (List.mem_append_left _ he)) (by decide)
    · exact absurd he (by decide)
    · exact absurd (hp.isDigit 'e' (List.mem_append_right _ he)) (by decide)
  unfold body at heq
  split at heq <;> split at heq
  · exact positional_injective h h' heq
  · exact absurd heq (hmixed h)
  · exact absurd heq.symm (hmixed h')
  · rw [scientific_injective heq]

/-- **The writing determines the sign and the value.** -/
theorem write_injective {layout : Layout} {k : Nat} {n n' : Bool} (h : -(k : Int) ≤ d.exponent)
    (h' : -(k : Int) ≤ d'.exponent) (heq : d.write layout n = d'.write layout n') :
    n = n' ∧ d.scaled k = d'.scaled k := by
  have hsign : ∀ {d d' : Decimal}, -(k : Int) ≤ d'.exponent →
      '-' :: d.body layout ≠ d'.body layout := by
    intro d d' hd' heq
    obtain ⟨⟨c, rest, hbody, hc⟩, -⟩ := body_spec layout hd'
    rw [hbody, List.cons.injEq] at heq
    rw [← heq.1] at hc
    exact absurd hc (by decide)
  have hlist := congrArg String.toList heq
  rw [toList_write, toList_write] at hlist
  cases n <;> cases n' <;> simp only [Bool.false_eq_true, if_false, if_true] at hlist
  · exact ⟨rfl, body_injective h h' hlist⟩
  · exact absurd hlist.symm (hsign h)
  · exact absurd hlist (hsign h')
  · exact ⟨rfl, body_injective h h' (List.cons.inj hlist).2⟩

end Decimal

/-! ## 5. The texts of numbers -/

namespace Json

variable {x y : Binary64}

theorem realText_of_isFinite (hx : x.isFinite = true) :
    realText x = x.shortestDecimal.write realLayout x.negative :=
  if_pos hx

/-- **Finite numbers with one text are one number.** -/
theorem realText_injective (hx : x.isFinite = true) (hy : y.isFinite = true)
    (h : realText x = realText y) : x = y := by
  rw [realText_of_isFinite hx, realText_of_isFinite hy] at h
  obtain ⟨hsign, hvalue⟩ := Decimal.write_injective x.shortestDecimal_exponent
    y.shortestDecimal_exponent h
  have hmagnitude := Binary64.magnitude_eq_of_scaled_eq hvalue
  cases x
  cases y
  simp_all

end Json

end GraphQuery
