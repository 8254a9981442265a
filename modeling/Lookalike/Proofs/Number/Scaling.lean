import Lookalike.Proofs.Number.Amount

/-!
# Scaling amounts

An amount is scaled by a positive number, divided by a positive finite one, and taken away from a
finite number. Each of these keeps the order of amounts or turns it round. An infinite factor leaves
no number of zero and infinity of every other amount.

## Main definitions

* `Number.Scales`, that an operation scales amounts

## Main statements

* `Number.Scales.isAmount`, `Number.Scales.le`
* `Number.IsAmount.sub_finite_le`, `Number.IsAmount.finite_sub_le`
* `Number.isAmount_atLeastZero`, `Number.atLeastZero_mono`
-/

namespace Lookalike.Number

variable {F : Format} {x y : Number F} {p q r : ℚ}

section Products

theorem finite_mul_finite (nonnegative : 0 ≤ q) (positive : 0 < p) :
    (finite q * finite p : Number F) = ofRat F (q * p) := by
  change mul (finite q) (finite p) = _
  have signs : ¬ q < 0 ∧ ¬ p < 0 := ⟨not_lt.mpr nonnegative, not_lt.mpr positive.le⟩
  -- A product with zero gets its zero from the signs and not by rounding.
  by_cases zero : q = 0
  · simp [mul, isNaN, isFinite, isZero, value, isNegative, Number.zero, zero, signs.2]
  · simp [mul, isNaN, isFinite, isZero, value, zero, positive.ne']

theorem finite_div_finite (nonnegative : 0 ≤ q) (positive : 0 < p) :
    (finite q / finite p : Number F) = ofRat F (q / p) := by
  change div (finite q) (finite p) = _
  have signs : ¬ q < 0 ∧ ¬ p < 0 := ⟨not_lt.mpr nonnegative, not_lt.mpr positive.le⟩
  by_cases zero : q = 0
  · simp [div, isNaN, isFinite, isZero, value, isNegative, Number.zero, zero, signs.2, positive.ne']
  · simp [div, isNaN, isFinite, isZero, value, zero, positive.ne']

/-- Without rounding a product with a natural number is exact, also with zero. -/
theorem finite_mul_natCast (nonnegative : 0 ≤ q) (k : ℕ) :
    (finite q * ofInt .exact k : Number .exact) = finite (q * k) := by
  cases k with
  | zero =>
    change mul (finite q) (finite _) = _
    simp [mul, isNaN, isFinite, isZero, value, isNegative, Number.zero, nonnegative]
  | succ k => exact finite_mul_finite nonnegative (by positivity)

theorem posInf_mul_finite (positive : 0 < p) : (posInf * finite p : Number F) = posInf := by
  change mul posInf (finite p) = _
  simp [mul, isNaN, isFinite, isZero, value, isNegative, infinity, positive.ne',
    not_lt.mpr positive.le]

theorem posInf_div_finite (positive : 0 < p) : (posInf / finite p : Number F) = posInf := by
  change div posInf (finite p) = _
  simp [div, isNaN, isFinite, isNegative, infinity, not_lt.mpr positive.le]

theorem finite_mul_posInf (positive : 0 < q) : (finite q * posInf : Number F) = posInf := by
  change mul (finite q) posInf = _
  simp [mul, isNaN, isFinite, isZero, value, isNegative, infinity, positive.ne',
    not_lt.mpr positive.le]

theorem zero_mul_posInf : (finite 0 * posInf : Number F) = nan := rfl

theorem posInf_mul_posInf : (posInf * posInf : Number F) = posInf := rfl

@[simp] theorem finite_sub_posInf : (finite q - posInf : Number F) = negInf := rfl

end Products

section Scales

/-- An operation that leaves infinity alone and scales what is not negative before it is rounded. -/
structure Scales (operation : Number F → Number F) (scale : ℚ → ℚ) : Prop where
  infinite : operation .posInf = .posInf
  finite : ∀ {q}, 0 ≤ q → operation (.finite q) = ofRat F (scale q)
  nonnegative : ∀ {q}, 0 ≤ q → 0 ≤ scale q
  mono : ∀ {q r}, q ≤ r → scale q ≤ scale r

theorem scales_mul_finite (positive : 0 < p) :
    Scales (fun x : Number F => x * .finite p) (· * p) where
  infinite := posInf_mul_finite positive
  finite nonnegative := finite_mul_finite nonnegative positive
  nonnegative nonnegative := mul_nonneg nonnegative positive.le
  mono le := mul_le_mul_of_nonneg_right le positive.le

theorem scales_div_finite (positive : 0 < p) :
    Scales (fun x : Number F => x / .finite p) (· / p) where
  infinite := posInf_div_finite positive
  finite nonnegative := finite_div_finite nonnegative positive
  nonnegative nonnegative := div_nonneg nonnegative positive.le
  mono le := div_le_div_of_nonneg_right le positive.le

variable {operation : Number F → Number F} {scale : ℚ → ℚ}

/-- A scaled amount is an amount. -/
theorem Scales.isAmount (scales : Scales operation scale) (proper : F.IsProper)
    (amount : x.IsAmount) : (operation x).IsAmount := by
  cases amount with
  | posInf =>
    rw [scales.infinite]
    exact .posInf
  | finite nonnegative _ =>
    rw [scales.finite nonnegative]
    exact isAmount_ofRat proper (scales.nonnegative nonnegative)

/-- Scaling keeps the order of amounts. -/
theorem Scales.le (scales : Scales operation scale) (proper : F.IsProper) (left : x.IsAmount)
    (right : y.IsAmount) (le : x ≤ y) : operation x ≤ operation y := by
  cases right with
  | posInf =>
    rw [scales.infinite]
    exact le_posInf (scales.isAmount proper left).isNaN
  | finite nonnegative' _ =>
    cases left with
    | posInf => exact absurd le (not_posInf_le_finite _)
    | finite nonnegative _ =>
      rw [scales.finite nonnegative, scales.finite nonnegative']
      exact ofRat_mono proper (scales.mono (finite_le_finite.mp le))

end Scales

namespace IsAmount

/-- Taking the same away keeps the order. -/
theorem sub_finite_le (proper : F.IsProper) (left : x.IsAmount) (right : y.IsAmount) (le : x ≤ y) :
    x - Number.finite q ≤ y - Number.finite q := by
  cases right with
  | posInf =>
    rw [posInf_sub_finite]
    cases left with
    | posInf =>
      rw [posInf_sub_finite]
      exact Number.le_refl rfl
    | finite =>
      rw [finite_sub_finite]
      exact le_posInf (isNaN_ofRat _)
  | finite =>
    cases left with
    | posInf => exact absurd le (not_posInf_le_finite _)
    | finite =>
      rw [finite_sub_finite, finite_sub_finite]
      exact ofRat_mono proper (sub_le_sub_right (finite_le_finite.mp le) q)

/-- The more is taken away, the less is left. -/
theorem finite_sub_le (proper : F.IsProper) (left : x.IsAmount) (right : y.IsAmount) (le : x ≤ y) :
    Number.finite q - y ≤ Number.finite q - x := by
  cases right with
  | posInf =>
    rw [finite_sub_posInf]
    cases left with
    | posInf => exact Number.le_refl rfl
    | finite =>
      rw [finite_sub_finite, le_iff_place]
      exact ⟨rfl, isNaN_ofRat _, bot_le⟩
  | finite =>
    cases left with
    | posInf => exact absurd le (not_posInf_le_finite _)
    | finite =>
      rw [finite_sub_finite, finite_sub_finite]
      exact ofRat_mono proper (sub_le_sub_left (finite_le_finite.mp le) q)

end IsAmount

section AtLeastZero

/-- What has been rounded and brought to zero or above is an amount. -/
theorem isAmount_atLeastZero (kept : x.Kept) : x.atLeastZero.IsAmount := by
  unfold atLeastZero
  split_ifs with positive
  · cases x with
    -- None of these lies above zero.
    | nan | negInf | negZero => simp [lt_iff_place, isNaN, place] at positive
    | posInf => exact .posInf
    | finite q => exact .finite (finite_lt_finite.mp positive).le kept
  · exact isAmount_zero

theorem atLeastZero_finite (q : ℚ) : (finite q : Number F).atLeastZero = finite (max 0 q) := by
  have positive : 0 < (finite q : Number F) ↔ 0 < q := finite_lt_finite
  rw [atLeastZero]
  split_ifs with above
  · rw [max_eq_right (positive.mp above).le]
  · rw [max_eq_left (not_lt.mp (mt positive.mpr above))]
    rfl

theorem isNaN_atLeastZero (x : Number F) : x.atLeastZero.isNaN = false := by
  unfold atLeastZero
  split_ifs with positive
  · exact (lt_iff_place.mp positive).2.1
  · rfl

theorem isPlain_atLeastZero (x : Number F) : x.atLeastZero.IsPlain := by
  unfold atLeastZero
  split_ifs with positive
  · exact .of_pos positive
  · trivial

theorem atLeastZero_mono (le : x ≤ y) : x.atLeastZero ≤ y.atLeastZero := by
  unfold atLeastZero
  by_cases positive : 0 < x
  · rw [if_pos positive, if_pos (Number.lt_of_lt_of_le positive le)]
    exact le
  · rw [if_neg positive]
    split_ifs with positive'
    · exact Number.le_of_lt positive'
    · exact Number.le_refl rfl

end AtLeastZero

end Lookalike.Number
