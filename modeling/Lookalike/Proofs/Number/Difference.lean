import Mathlib.Tactic.NormNum
import Lookalike.Proofs.Number.Amount

/-!
# Differences and their squares

The difference of two finite numbers is their exact difference rounded. Rounding goes the same way
on both sides of zero, so the square of a difference does not depend on which number is subtracted
from which. A difference is at least the least positive number unless it is zero, hence two numbers
that the format keeps are told apart by their difference.

## Main statements

* `Number.sub_eq_ofRat_or`, `Number.mul_self_eq_ofRat`
* `Number.sub_mul_sub_comm`
* `Number.value_eq_of_value_sub_eq_zero`
-/

namespace Lookalike.Number

variable {F : Format} {x y : Number F} {q r : ℚ}

@[simp] theorem isFinite_infinity (negative : Bool) :
    (infinity negative : Number F).isFinite = false := by
  cases negative <;> rfl

section Sums

@[simp] theorem isFinite_neg (x : Number F) : x.neg.isFinite = x.isFinite := by
  cases x with
  | finite q =>
    rw [neg]
    split_ifs <;> rfl
  | _ => rfl

@[simp] theorem value_neg (x : Number F) : x.neg.value = -x.value := by
  cases x with
  | finite q =>
    rw [neg]
    split_ifs with zero
    · rw [zero]
      rfl
    · rfl
  | _ => exact neg_zero.symm

/-- Only two negative zeros are not added as the rationals that they stand for. -/
theorem add_eq_ofRat_or (left : x.isFinite) (right : y.isFinite) :
    x + y = ofRat F (x.value + y.value) ∨ x + y = .negZero ∧ x.value = 0 ∧ y.value = 0 := by
  cases x <;> cases y <;> simp only [isFinite, Bool.false_eq_true] at left right
  case negZero.negZero => exact .inr ⟨rfl, rfl, rfl⟩
  all_goals exact .inl rfl

/-- A finite sum is one of finite numbers. -/
theorem isFinite_of_isFinite_add (finite : (x + y).isFinite) : x.isFinite ∧ y.isFinite := by
  cases x <;> cases y <;> first | exact ⟨rfl, rfl⟩ | cases finite

/-- A sum that is a number is one of numbers. -/
theorem isNaN_of_isNaN_add (number : (x + y).isNaN = false) :
    x.isNaN = false ∧ y.isNaN = false := by
  cases x <;> cases y <;> first | exact ⟨rfl, rfl⟩ | cases number

/-- The difference of two finite numbers is rounded once. Only zeros make a negative zero. -/
theorem sub_eq_ofRat_or (left : x.isFinite) (right : y.isFinite) :
    x - y = ofRat F (x.value - y.value) ∨ x - y = .negZero ∧ x.value = 0 ∧ y.value = 0 := by
  have summed := add_eq_ofRat_or left ((isFinite_neg y).trans right)
  rwa [value_neg, neg_eq_zero, ← sub_eq_add_neg] at summed

/-- A finite difference is one of finite numbers. -/
theorem isFinite_of_isFinite_sub (finite : (x - y).isFinite) : x.isFinite ∧ y.isFinite := by
  obtain ⟨left, right⟩ := isFinite_of_isFinite_add finite
  exact ⟨left, (isFinite_neg y).symm.trans right⟩

end Sums

section Squares

/-- The square of a finite number is rounded once. -/
theorem mul_self_eq_ofRat (finite : x.isFinite) : x * x = ofRat F (x.value ^ 2) := by
  change mul x x = _
  cases x with
  | nan | negInf | posInf => cases finite
  | negZero =>
    have zero : (negZero : Number F).value = 0 := rfl
    rw [zero, zero_pow two_ne_zero, ofRat_zero]
    rfl
  | finite q =>
    by_cases zero : q = 0
    · rw [zero, value, zero_pow two_ne_zero, ofRat_zero]
      rfl
    · simp [mul, isNaN, isFinite, isZero, value, zero, sq]

/-- A rational and its opposite are rounded to numbers with the same square. -/
theorem ofRat_neg_mul_self (q : ℚ) : ofRat F (-q) * ofRat F (-q) = ofRat F q * ofRat F q := by
  cases F with
  | exact =>
    rw [mul_self_eq_ofRat rfl, mul_self_eq_ofRat rfl]
    exact congrArg (ofRat .exact) (neg_sq q)
  | binary precision least limit =>
    simp only [ofRat_binary, nearest_neg, neg_eq_zero, abs_neg]
    split_ifs
    · cases decide (-q < 0) <;> cases decide (q < 0) <;> rfl
    · cases decide (-q < 0) <;> cases decide (q < 0) <;> rfl
    · rw [mul_self_eq_ofRat rfl, mul_self_eq_ofRat rfl]
      exact congrArg (ofRat _) (neg_sq _)

theorem sub_mul_sub_eq_ofRat (left : x.isFinite) (right : y.isFinite) :
    (x - y) * (x - y) = ofRat F (x.value - y.value) * ofRat F (x.value - y.value) := by
  rcases sub_eq_ofRat_or left right with rounded | ⟨none, zero, zero'⟩
  · rw [rounded]
  · rw [none, zero, zero', sub_self, ofRat_zero]
    rfl

/-- It does not matter for the square of a difference which number is subtracted from which. -/
theorem sub_mul_sub_comm (x y : Number F) : (x - y) * (x - y) = (y - x) * (y - x) := by
  by_cases finite : x.isFinite ∧ y.isFinite
  · rw [sub_mul_sub_eq_ofRat finite.1 finite.2, sub_mul_sub_eq_ofRat finite.2 finite.1,
      ← neg_sub x.value, ofRat_neg_mul_self]
  · change mul (add x (neg y)) (add x (neg y)) = mul (add y (neg x)) (add y (neg x))
    cases x <;> cases y <;> first
      | rfl
      | exact absurd ⟨rfl, rfl⟩ finite
      | simp only [neg]
        split_ifs <;> rfl

end Squares

section Gaps

variable {precision : ℕ} {least limit : ℤ}

/-- What a binary format keeps is a multiple of its least positive number. -/
theorem OnGrid.exists_eq_mul_zpow (grid : OnGrid precision least q) :
    ∃ n : ℤ, q = n * 2 ^ least := by
  obtain ⟨significand, exponent, -, above, rfl⟩ := grid
  obtain ⟨k, rfl⟩ := Int.le.dest above
  refine ⟨significand * 2 ^ k, ?_⟩
  rw [zpow_add₀ two_ne_zero, zpow_natCast]
  push_cast
  ring

/-- Two rationals of the grid are apart by the least positive number. -/
theorem OnGrid.zpow_le_abs_sub (grid : OnGrid precision least q) (grid' : OnGrid precision least r)
    (different : q ≠ r) : 2 ^ least ≤ |q - r| := by
  obtain ⟨m, rfl⟩ := grid.exists_eq_mul_zpow
  obtain ⟨n, rfl⟩ := grid'.exists_eq_mul_zpow
  have apart : m ≠ n := fun same => different (by rw [same])
  have whole : (1 : ℚ) ≤ |(m : ℚ) - n| := by
    exact_mod_cast Int.one_le_abs (sub_ne_zero.mpr apart)
  have unit : (0 : ℚ) < 2 ^ least := zpow_pos two_pos least
  rw [← sub_mul, abs_mul, abs_of_pos unit]
  exact le_mul_of_one_le_left unit.le whole

/-- What reaches the least positive number is not rounded to zero. -/
theorem nearest_ne_zero (bits : 1 ≤ precision) (reaches : 2 ^ least ≤ |q|) :
    nearest precision least q ≠ 0 := by
  have positive : ∀ {p : ℚ}, 2 ^ least ≤ p → 0 < nearest precision least p := fun {p} reaches => by
    have mono : nearest precision least (2 ^ least) ≤ nearest precision least p :=
      nearest_mono bits reaches
    rw [(onGrid_zpow le_rfl).nearest_eq bits] at mono
    exact (zpow_pos two_pos least).trans_le mono
  rcases abs_choice q with same | flipped
  · exact (positive (same ▸ reaches)).ne'
  · have below := positive (flipped ▸ reaches)
    rw [nearest_neg] at below
    exact (neg_pos.mp below).ne

theorem Kept.onGrid {x : Number (.binary precision least limit)} (kept : x.Kept)
    (finite : x.isFinite) : OnGrid precision least x.value := by
  cases x with
  | nan | negInf | posInf => cases finite
  | negZero =>
    have zero : ofRat (.binary precision least limit) 0 = .finite 0 := ofRat_zero
    exact (onGrid_of_ofRat_eq zero).1
  | finite q => exact (onGrid_of_ofRat_eq kept).1

/-- Numbers that the format keeps are told apart by their difference: it does not underflow. -/
theorem value_eq_of_value_sub_eq_zero (proper : F.IsProper) (left : x.Kept) (right : y.Kept)
    (finite : (x - y).isFinite) (zero : (x - y).value = 0) : x.value = y.value := by
  obtain ⟨finite', finite''⟩ := isFinite_of_isFinite_sub finite
  rcases sub_eq_ofRat_or finite' finite'' with rounded | ⟨-, none, none'⟩
  · rw [rounded] at finite zero
    cases F with
    | exact => exact sub_eq_zero.mp zero
    | binary precision least limit =>
      by_contra different
      have nonzero : nearest precision least (x.value - y.value) ≠ 0 := nearest_ne_zero proper
        ((left.onGrid finite').zpow_le_abs_sub (right.onGrid finite'') different)
      rw [ofRat_binary, if_neg nonzero] at finite zero
      split_ifs at finite zero
      · -- An infinite difference is not finite.
        rw [isFinite_infinity] at finite
        cases finite
      · exact nonzero zero
  · rw [none, none']

end Gaps

end Lookalike.Number
