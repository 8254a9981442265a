import Mathlib.Algebra.Order.Monoid.Unbundled.WithTop
import Mathlib.Algebra.Order.Ring.Rat
import Lookalike.Number.Basic

/-!
# The order of numbers

All numbers but the value that is no number lie on the rational line with an infinity at each end,
and their order is the order of that line. Every law of the order is read off there. The two zeros
have one place, so the order does not tell them apart.

## Main definitions

* `Number.place`, the place of a number
* `Number.IsPlain`, a number that is told apart from others by its place

## Main statements

* `Number.lt_iff_place`, `Number.le_iff_place`
* transitivity, and that of two numbers one is below or equal to the other
* `Number.IsPlain.lt_or_lt`, that of two different plain numbers one is below the other
-/

namespace Lookalike.Number

variable {F : Format} {x y z : Number F}

/-- The place of a number on the rational line with its two ends. What is no number is put at the
lower end, where the laws below leave it out. -/
def place : Number F → WithBot (WithTop ℚ)
  | .nan | .negInf => ⊥
  | .posInf => ⊤
  | .negZero => (((0 : ℚ) : WithTop ℚ) : WithBot (WithTop ℚ))
  | .finite q => ((q : WithTop ℚ) : WithBot (WithTop ℚ))

private theorem coe_lt_top (q : ℚ) : ((q : WithTop ℚ) : WithBot (WithTop ℚ)) < ⊤ :=
  WithBot.coe_lt_coe.mpr (WithTop.coe_lt_top q)

/-- A number is below another when both are numbers and its place is the lower one. -/
theorem lt_iff_place : x < y ↔ x.isNaN = false ∧ y.isNaN = false ∧ x.place < y.place := by
  change lt x y = true ↔ _
  cases x <;> cases y <;> simp [lt, isNaN, place, value, coe_lt_top]
  -- What is left compares two rationals, or zero with infinity.
  all_goals first | exact decide_eq_true_iff | exact coe_lt_top 0

theorem le_iff_place : x ≤ y ↔ x.isNaN = false ∧ y.isNaN = false ∧ x.place ≤ y.place := by
  have below := lt_iff_place (x := y) (y := x)
  change le x y = true ↔ _
  change lt y x = true ↔ _ at below
  -- Below or equal is told as not being above, for two numbers.
  grind [le]

@[simp] theorem finite_lt_finite {q r : ℚ} : (finite q : Number F) < finite r ↔ q < r := by
  simp [lt_iff_place, isNaN, place]

@[simp] theorem finite_le_finite {q r : ℚ} : (finite q : Number F) ≤ finite r ↔ q ≤ r := by
  simp [le_iff_place, isNaN, place]

@[simp] theorem finite_lt_posInf (q : ℚ) : (finite q : Number F) < posInf := by
  simp [lt_iff_place, isNaN, place, coe_lt_top]

@[simp] theorem not_posInf_le_finite (q : ℚ) : ¬ (posInf : Number F) ≤ finite q := by
  simp [le_iff_place, isNaN, place]

/-- A finite number is compared with a rational by the rational that it stands for. -/
theorem le_finite_iff_value (finite : x.isFinite) {q : ℚ} : x ≤ .finite q ↔ x.value ≤ q := by
  cases x with
  | nan | negInf | posInf => cases finite
  | negZero | finite => simp [le_iff_place, isNaN, place, value]

/-- A positive number is infinite or a positive rational. -/
theorem eq_posInf_or_finite_of_pos (positive : 0 < x) :
    x = posInf ∨ ∃ q : ℚ, 0 < q ∧ x = finite q := by
  cases x with
  | nan | negInf | negZero => simp [lt_iff_place, isNaN, place] at positive
  | posInf => exact .inl rfl
  | finite q => exact .inr ⟨q, finite_lt_finite.mp positive, rfl⟩

theorem le_posInf (number : x.isNaN = false) : x ≤ posInf :=
  le_iff_place.mpr ⟨number, rfl, le_top⟩

/-- Nothing but infinity reaches infinity. -/
theorem eq_posInf_of_le (le : posInf ≤ x) : x = posInf := by
  cases x with
  | posInf => rfl
  | finite q => exact absurd le (not_posInf_le_finite q)
  | nan | negInf | negZero => exact absurd le Bool.false_ne_true

protected theorem le_refl (number : x.isNaN = false) : x ≤ x :=
  le_iff_place.mpr ⟨number, number, le_rfl⟩

protected theorem lt_irrefl : ¬ x < x := fun below =>
  lt_irrefl _ (lt_iff_place.mp below).2.2

protected theorem le_of_lt (below : x < y) : x ≤ y :=
  have ⟨left, right, places⟩ := lt_iff_place.mp below
  le_iff_place.mpr ⟨left, right, places.le⟩

protected theorem le_trans (lower : x ≤ y) (upper : y ≤ z) : x ≤ z := by
  rw [le_iff_place] at *
  exact ⟨lower.1, upper.2.1, lower.2.2.trans upper.2.2⟩

protected theorem lt_of_le_of_lt (lower : x ≤ y) (upper : y < z) : x < z := by
  rw [le_iff_place] at lower
  rw [lt_iff_place] at *
  exact ⟨lower.1, upper.2.1, lower.2.2.trans_lt upper.2.2⟩

protected theorem lt_of_lt_of_le (lower : x < y) (upper : y ≤ z) : x < z := by
  rw [le_iff_place] at upper
  rw [lt_iff_place] at *
  exact ⟨lower.1, upper.2.1, lower.2.2.trans_le upper.2.2⟩

/-- Two numbers can be compared. -/
protected theorem not_lt (left : x.isNaN = false) (right : y.isNaN = false) :
    ¬ x < y ↔ y ≤ x := by
  simp [lt_iff_place, le_iff_place, left, right]

protected theorem not_le (left : x.isNaN = false) (right : y.isNaN = false) :
    ¬ x ≤ y ↔ y < x := by
  simp [lt_iff_place, le_iff_place, left, right]

protected theorem not_lt_of_le (lower : x ≤ y) : ¬ y < x := fun below =>
  Number.lt_irrefl (Number.lt_of_le_of_lt lower below)

/-- A finite number without a sign on its zero, or the infinity at the upper end. No two of these
have one place. -/
def IsPlain : Number F → Prop
  | .posInf | .finite _ => True
  | .nan | .negInf | .negZero => False

namespace IsPlain

protected theorem isNaN (plain : x.IsPlain) : x.isNaN = false := by
  cases x <;> first | rfl | cases plain

theorem of_pos (positive : 0 < x) : x.IsPlain := by
  rcases eq_posInf_or_finite_of_pos positive with rfl | ⟨q, -, rfl⟩ <;> trivial

protected theorem lt_or_lt (left : x.IsPlain) (right : y.IsPlain) (different : x ≠ y) :
    x < y ∨ y < x := by
  cases x with
  | nan | negInf | negZero => cases left
  | posInf =>
    cases y with
    | nan | negInf | negZero => cases right
    | posInf => exact absurd rfl different
    | finite r => exact .inr (finite_lt_posInf r)
  | finite q =>
    cases y with
    | nan | negInf | negZero => cases right
    | posInf => exact .inl (finite_lt_posInf q)
    | finite r =>
      rw [finite_lt_finite, finite_lt_finite]
      exact lt_or_gt_of_ne fun same => different (congrArg finite same)

end IsPlain

end Lookalike.Number
