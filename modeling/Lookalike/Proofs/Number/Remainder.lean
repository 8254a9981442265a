import Lookalike.Proofs.Number.Amount

/-!
# What is left of an amount

When a part is taken away from an amount and added back, two roundings lie between the result and
the amount. The result can fall below the amount only at a tie: what is left has been rounded down
by half a spacing, and the sum lies in the middle between the amount and the number before it, which
has the even significand. So the loss is the least possible one, and an amount that is the result of
such a loss suffers none itself.

## Main definitions

* `Number.Regains`, that taking a part away and adding it back does not fall below the whole

## Main statements

* `Number.IsAmount.eq_sub_of_add_lt`, that only the rounded difference itself can fall short
* `Number.IsAmount.le_regained`, that a loss is the least possible one
* `Number.IsAmount.regains_regained`, that there is no second loss after a loss
-/

namespace Lookalike.Number

section Grid

variable {precision : ℕ} {least : ℤ} {q r m b c s : ℚ}

/-- The spacing near a rational is no greater than near what it is rounded to. -/
theorem spacing_le_of_nearest_le (bits : 1 ≤ precision) (positive : 0 < q) (positive' : 0 < r)
    (le : nearest precision least q ≤ r) :
    spacing precision least q ≤ spacing precision least r := by
  rw [spacing_eq positive.ne', spacing_eq positive'.ne']
  apply zpow_le_zpow_right₀ one_le_two
  unfold spacingExponent
  rw [abs_of_pos positive, abs_of_pos positive']
  -- Rounding does not leave the binade downwards, unless that lies below the least spacing.
  rcases lt_or_ge (Int.log 2 q) least with low | high
  · omega
  · have := le_log positive' ((zpow_log_le_nearest bits positive high).trans le)
    omega

/-- A rational that is rounded below a rational of the grid lies at least half a spacing below it,
and where it lies no further below, it is rounded to an even multiple of the spacing. -/
theorem le_sub_of_nearest_lt (bits : 1 ≤ precision) (grid : OnGrid precision least b)
    (positive : 0 < m) (below : nearest precision least m < b) :
    m ≤ b - spacing precision least m / 2 ∧
      (m = b - spacing precision least m / 2 → ∃ n : ℤ, Even n ∧
        nearest precision least m = n * spacing precision least m ∧
        b = (n + 1) * spacing precision least m) := by
  have unit : 0 < spacing precision least m := spacing_pos positive.ne'
  have less : m < b := by
    by_contra reached
    have : nearest precision least b ≤ nearest precision least m :=
      nearest_mono bits (not_lt.mp reached)
    rw [grid.nearest_eq bits] at this
    exact this.not_gt below
  -- Both the result and the rational of the grid are multiples of the spacing.
  obtain ⟨top, multiple⟩ := grid.exists_eq_mul_spacing bits positive.ne' (by
    rw [abs_of_pos positive, abs_of_pos (positive.trans less)]
    exact less.le)
  have rounded : nearest precision least m = roundHalfEven (m / spacing precision least m) *
      spacing precision least m := nearest_of_ne_zero positive.ne'
  obtain ⟨near, even⟩ := isNearestEven_roundHalfEven (m / spacing precision least m)
  generalize spacing precision least m = unit' at *
  generalize roundHalfEven (m / unit') = n at *
  have quotient : m = m / unit' * unit' := by field_simp
  have next : (n : ℚ) + 1 ≤ top := by
    rw [rounded, multiple] at below
    exact_mod_cast lt_of_mul_lt_mul_right below unit.le
  have half := (abs_le.mp near).1
  constructor
  · nlinarith
  · -- Exactly half a spacing is missing, so the even neighbor has been taken.
    intro tie
    have top_eq : (top : ℚ) = n + 1 := by
      nlinarith
    refine ⟨n, even ?_, rounded, by rw [multiple, top_eq]⟩
    have : m / unit' = n + 1 / 2 := by
      rw [div_eq_iff unit.ne']
      rw [multiple, top_eq] at tie
      linarith
    rw [this, abs_of_nonpos] <;> linarith

/-- Subtracting a rational and adding at least the rounded difference falls below what was
subtracted from only at a tie. -/
theorem tie_of_nearest_add_lt (bits : 1 ≤ precision) (grid : OnGrid precision least b)
    (nonnegative : 0 ≤ c) (less : c < b) (reaches : nearest precision least (b - c) ≤ s)
    (positive : 0 < c + s) (below : nearest precision least (c + s) < b) :
    s = nearest precision least (b - c) ∧ ∃ n : ℤ, Even n ∧
      nearest precision least (c + s) = n * spacing precision least (c + s) ∧
      b = (n + 1) * spacing precision least (c + s) := by
  obtain ⟨lower, tie⟩ := le_sub_of_nearest_lt bits grid positive below
  have difference : 0 < b - c := sub_pos.mpr less
  have error : |nearest precision least (b - c) - (b - c)| ≤ spacing precision least (b - c) / 2 :=
    abs_nearest_sub_le difference.ne'
  have lower' := (abs_le.mp error).1
  have spacings : spacing precision least (b - c) ≤ spacing precision least (c + s) :=
    spacing_le_of_nearest_le bits difference positive
      (reaches.trans (le_add_of_nonneg_left nonnegative))
  -- What is lost is at least half the wider spacing and at most half the narrower one.
  exact ⟨by linarith, tie (by linarith)⟩

end Grid

variable {F : Format} {x y z : Number F}

/-- Taking a part away and adding it back does not fall below the whole. -/
def Regains (whole part : Number F) : Prop := whole ≤ part + (whole - part)

section Binary

variable {precision : ℕ} {least limit : ℤ} {q v b c s : ℚ}

private theorem ofRat_eq_nearest (nonnegative : 0 ≤ q)
    (bounded : ofRat (.binary precision least limit) q ≤ finite v) :
    ofRat (.binary precision least limit) q = finite (nearest precision least q) := by
  rw [ofRat_binary, decide_eq_false (not_lt.mpr nonnegative)] at bounded ⊢
  split_ifs at bounded ⊢ with none beyond
  · rw [none]
    rfl
  · exact absurd bounded (not_posInf_le_finite v)
  · rfl

/-- The tie at which a sum that reaches the difference falls below the whole, read off the
numbers. -/
private theorem tie_of_add_lt (bits : 1 ≤ precision) (nonnegative : 0 ≤ c) (nonnegative' : 0 ≤ s)
    (kept : ofRat (.binary precision least limit) b = finite b) (less : c < b)
    (reaches : ofRat (.binary precision least limit) (b - c) ≤ finite s)
    (below : ofRat (.binary precision least limit) (c + s) < finite b) :
    ofRat (.binary precision least limit) (b - c) = finite s ∧ 0 < c + s ∧
      ofRat (.binary precision least limit) (c + s) = finite (nearest precision least (c + s)) ∧
      ∃ n : ℤ, Even n ∧ nearest precision least (c + s) = n * spacing precision least (c + s) ∧
        b = (n + 1) * spacing precision least (c + s) := by
  have grid := (onGrid_of_ofRat_eq kept).1
  have sum := ofRat_eq_nearest (add_nonneg nonnegative nonnegative') (Number.le_of_lt below)
  have difference := ofRat_eq_nearest (sub_nonneg.mpr less.le) reaches
  rw [sum, finite_lt_finite] at below
  rw [difference, finite_le_finite] at reaches
  -- Nothing is lost where both are zero, since then the whole is kept.
  have positive : 0 < c + s := by
    rcases (add_nonneg nonnegative nonnegative').eq_or_lt with zero | positive
    · obtain ⟨rfl, rfl⟩ : c = 0 ∧ s = 0 := by constructor <;> linarith
      rw [sub_zero, grid.nearest_eq bits] at reaches
      linarith
    · exact positive
  obtain ⟨rest, tie⟩ := tie_of_nearest_add_lt bits grid nonnegative less reaches positive below
  exact ⟨by rw [difference, rest], positive, sum, tie⟩

/-- What is left and not regained ends at a tie. -/
private theorem tie_of_not_regains (bits : 1 ≤ precision) (nonnegative : 0 ≤ c)
    (kept : ofRat (.binary precision least limit) b = finite b) (less : c < b)
    (lost : ¬ Regains (finite b : Number (.binary precision least limit)) (finite c)) :
    ∃ m : ℚ, 0 < m ∧
      (finite c + (finite b - finite c) : Number (.binary precision least limit)) =
        finite (nearest precision least m) ∧
      ∃ n : ℤ, Even n ∧ nearest precision least m = n * spacing precision least m ∧
        b = (n + 1) * spacing precision least m := by
  have rest := isAmount_ofRat (F := .binary precision least limit) bits (sub_nonneg.mpr less.le)
  have part := isAmount_ofRat (F := .binary precision least limit) bits nonnegative
  unfold Regains at lost
  rw [finite_sub_finite] at lost ⊢
  -- From here on the rounded difference is a number of its own.
  generalize remainder : ofRat (.binary precision least limit) (b - c) = left at *
  cases rest with
  | posInf => exact absurd (le_posInf rfl) lost
  | @finite s nonnegative' _ =>
    rw [finite_add_finite, Number.not_le rfl (isNaN_ofRat _)] at lost
    obtain ⟨-, positive, sum, tie⟩ := tie_of_add_lt bits nonnegative nonnegative' kept less
      (by rw [remainder]; exact Number.le_refl rfl) lost
    exact ⟨c + s, positive, sum, tie⟩

/-- Between the two multiples of the spacing at a tie there is no rational of the grid. -/
private theorem le_of_lt_next (bits : 1 ≤ precision) (grid : OnGrid precision least v) {m : ℚ}
    (positive : 0 < m) {n : ℤ} (lower : nearest precision least m = n * spacing precision least m)
    (below : v < (n + 1) * spacing precision least m) : v ≤ n * spacing precision least m := by
  have unit : 0 < spacing precision least m := spacing_pos positive.ne'
  -- Below the sum rounding decides, and above it the multiples of the spacing.
  rcases le_total v m with le | ge
  · rw [← lower, ← grid.nearest_eq bits]
    exact nearest_mono bits le
  · obtain ⟨k, multiple⟩ := grid.exists_eq_mul_spacing bits positive.ne' (by
      rwa [abs_of_pos positive, abs_of_pos (positive.trans_le ge)])
    rw [multiple] at below ⊢
    have : k < n + 1 := by exact_mod_cast lt_of_mul_lt_mul_right below unit.le
    exact mul_le_mul_of_nonneg_right (by exact_mod_cast Int.lt_add_one_iff.mp this) unit.le

/-- Of two ties, one at the whole that the other left, only one can leave an even multiple. -/
private theorem no_tie_below {m m' : ℚ} (positive : 0 < m) (positive' : 0 < m') (less : m' < m)
    {n n' : ℤ} (even : Even n) (even' : Even n')
    (same : n * spacing precision least m = (n' + 1) * spacing precision least m') : False := by
  have sizes : |m'| ≤ |m| := by
    rw [abs_of_pos positive, abs_of_pos positive']
    exact less.le
  obtain ⟨k, multiple⟩ : ∃ k : ℕ, spacing precision least m = 2 ^ k * spacing precision least m' :=
    exists_spacing_eq_mul positive'.ne' sizes
  have unit : 0 < spacing precision least m' := spacing_pos positive'.ne'
  -- An even multiple would have to follow an even one.
  rw [multiple, ← mul_assoc] at same
  have integers : n * 2 ^ k = n' + 1 := by
    exact_mod_cast mul_right_cancel₀ unit.ne' same
  exact Int.not_even_iff_odd.mpr even'.add_one (integers ▸ even.mul_right _)

end Binary

namespace IsAmount

/-- What is added to a part and reaches the rest of the whole falls below the whole only when it is
that rest. -/
theorem eq_sub_of_add_lt (proper : F.IsProper) (whole : x.IsAmount) (part : y.IsAmount)
    (added : z.IsAmount) (less : y < x) (reaches : x - y ≤ z) (below : y + z < x) : z = x - y := by
  cases added with
  | posInf =>
    cases part <;> exact absurd below (Number.not_lt_of_le (le_posInf whole.isNaN))
  | finite nonnegative _ =>
  cases part with
  | posInf => exact absurd less (Number.not_lt_of_le (le_posInf whole.isNaN))
  | finite nonnegative' _ =>
  cases whole with
  | posInf => exact absurd reaches (by simp)
  | finite _ kept =>
    rw [finite_sub_finite] at reaches ⊢
    rw [finite_add_finite] at below
    rw [finite_lt_finite] at less
    cases F with
    -- Without rounding nothing is lost.
    | exact =>
      simp only [ofRat, finite_le_finite, finite_lt_finite] at reaches below
      linarith
    | binary precision least limit =>
      exact (tie_of_add_lt proper nonnegative' nonnegative kept less reaches below).1.symm

/-- Where the whole is not regained, nothing lies between it and what is regained of it. -/
theorem le_regained (proper : F.IsProper) (whole : x.IsAmount) (part : y.IsAmount)
    (less : y < x) (lost : ¬ Regains x y) (other : z.IsAmount) (below : z < x) :
    z ≤ y + (x - y) := by
  cases part with
  | posInf => exact absurd less (Number.not_lt_of_le (le_posInf whole.isNaN))
  | finite nonnegative _ =>
  cases whole with
  | posInf => exact absurd (by simpa [Regains] using le_posInf rfl) lost
  | finite _ kept =>
  cases other with
  | posInf => exact absurd below (Number.not_lt_of_le (le_posInf rfl))
  | finite nonnegative' kept' =>
    rw [finite_lt_finite] at less below
    cases F with
    | exact =>
      simp [Regains, ofRat] at lost
    | binary precision least limit =>
      obtain ⟨m, positive, regained, n, -, lower, upper⟩ :=
        tie_of_not_regains proper nonnegative kept less lost
      rw [regained, finite_le_finite, lower]
      exact le_of_lt_next proper (onGrid_of_ofRat_eq kept').1 positive lower (upper ▸ below)

/-- What is regained of a whole with a loss is itself regained without one. -/
theorem regains_regained (proper : F.IsProper) (whole : x.IsAmount) (part : y.IsAmount)
    (less : y < x) (lost : ¬ Regains x y) (other : z.IsAmount) (below : z < y + (x - y)) :
    Regains (y + (x - y)) z := by
  by_contra lost'
  have regained := part.add proper (whole.sub proper part less)
  cases part with
  | posInf => exact absurd less (Number.not_lt_of_le (le_posInf whole.isNaN))
  | finite nonnegative _ =>
  cases whole with
  | posInf => exact absurd (by simpa [Regains] using le_posInf rfl) lost
  | finite _ kept =>
  cases other with
  | posInf => exact absurd below (Number.not_lt_of_le (le_posInf regained.isNaN))
  | finite nonnegative' _ =>
    rw [finite_lt_finite] at less
    cases F with
    | exact => simp [Regains, ofRat] at lost
    | binary precision least limit =>
      obtain ⟨m, positive, sum, n, even, lower, -⟩ :=
        tie_of_not_regains proper nonnegative kept less lost
      rw [sum] at regained below lost'
      rw [finite_lt_finite] at below
      cases regained with
      | finite _ kept' =>
        obtain ⟨m', positive', -, n', even', lower', upper'⟩ :=
          tie_of_not_regains proper nonnegative' kept' below lost'
        have unit : 0 < spacing precision least m' := spacing_pos positive'.ne'
        -- The second sum lies below the first, since it is rounded to less.
        have lessSum : m' < m := by
          by_contra ge
          have : nearest precision least m ≤ nearest precision least m' :=
            nearest_mono proper (not_lt.mp ge)
          rw [upper', lower'] at this
          linarith
        exact no_tie_below positive positive' lessSum even even' (lower ▸ upper')

end IsAmount

end Lookalike.Number
