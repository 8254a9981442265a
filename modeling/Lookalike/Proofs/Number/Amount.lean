import Lookalike.Proofs.Number.Rounding

/-!
# Amounts

Distances, sums of distances and what is left of a distance are amounts: rationals that are not
negative and that the format keeps, or infinity. On amounts the order tells all numbers apart,
addition is monotone and never takes away, and what lies below an amount can be subtracted from it.

## Main definitions

* `Number.Kept`, the numbers that the format keeps
* `Number.IsAmount`

## Main statements

* `Number.kept_ofRat`, that what is brought to a format is kept
* `Number.IsAmount.add`, `Number.IsAmount.sub`, `Number.IsAmount.add_le_add`
* `Number.IsAmount.convert_le`
-/

namespace Lookalike.Number

variable {F : Format} {x y z w : Number F} {q r : ℚ}

/-- A number that the format keeps. -/
def Kept : Number F → Prop
  | .finite q => ofRat F q = .finite q
  | _ => True

instance (x : Number F) : Decidable x.Kept :=
  match x with
  | .finite q => inferInstanceAs (Decidable (ofRat F q = .finite q))
  | .nan | .negInf | .posInf | .negZero => .isTrue trivial

@[simp] theorem ofRat_zero : ofRat F 0 = .finite 0 := by
  cases F <;> simp [ofRat, zero]

/-- What a rational is brought to is kept. -/
theorem kept_ofRat (proper : F.IsProper) (q : ℚ) : (ofRat F q).Kept := by
  cases F with
  | exact => rfl
  | binary precision least limit =>
    have grid : OnGrid precision least (nearest precision least q) := onGrid_nearest q
    rw [ofRat_binary]
    split_ifs with none beyond
    · cases decide (q < 0) <;> simp [zero, Kept]
    · cases decide (q < 0) <;> simp [infinity, Kept]
    · change ofRat _ _ = _
      rw [ofRat_binary, grid.nearest_eq proper, if_neg none, if_neg beyond]

/-- What a binary format keeps lies on its grid and below its limit. -/
theorem onGrid_of_ofRat_eq {precision : ℕ} {least limit : ℤ}
    (kept : ofRat (.binary precision least limit) q = .finite q) :
    OnGrid precision least q ∧ |q| < 2 ^ limit := by
  rw [ofRat_binary] at kept
  split_ifs at kept with none beyond
  · cases negative : decide (q < 0) <;> rw [negative] at kept <;> cases kept
    exact ⟨⟨0, least, by positivity, le_rfl, by simp⟩, by simpa using by positivity⟩
  · cases negative : decide (q < 0) <;> rw [negative] at kept <;> cases kept
  · have rounded : nearest precision least q = q := Number.finite.inj kept
    have grid : OnGrid precision least (nearest precision least q) := onGrid_nearest q
    rw [rounded] at grid beyond
    exact ⟨grid, not_le.mp beyond⟩

/-- What lies on the grid and below the limit is kept. -/
theorem ofRat_of_onGrid {precision : ℕ} {least limit : ℤ} (bits : 1 ≤ precision)
    (grid : OnGrid precision least q) (below : |q| < 2 ^ limit) :
    ofRat (.binary precision least limit) q = .finite q := by
  rw [ofRat_binary, grid.nearest_eq bits, if_neg (not_le.mpr below)]
  split_ifs with none
  · rw [none]
    rfl
  · rfl

/-- What a binary format keeps is kept by every finer one. -/
theorem ofRat_of_coarser {precision precision' : ℕ} {least least' limit limit' : ℤ}
    (bits : 1 ≤ precision') (longer : precision ≤ precision') (finer : least' ≤ least)
    (roomier : limit ≤ limit') (kept : ofRat (.binary precision least limit) q = .finite q) :
    ofRat (.binary precision' least' limit') q = .finite q := by
  obtain ⟨⟨significand, exponent, bounded, above, multiple⟩, below⟩ := onGrid_of_ofRat_eq kept
  refine ofRat_of_onGrid bits ⟨significand, exponent, ?_, finer.trans above, multiple⟩ ?_
  · exact bounded.trans (pow_le_pow_right₀ one_le_two longer)
  · exact below.trans_le (zpow_le_zpow_right₀ one_le_two roomier)

/-- A finite number stays finite in a finer format. -/
theorem isFinite_convert {precision precision' : ℕ} {least least' limit limit' : ℤ}
    (bits : 1 ≤ precision') (longer : precision ≤ precision') (finer : least' ≤ least)
    (roomier : limit ≤ limit') {x : Number (.binary precision least limit)} (finite : x.isFinite)
    (kept : x.Kept) : (x.convert (.binary precision' least' limit')).isFinite := by
  cases x with
  | nan | negInf | posInf => cases finite
  | negZero => rfl
  | finite q =>
    rw [convert, ofRat_of_coarser bits longer finer roomier kept]
    rfl

/-- The integers of at most `precision` bits are kept. -/
theorem ofRat_intCast {precision : ℕ} {least limit n : ℤ} (bits : 1 ≤ precision)
    (whole : least ≤ 0) (roomy : precision < limit) (bounded : |n| ≤ 2 ^ precision) :
    ofRat (.binary precision least limit) n = .finite n := by
  have grid : OnGrid precision least (n : ℚ) := ⟨n, 0, bounded, whole, by simp⟩
  refine ofRat_of_onGrid bits grid ?_
  calc |(n : ℚ)| ≤ 2 ^ (precision : ℤ) := by rw [zpow_natCast]; exact_mod_cast bounded
    _ < 2 ^ limit := zpow_lt_zpow_right₀ one_lt_two roomy

theorem ofRat_intCast_binary64 {n : ℤ} (bounded : |n| ≤ 2 ^ 53) :
    ofRat .binary64 n = .finite n :=
  ofRat_intCast (by decide) (by decide) (by decide) bounded

@[simp] theorem finite_add_finite : (finite q + finite r : Number F) = ofRat F (q + r) := rfl

@[simp] theorem posInf_add_finite : (posInf + finite r : Number F) = posInf := rfl

@[simp] theorem finite_add_posInf : (finite q + posInf : Number F) = posInf := rfl

@[simp] theorem posInf_add_posInf : (posInf + posInf : Number F) = posInf := rfl

@[simp] theorem finite_sub_finite : (finite q - finite r : Number F) = ofRat F (q - r) := by
  change add (finite q) (if r = 0 then negZero else finite (-r)) = _
  split_ifs with zero
  · simp [add, value, zero]
  · simp [add, value, sub_eq_add_neg]

@[simp] theorem posInf_sub_finite : (posInf - finite r : Number F) = posInf := by
  change add posInf (if r = 0 then negZero else finite (-r)) = _
  split_ifs <;> rfl

/-- Adding to a finite number is monotone. -/
theorem finite_add_le_finite_add (proper : F.IsProper) (le : finite r ≤ y) :
    finite q + finite r ≤ finite q + y := by
  rw [finite_add_finite]
  cases y with
  | nan | negInf => simp [le_iff_place, isNaN, place] at le
  | posInf => exact le_posInf (isNaN_ofRat _)
  -- The negative zero is added as zero, and it lies above what is not positive.
  | negZero =>
    have nonpositive : r ≤ 0 := by simpa [le_iff_place, isNaN, place] using le
    exact ofRat_mono proper (add_le_add_right nonpositive q)
  | finite s => exact ofRat_mono proper (add_le_add_right (finite_le_finite.mp le) q)

/-- What can be a distance, a sum of distances or what is left of one. -/
inductive IsAmount : Number F → Prop
  | posInf : IsAmount .posInf
  | finite {q : ℚ} (nonnegative : 0 ≤ q) (kept : ofRat F q = .finite q) : IsAmount (.finite q)

theorem isAmount_zero : (0 : Number F).IsAmount := .finite le_rfl ofRat_zero

theorem isAmount_ofRat (proper : F.IsProper) (nonnegative : 0 ≤ q) : (ofRat F q).IsAmount := by
  cases F with
  | exact => exact .finite nonnegative rfl
  | binary precision least limit =>
    have kept := kept_ofRat (F := .binary precision least limit) proper q
    rw [ofRat_binary, decide_eq_false (not_lt.mpr nonnegative)] at kept ⊢
    split_ifs at kept ⊢ with none beyond
    · exact isAmount_zero
    · exact .posInf
    · exact .finite (nearest_nonneg nonnegative) kept

namespace IsAmount

protected theorem isNaN (amount : x.IsAmount) : x.isNaN = false := by
  cases amount <;> rfl

protected theorem nonneg (amount : x.IsAmount) : 0 ≤ x := by
  cases amount with
  | posInf => exact le_posInf rfl
  | finite nonnegative _ => exact finite_le_finite.mpr nonnegative

protected theorem not_lt (left : x.IsAmount) (right : y.IsAmount) : ¬ x < y ↔ y ≤ x :=
  Number.not_lt left.isNaN right.isNaN

protected theorem not_le (left : x.IsAmount) (right : y.IsAmount) : ¬ x ≤ y ↔ y < x :=
  Number.not_le left.isNaN right.isNaN

/-- The order tells amounts apart. -/
protected theorem le_antisymm (left : x.IsAmount) (right : y.IsAmount) (lower : x ≤ y)
    (upper : y ≤ x) : x = y := by
  cases left <;> cases right
  · rfl
  · simp at lower
  · simp at upper
  · rw [finite_le_finite] at lower upper
    rw [lower.antisymm upper]

protected theorem add (proper : F.IsProper) (left : x.IsAmount) (right : y.IsAmount) :
    (x + y).IsAmount := by
  cases left <;> cases right <;> try exact .posInf
  next left _ _ right _ => exact isAmount_ofRat proper (add_nonneg left right)

/-- An amount of one format is an amount of another. -/
protected theorem convert {G : Format} (proper : G.IsProper) (amount : x.IsAmount) :
    (x.convert G).IsAmount := by
  cases amount with
  | posInf => exact .posInf
  | finite nonnegative _ => exact isAmount_ofRat proper nonnegative

/-- Amounts keep their order in another format, where some of them may be equal. -/
theorem convert_le {G : Format} (proper : G.IsProper) (left : x.IsAmount) (right : y.IsAmount)
    (le : x ≤ y) : x.convert G ≤ y.convert G := by
  cases right with
  | posInf => exact le_posInf (left.convert proper).isNaN
  | finite =>
    cases left with
    | posInf => exact absurd le (not_posInf_le_finite _)
    | finite => exact ofRat_mono proper (finite_le_finite.mp le)

/-- What lies below an amount leaves an amount. -/
protected theorem sub (proper : F.IsProper) (left : x.IsAmount) (right : y.IsAmount)
    (below : y < x) : (x - y).IsAmount := by
  cases right with
  | posInf => exact absurd below (Number.not_lt_of_le (le_posInf left.isNaN))
  | finite =>
    cases left with
    | posInf => simpa using .posInf
    | finite =>
      rw [finite_lt_finite] at below
      rw [finite_sub_finite]
      exact isAmount_ofRat proper (by linarith)

/-- Addition of amounts is monotone. -/
protected theorem add_le_add (proper : F.IsProper) (left : x.IsAmount) (right : y.IsAmount)
    (left' : z.IsAmount) (right' : w.IsAmount) (lower : x ≤ z) (upper : y ≤ w) :
    x + y ≤ z + w := by
  have number := (left.add proper right).isNaN
  cases left' <;> cases right' <;> try exact le_posInf number
  cases left <;> cases right <;> simp only [finite_le_finite, not_posInf_le_finite] at lower upper
  rw [finite_add_finite, finite_add_finite]
  exact ofRat_mono proper (add_le_add lower upper)

/-- Adding an amount does not take away. -/
protected theorem le_add (proper : F.IsProper) (left : x.IsAmount) (right : y.IsAmount) :
    x ≤ x + y := by
  cases left with
  | posInf => cases right <;> exact le_posInf rfl
  | @finite q nonnegative kept =>
    have unchanged : (.finite q : Number F) + .finite 0 = .finite q := by
      rw [finite_add_finite, add_zero, kept]
    have amount : (Number.finite q : Number F).IsAmount := .finite nonnegative kept
    -- Zero is the least amount, and adding it changes nothing that is kept.
    calc (.finite q : Number F) = .finite q + .finite 0 := unchanged.symm
      _ ≤ .finite q + y := IsAmount.add_le_add proper amount isAmount_zero amount right
        (Number.le_refl rfl) right.nonneg

end IsAmount

end Lookalike.Number
