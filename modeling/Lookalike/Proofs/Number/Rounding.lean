import Mathlib.Data.Int.Log
import Mathlib.Data.Rat.Floor
import Mathlib.Algebra.Order.Field.Power
import Mathlib.Algebra.Order.Ring.Abs
import Mathlib.Algebra.Ring.Int.Parity
import Mathlib.Tactic.Linarith
import Mathlib.Tactic.Ring
import Mathlib.Tactic.NormNum
import Mathlib.Tactic.FieldSimp
import Lookalike.Proofs.Number.Order

/-!
# Rounding

A rational is brought to a binary format by rounding it to a multiple of the spacing of the format
near it, to the even one of two nearest. Near greater rationals the spacing is a multiple of what it
is near smaller ones, so that the rationals of the format form a grid over which rounding never
steps. From this follows that rounding is monotone and that what is rounded stays as it is.

## Main definitions

* `IsNearestEven`, the relation of a rational to the integer it is rounded to
* `Number.nearest`, rounding before the upper limit of the format is looked at
* `Number.OnGrid`, the rationals that rounding keeps
* `Format.IsProper`, the formats with at least one significant bit

## Main statements

* `Number.nearest_mono`, `Number.onGrid_nearest`, `Number.OnGrid.nearest_eq`
* `Number.ofRat_mono`, that bringing a rational to a format is monotone
-/

namespace Lookalike

theorem magnitude_eq_abs (q : ℚ) : magnitude q = |q| := by
  unfold magnitude
  split
  next below => rw [abs_of_neg below]
  next notBelow => rw [abs_of_nonneg (not_lt.mp notBelow)]

theorem twoPow_eq_zpow (exponent : ℤ) : twoPow exponent = (2 : ℚ) ^ exponent := by
  unfold twoPow
  split
  next nonnegative =>
    lift exponent to ℕ using nonnegative
    simp
  next negative =>
    obtain ⟨n, rfl⟩ : ∃ n : ℕ, exponent = -(n : ℤ) := ⟨(-exponent).toNat, by omega⟩
    rw [neg_neg, Int.toNat_natCast, zpow_neg, zpow_natCast, Rat.mkRat_eq_div]
    simp

theorem le_log {q : ℚ} (positive : 0 < q) {exponent : ℤ} (lower : (2 : ℚ) ^ exponent ≤ q) :
    exponent ≤ Int.log 2 q :=
  (Int.zpow_le_iff_le_log one_lt_two positive).mp (by rwa [Nat.cast_ofNat])

theorem log_lt {q : ℚ} (positive : 0 < q) {exponent : ℤ} (upper : q < (2 : ℚ) ^ exponent) :
    Int.log 2 q < exponent :=
  (Int.lt_zpow_iff_log_lt one_lt_two positive).mp (by rwa [Nat.cast_ofNat])

/-- The binary logarithm of numerator and denominator leave two candidates for that of a
positive rational. -/
private theorem log_bounds {q : ℚ} (positive : 0 < q) :
    (2 : ℚ) ^ ((q.num.toNat.log2 : ℤ) - q.den.log2 - 1) ≤ q ∧
      q < (2 : ℚ) ^ ((q.num.toNat.log2 : ℤ) - q.den.log2 + 1) := by
  have numeratorPositive : 0 < q.num := Rat.num_pos.mpr positive
  have ratio : q = (q.num.toNat : ℚ) / q.den := by
    conv_lhs => rw [← Rat.num_div_den q]
    congr 1
    exact_mod_cast (Int.toNat_of_nonneg numeratorPositive.le).symm
  have denominator : (0 : ℚ) < q.den := by exact_mod_cast q.den_pos
  have numeratorLower : (2 : ℚ) ^ q.num.toNat.log2 ≤ q.num.toNat := by
    exact_mod_cast Nat.log2_self_le (by omega)
  have numeratorUpper : (q.num.toNat : ℚ) < 2 ^ (q.num.toNat.log2 + 1) := by
    exact_mod_cast Nat.lt_log2_self
  have denominatorLower : (2 : ℚ) ^ q.den.log2 ≤ q.den := by
    exact_mod_cast Nat.log2_self_le q.den_nz
  have denominatorUpper : (q.den : ℚ) < 2 ^ (q.den.log2 + 1) := by
    exact_mod_cast Nat.lt_log2_self
  -- The powers of two around numerator and denominator bound the ratio from both sides.
  generalize q.num.toNat.log2 = a at *
  generalize q.den.log2 = b at *
  rw [ratio]
  constructor
  · rw [le_div_iff₀ denominator]
    calc (2 : ℚ) ^ ((a : ℤ) - b - 1) * q.den
        ≤ (2 : ℚ) ^ ((a : ℤ) - b - 1) * 2 ^ (b + 1) := by gcongr
      _ = 2 ^ a := by
        rw [← zpow_natCast, ← zpow_natCast, ← zpow_add₀ two_ne_zero]
        congr 1
        push_cast
        ring
      _ ≤ q.num.toNat := numeratorLower
  · rw [div_lt_iff₀ denominator]
    calc (q.num.toNat : ℚ) < 2 ^ (a + 1) := numeratorUpper
      _ = (2 : ℚ) ^ ((a : ℤ) - b + 1) * 2 ^ b := by
        rw [← zpow_natCast, ← zpow_natCast, ← zpow_add₀ two_ne_zero]
        congr 1
        push_cast
        ring
      _ ≤ (2 : ℚ) ^ ((a : ℤ) - b + 1) * q.den := by gcongr

theorem binaryLog_eq_log {q : ℚ} (positive : 0 < q) : binaryLog q = Int.log 2 q := by
  obtain ⟨lower, upper⟩ := log_bounds positive
  have atLeast := le_log positive lower
  have below := log_lt positive upper
  unfold binaryLog
  dsimp only
  rw [twoPow_eq_zpow]
  -- One of the two candidates is tried, and the bounds rule out everything else.
  split
  next reached =>
    have := le_log positive reached
    omega
  next missed =>
    have := log_lt positive (not_le.mp missed)
    omega

/-- An integer is nearest to a rational, and even if another one is equally near. -/
def IsNearestEven (n : ℤ) (q : ℚ) : Prop := |(n : ℚ) - q| ≤ 1 / 2 ∧ (|(n : ℚ) - q| = 1 / 2 → Even n)

theorem isNearestEven_roundHalfEven (q : ℚ) : IsNearestEven (roundHalfEven q) q := by
  have lower : (q.floor : ℚ) ≤ q := Int.floor_le q
  have upper : q < q.floor + 1 := Int.lt_floor_add_one q
  unfold roundHalfEven IsNearestEven
  dsimp only
  -- Below the middle, above it, and in the middle with an even or an odd floor.
  split_ifs with less more even
  · refine ⟨by rw [abs_le]; constructor <;> linarith, fun half => ?_⟩
    rw [abs_of_nonpos (by linarith)] at half
    linarith
  · push_cast
    refine ⟨by rw [abs_le]; constructor <;> linarith, fun half => ?_⟩
    rw [abs_of_nonneg (by linarith)] at half
    linarith
  · exact ⟨by rw [abs_le]; constructor <;> linarith, fun _ => Int.even_iff.mpr even⟩
  · push_cast
    exact ⟨by rw [abs_le]; constructor <;> linarith,
      fun _ => (Int.not_even_iff_odd.mp (mt Int.even_iff.mp even)).add_one⟩

/-- A greater rational has no smaller nearest integer. -/
theorem IsNearestEven.mono {m n : ℤ} {q r : ℚ} (nearLower : IsNearestEven m q)
    (nearUpper : IsNearestEven n r) (le : q ≤ r) : m ≤ n := by
  by_contra crossed
  have apart : (n : ℚ) + 1 ≤ m := by exact_mod_cast not_le.mp crossed
  have lower := abs_le.mp nearLower.1
  have upper := abs_le.mp nearUpper.1
  -- Both are a half away, so both are even although they are neighbours.
  have evenLower : Even m := nearLower.2 (by rw [abs_of_nonneg] <;> linarith)
  have evenUpper : Even n := nearUpper.2 (by rw [abs_of_nonpos] <;> linarith)
  have next : m = n + 1 := by
    have : (m : ℚ) = n + 1 := by linarith
    exact_mod_cast this
  rw [next] at evenLower
  exact Int.not_even_iff_odd.mpr evenUpper.add_one evenLower

theorem IsNearestEven.eq_roundHalfEven {n : ℤ} {q : ℚ} (near : IsNearestEven n q) :
    roundHalfEven q = n :=
  le_antisymm ((isNearestEven_roundHalfEven q).mono near le_rfl)
    (near.mono (isNearestEven_roundHalfEven q) le_rfl)

theorem roundHalfEven_mono {q r : ℚ} (le : q ≤ r) : roundHalfEven q ≤ roundHalfEven r :=
  (isNearestEven_roundHalfEven q).mono (isNearestEven_roundHalfEven r) le

@[simp] theorem roundHalfEven_intCast (n : ℤ) : roundHalfEven n = n :=
  IsNearestEven.eq_roundHalfEven ⟨by norm_num, by norm_num⟩

theorem roundHalfEven_neg (q : ℚ) : roundHalfEven (-q) = -roundHalfEven q := by
  apply IsNearestEven.eq_roundHalfEven
  have flipped : |((-roundHalfEven q : ℤ) : ℚ) - -q| = |(roundHalfEven q : ℚ) - q| := by
    push_cast
    rw [neg_sub_neg, abs_sub_comm]
  obtain ⟨near, even⟩ := isNearestEven_roundHalfEven q
  exact ⟨flipped.trans_le near, fun half => (even (flipped ▸ half)).neg⟩

namespace Number

/-- The exponent of the spacing of a binary format near a rational other than zero. -/
def spacingExponent (precision : ℕ) (least : ℤ) (q : ℚ) : ℤ :=
  max least (Int.log 2 |q| - ((precision : ℤ) - 1))

/-- A rational rounded to the significand and the least exponent of a binary format, whose limit is
left aside. -/
def nearest (precision : ℕ) (least : ℤ) (q : ℚ) : ℚ :=
  if q = 0 then 0
  else roundHalfEven (q / spacing precision least q) * spacing precision least q

/-- The rationals with at most `precision` significant bits that are multiples of the least
spacing. -/
def OnGrid (precision : ℕ) (least : ℤ) (q : ℚ) : Prop :=
  ∃ significand exponent : ℤ, |significand| ≤ 2 ^ precision ∧ least ≤ exponent ∧
    q = significand * 2 ^ exponent

section Grid

variable {precision : ℕ} {least : ℤ} {q r g : ℚ}

theorem spacing_eq (nonzero : q ≠ 0) :
    spacing precision least q = 2 ^ spacingExponent precision least q := by
  unfold spacing spacingExponent
  rw [twoPow_eq_zpow, magnitude_eq_abs, binaryLog_eq_log (abs_pos.mpr nonzero)]

theorem spacing_pos (nonzero : q ≠ 0) : 0 < spacing precision least q := by
  rw [spacing_eq nonzero]
  positivity

theorem spacingExponent_mono (nonzero : q ≠ 0) (le : |q| ≤ |r|) :
    spacingExponent precision least q ≤ spacingExponent precision least r := by
  have := Int.log_mono_right (b := 2) (abs_pos.mpr nonzero) le
  unfold spacingExponent
  omega

/-- The spacing near a rational divides that near a greater one. -/
theorem exists_spacing_eq_mul (nonzero : q ≠ 0) (le : |q| ≤ |r|) :
    ∃ k : ℕ, spacing precision least r = 2 ^ k * spacing precision least q := by
  have nonzero' : r ≠ 0 := fun zero => by
    rw [zero, abs_zero] at le
    exact nonzero (abs_nonpos_iff.mp le)
  have exponents : spacingExponent precision least q ≤ spacingExponent precision least r :=
    spacingExponent_mono nonzero le
  refine ⟨(spacingExponent precision least r - spacingExponent precision least q).toNat, ?_⟩
  rw [spacing_eq nonzero, spacing_eq nonzero', ← zpow_natCast, ← zpow_add₀ two_ne_zero]
  congr 1
  omega

theorem nearest_of_ne_zero (nonzero : q ≠ 0) : nearest precision least q =
    roundHalfEven (q / spacing precision least q) * spacing precision least q := by
  rw [nearest, if_neg nonzero]

@[simp] theorem nearest_zero : nearest precision least 0 = 0 := by simp [nearest]

theorem nearest_neg (q : ℚ) : nearest precision least (-q) = -nearest precision least q := by
  have same : spacing precision least (-q) = spacing precision least q := by
    simp only [spacing, magnitude_eq_abs, abs_neg]
  by_cases zero : q = 0
  · simp [zero]
  · rw [nearest_of_ne_zero zero, nearest_of_ne_zero (neg_ne_zero.mpr zero), same, neg_div,
      roundHalfEven_neg]
    push_cast
    ring

/-- Rounding moves a rational by at most half a spacing. -/
theorem abs_nearest_sub_le (nonzero : q ≠ 0) :
    |nearest precision least q - q| ≤ spacing precision least q / 2 := by
  have positive : 0 < spacing precision least q := spacing_pos nonzero
  have scaled : nearest precision least q - q =
      (roundHalfEven (q / spacing precision least q) - q / spacing precision least q) *
        spacing precision least q := by
    rw [nearest_of_ne_zero nonzero]
    field_simp
  have half := (isNearestEven_roundHalfEven (q / spacing precision least q)).1
  rw [scaled, abs_mul, abs_of_pos positive]
  linarith [mul_le_mul_of_nonneg_right half positive.le]

theorem nearest_nonneg (nonnegative : 0 ≤ q) : 0 ≤ nearest precision least q := by
  rcases nonnegative.eq_or_lt with rfl | positive
  · simp
  · have unit : 0 < spacing precision least q := spacing_pos positive.ne'
    have quotient : roundHalfEven 0 ≤ roundHalfEven (q / spacing precision least q) :=
      roundHalfEven_mono (div_pos positive unit).le
    have zero : roundHalfEven 0 = 0 := by simpa using roundHalfEven_intCast 0
    rw [nearest_of_ne_zero positive.ne']
    exact mul_nonneg (by exact_mod_cast zero ▸ quotient) unit.le

/-- What is a multiple of its spacing is kept. -/
theorem nearest_eq_self {n : ℤ} (multiple : q = n * spacing precision least q) :
    nearest precision least q = q := by
  by_cases zero : q = 0
  · simp [zero]
  · have quotient : q / spacing precision least q = n :=
      (div_eq_iff (spacing_pos zero).ne').mpr multiple
    rw [nearest_of_ne_zero zero, quotient, roundHalfEven_intCast, ← multiple]

/-- The powers of two from the least spacing on lie on the grid. -/
theorem onGrid_zpow {exponent : ℤ} (above : least ≤ exponent) :
    OnGrid precision least (2 ^ exponent) :=
  ⟨1, exponent, by simpa using one_le_pow₀ (one_le_two (α := ℤ)), above, by simp⟩

theorem OnGrid.neg (grid : OnGrid precision least g) : OnGrid precision least (-g) := by
  obtain ⟨significand, exponent, bounded, above, rfl⟩ := grid
  exact ⟨-significand, exponent, by rwa [abs_neg], above, by push_cast; ring⟩

/-- A rational of the grid is a multiple of the spacing near every smaller one. -/
theorem OnGrid.exists_eq_mul_spacing (grid : OnGrid precision least g) (bits : 1 ≤ precision)
    (nonzero : q ≠ 0) (le : |q| ≤ |g|) : ∃ n : ℤ, g = n * spacing precision least q := by
  obtain ⟨m, t, bounded, above, rfl⟩ := grid
  rw [spacing_eq nonzero]
  -- The spacing is that of a smaller rational, so it divides all but the coarsest.
  by_cases fine : spacingExponent precision least q ≤ t
  · refine ⟨m * 2 ^ (t - spacingExponent precision least q).toNat, ?_⟩
    push_cast
    rw [mul_assoc, ← zpow_natCast, ← zpow_add₀ two_ne_zero]
    congr 2
    omega
  · -- Only the greatest significand leaves its binade, and that one is even.
    have boundedRat : |(m : ℚ)| ≤ 2 ^ precision := by exact_mod_cast bounded
    have size : |(m : ℚ) * 2 ^ t| = |(m : ℚ)| * 2 ^ t := by
      rw [abs_mul, abs_of_pos (by positivity : (0 : ℚ) < 2 ^ t)]
    have power : (2 : ℚ) ^ ((precision : ℤ) + t) = 2 ^ precision * 2 ^ t := by
      rw [zpow_add₀ two_ne_zero, zpow_natCast]
    have top : (2 : ℚ) ^ Int.log 2 |q| ≤ |(m : ℚ) * 2 ^ t| :=
      le_trans (by simpa using Int.zpow_log_le_self one_lt_two (abs_pos.mpr nonzero)) le
    have within : Int.log 2 |q| ≤ precision + t := by
      refine (zpow_le_zpow_iff_right₀ (one_lt_two (α := ℚ))).mp ?_
      rw [power]
      exact top.trans (size ▸ by gcongr)
    have exponents : spacingExponent precision least q = t + 1 ∧
        Int.log 2 |q| = precision + t := by
      unfold spacingExponent at *
      omega
    rw [exponents.2, size, power] at top
    have full : |(m : ℚ)| = 2 ^ precision :=
      boundedRat.antisymm (le_of_mul_le_mul_right top (by positivity))
    obtain ⟨k, rfl⟩ : ∃ k, precision = k + 1 := ⟨precision - 1, by omega⟩
    rw [exponents.1]
    rcases (abs_eq (by positivity)).mp full with signed | signed <;> rw [signed]
    · exact ⟨2 ^ k, by push_cast; rw [zpow_add_one₀ two_ne_zero]; ring⟩
    · exact ⟨-2 ^ k, by push_cast; rw [zpow_add_one₀ two_ne_zero]; ring⟩

/-- Rounding keeps the rationals of the grid. -/
theorem OnGrid.nearest_eq (grid : OnGrid precision least g) (bits : 1 ≤ precision) :
    nearest precision least g = g := by
  by_cases zero : g = 0
  · simp [zero]
  · obtain ⟨n, multiple⟩ := grid.exists_eq_mul_spacing bits zero le_rfl
    exact nearest_eq_self multiple

/-- Rounding does not step over a rational of the grid from below. -/
theorem OnGrid.nearest_le (grid : OnGrid precision least g) (bits : 1 ≤ precision)
    (positive : 0 < q) (le : q ≤ g) : nearest precision least q ≤ g := by
  have unit : 0 < spacing precision least q := spacing_pos positive.ne'
  obtain ⟨n, multiple⟩ := grid.exists_eq_mul_spacing bits positive.ne' (by
    rwa [abs_of_pos positive, abs_of_pos (positive.trans_le le)])
  have quotient : roundHalfEven (q / spacing precision least q) ≤ n := by
    rw [← roundHalfEven_intCast n]
    exact roundHalfEven_mono ((div_le_iff₀ unit).mpr (le.trans_eq multiple))
  rw [nearest_of_ne_zero positive.ne', multiple]
  exact mul_le_mul_of_nonneg_right (by exact_mod_cast quotient) unit.le

/-- Rounding does not step below the power of two that opens the binade of a rational. -/
theorem zpow_log_le_nearest (bits : 1 ≤ precision) (positive : 0 < q)
    (above : least ≤ Int.log 2 q) : (2 : ℚ) ^ Int.log 2 q ≤ nearest precision least q := by
  have unit : 0 < spacing precision least q := spacing_pos positive.ne'
  have opened : (2 : ℚ) ^ Int.log 2 q ≤ q := by
    simpa using Int.zpow_log_le_self one_lt_two positive
  have same : spacing precision least ((2 : ℚ) ^ Int.log 2 q) = spacing precision least q := by
    rw [spacing_eq (by positivity), spacing_eq positive.ne', spacingExponent, spacingExponent,
      abs_of_pos positive, abs_of_pos (by positivity)]
    congr 3
    simpa using Int.log_zpow (R := ℚ) one_lt_two (Int.log 2 q)
  have grid : OnGrid precision least ((2 : ℚ) ^ Int.log 2 q) := onGrid_zpow above
  obtain ⟨n, multiple⟩ := grid.exists_eq_mul_spacing bits (by positivity) le_rfl
  rw [same] at multiple
  have quotient : n ≤ roundHalfEven (q / spacing precision least q) := by
    rw [← roundHalfEven_intCast n]
    exact roundHalfEven_mono ((le_div_iff₀ unit).mpr (multiple ▸ opened))
  rw [nearest_of_ne_zero positive.ne', multiple]
  exact mul_le_mul_of_nonneg_right (by exact_mod_cast quotient) unit.le

private theorem nearest_mono_of_pos (bits : 1 ≤ precision) (positive : 0 < q) (le : q ≤ r) :
    nearest precision least q ≤ nearest precision least r := by
  have positive' := positive.trans_le le
  have sizes : |q| ≤ |r| := by rwa [abs_of_pos positive, abs_of_pos positive']
  have exponents : spacingExponent precision least q ≤ spacingExponent precision least r :=
    spacingExponent_mono positive.ne' sizes
  rcases exponents.eq_or_lt with same | coarser
  · have unit : 0 < spacing precision least q := spacing_pos positive.ne'
    have units : spacing precision least r = spacing precision least q := by
      rw [spacing_eq positive.ne', spacing_eq positive'.ne', same]
    rw [nearest_of_ne_zero positive.ne', nearest_of_ne_zero positive'.ne', units]
    have quotient : roundHalfEven (q / spacing precision least q) ≤
        roundHalfEven (r / spacing precision least q) :=
      roundHalfEven_mono (by gcongr)
    exact mul_le_mul_of_nonneg_right (by exact_mod_cast quotient) unit.le
  · -- The binade of the greater one begins above the smaller one, and its first power separates.
    unfold spacingExponent at coarser
    rw [abs_of_pos positive, abs_of_pos positive'] at coarser
    have above : least ≤ Int.log 2 r := by omega
    have separated : q ≤ 2 ^ Int.log 2 r := by
      have := Int.lt_zpow_succ_log_self (b := 2) one_lt_two q
      rw [Nat.cast_ofNat] at this
      exact this.le.trans (zpow_le_zpow_right₀ one_le_two (by omega))
    exact ((onGrid_zpow above).nearest_le bits positive separated).trans
      (zpow_log_le_nearest bits positive' above)

/-- Rounding is monotone. -/
theorem nearest_mono (bits : 1 ≤ precision) (le : q ≤ r) :
    nearest precision least q ≤ nearest precision least r := by
  have nonpositive {s : ℚ} (below : s ≤ 0) : nearest precision least s ≤ 0 := by
    have : 0 ≤ nearest precision least (-s) := nearest_nonneg (neg_nonneg.mpr below)
    rw [nearest_neg] at this
    linarith
  rcases lt_or_ge 0 q with positive | below
  · exact nearest_mono_of_pos bits positive le
  · rcases lt_or_ge r 0 with negative | above
    · have mirrored : nearest precision least (-r) ≤ nearest precision least (-q) :=
        nearest_mono_of_pos bits (neg_pos.mpr negative) (neg_le_neg le)
      rw [nearest_neg, nearest_neg] at mirrored
      linarith
    · exact (nonpositive below).trans (nearest_nonneg above)

/-- What is rounded lies on the grid. -/
theorem onGrid_nearest (q : ℚ) : OnGrid precision least (nearest precision least q) := by
  by_cases zero : q = 0
  · exact ⟨0, least, by positivity, le_rfl, by simp [zero]⟩
  · refine ⟨roundHalfEven (q / spacing precision least q), spacingExponent precision least q, ?_,
      le_max_left _ _, by rw [nearest_of_ne_zero zero, spacing_eq zero]⟩
    have unit : 0 < spacing precision least q := spacing_pos zero
    have quotient : |q / spacing precision least q| ≤ ((2 ^ precision : ℤ) : ℚ) := by
      rw [abs_div, abs_of_pos unit, div_le_iff₀ unit, spacing_eq zero]
      push_cast
      rw [← zpow_natCast, ← zpow_add₀ two_ne_zero]
      have below := Int.lt_zpow_succ_log_self (b := 2) one_lt_two |q|
      rw [Nat.cast_ofNat] at below
      refine below.le.trans (zpow_le_zpow_right₀ one_le_two ?_)
      unfold spacingExponent
      omega
    have lower := roundHalfEven_mono (abs_le.mp quotient).1
    have upper := roundHalfEven_mono (abs_le.mp quotient).2
    rw [← Int.cast_neg, roundHalfEven_intCast] at lower
    rw [roundHalfEven_intCast] at upper
    exact abs_le.mpr ⟨lower, upper⟩

end Grid

end Number

/-- A format whose numbers have at least one significant bit. -/
def Format.IsProper : Format → Prop
  | .exact => True
  | .binary precision _ _ => 1 ≤ precision

/-- Vectors are kept in a proper format, whatever scores are computed in. -/
theorem Format.isProper_storage (F : Format) : F.storage.IsProper := by
  cases F with
  | exact => trivial
  | binary => exact (by decide : 1 ≤ 24)

namespace Number

variable {F : Format} {q r : ℚ} {x y : Number F}

@[simp] theorem isNaN_ofRat (q : ℚ) : (ofRat F q).isNaN = false := by
  cases F with
  | exact => rfl
  | binary precision least limit =>
    simp only [ofRat, zero, infinity]
    split_ifs <;> rfl

@[simp] theorem isNaN_convert (G : Format) (x : Number F) : (x.convert G).isNaN = x.isNaN := by
  cases x with
  | finite q => exact isNaN_ofRat q
  | _ => rfl

theorem ofRat_binary {precision : ℕ} {least limit : ℤ} :
    ofRat (.binary precision least limit) q =
      if nearest precision least q = 0 then zero (q < 0)
      else if (2 : ℚ) ^ limit ≤ |nearest precision least q| then infinity (q < 0)
      else .finite (nearest precision least q) := by
  rw [ofRat, twoPow_eq_zpow, magnitude_eq_abs]
  rfl

/-- Beyond the limit a rational has the place of an infinity, and otherwise that of the rational it
is rounded to. -/
theorem place_ofRat_binary {precision : ℕ} {least limit : ℤ} :
    (ofRat (.binary precision least limit) q).place =
      if (2 : ℚ) ^ limit ≤ nearest precision least q then ⊤
      else if nearest precision least q ≤ -2 ^ limit then ⊥
      else ((nearest precision least q : WithTop ℚ) : WithBot (WithTop ℚ)) := by
  have positive : (0 : ℚ) < 2 ^ limit := by positivity
  rw [ofRat_binary]
  -- Rounding keeps the sign, and with it on which side the limit can be passed.
  rcases lt_or_ge q 0 with negative | nonnegative
  · have below : nearest precision least q ≤ 0 := by
      have : 0 ≤ nearest precision least (-q) := nearest_nonneg (neg_pos.mpr negative).le
      rw [nearest_neg] at this
      linarith
    simp only [negative, decide_true, zero, infinity, abs_of_nonpos below]
    grind [place]
  · have above : 0 ≤ nearest precision least q := nearest_nonneg nonnegative
    simp only [not_lt.mpr nonnegative, decide_false, zero, infinity, abs_of_nonneg above]
    grind [place]

/-- Bringing a rational to a format is monotone. -/
theorem ofRat_mono (proper : F.IsProper) (le : q ≤ r) : ofRat F q ≤ ofRat F r := by
  rw [le_iff_place]
  refine ⟨isNaN_ofRat q, isNaN_ofRat r, ?_⟩
  cases F with
  | exact => simpa [ofRat, place] using le
  | binary precision least limit =>
    have rounded : nearest precision least q ≤ nearest precision least r := nearest_mono proper le
    have positive : (0 : ℚ) < 2 ^ limit := by positivity
    -- Both are cut off at the same limits, which keeps the order of what is rounded.
    rw [place_ofRat_binary, place_ofRat_binary]
    split_ifs <;> first | exact le_top | exact bot_le | (exfalso; linarith) | skip
    simpa using rounded

end Number

end Lookalike
