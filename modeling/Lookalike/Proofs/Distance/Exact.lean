import Mathlib.Algebra.Order.BigOperators.Group.List
import Mathlib.Data.List.Infix
import Lookalike.Scorer
import Lookalike.Proofs.Distance

/-!
# Sums of squares that are exact

Some vectors have differences whose squares are added without rounding: all vectors in rational
arithmetic, and those whose features are stored as bytes. Their square distance is the sum of the
squares of their differences, which is zero only for vectors that agree.

## Main definitions

* `Distance.squareSum`, a sum of squares in rational arithmetic
* `Distance.SumsExactly`, that sums of squares are kept
* `Distance.signedBytes`, the widened vector of features stored as bytes

## Main statements

* `Distance.SumsExactly.total`
* `Distance.map_value_eq_of_differences`
* `Distance.sumsExactly_exact`, `Distance.sumsExactly_signedBytes`
-/

namespace Lookalike.Distance

variable {F : Format} {gaps part : List (Number F)}

section Exact

/-- The sum of the squares of some differences in rational arithmetic. -/
def squareSum (gaps : List (Number F)) : ℚ := (gaps.map fun gap => gap.value ^ 2).sum

/-- Differences are finite, and the format keeps the sum of the squares of any consecutive ones. -/
structure SumsExactly (gaps : List (Number F)) : Prop where
  finite : ∀ gap ∈ gaps, gap.isFinite
  kept : ∀ {part}, part <:+: gaps → Number.ofRat F (squareSum part) = .finite (squareSum part)

@[simp] theorem squareSum_append (gaps gaps' : List (Number F)) :
    squareSum (gaps ++ gaps') = squareSum gaps + squareSum gaps' := by
  simp [squareSum]

theorem squareSum_nonneg (gaps : List (Number F)) : 0 ≤ squareSum gaps := by
  refine List.sum_nonneg fun square member => ?_
  obtain ⟨gap, -, rfl⟩ := List.mem_map.mp member
  exact sq_nonneg _

/-- Squares add up to nothing only if all of them are zero. -/
theorem squareSum_eq_zero_iff : squareSum gaps = 0 ↔ ∀ gap ∈ gaps, gap.value = 0 := by
  induction gaps with
  | nil => simp [squareSum]
  | cons gap rest ih =>
    have split : squareSum (gap :: rest) = gap.value ^ 2 + squareSum rest := List.sum_cons
    have rest_nonneg := squareSum_nonneg rest
    rw [List.forall_mem_cons, ← ih, split, add_eq_zero_iff_of_nonneg (sq_nonneg _) rest_nonneg,
      sq_eq_zero_iff]

namespace SumsExactly

protected theorem part (exact : SumsExactly gaps) (inside : part <:+: gaps) : SumsExactly part where
  finite gap member := exact.finite gap (inside.subset member)
  kept inside' := exact.kept (inside'.trans inside)

/-- Squares are added without rounding. The induction takes the last difference away. -/
protected theorem sumOfSquares (exact : SumsExactly gaps) :
    sumOfSquares gaps = .finite (squareSum gaps) := by
  induction gaps using List.reverseRecOn with
  | nil => rfl
  | append_singleton gaps gap ih =>
    have square : gap * gap = .finite (squareSum [gap]) := by
      have single : squareSum [gap] = gap.value ^ 2 := List.sum_singleton
      rw [Number.mul_self_eq_ofRat (exact.finite gap (by simp)), ← single,
        exact.kept (List.suffix_append gaps [gap]).isInfix]
    have before := ih (exact.part (List.prefix_append gaps [gap]).isInfix)
    rw [sumOfSquares, List.foldl_append, List.foldl_cons, List.foldl_nil, ← sumOfSquares, before,
      square, Number.finite_add_finite, ← squareSum_append, exact.kept List.infix_rfl]

/-- Blocks are added without rounding. The induction takes the last block away. -/
protected theorem total {parts : List (List (Number F))} (exact : SumsExactly parts.flatten) :
    total 0 parts = .finite (squareSum parts.flatten) := by
  induction parts using List.reverseRecOn with
  | nil => rfl
  | append_singleton parts part ih =>
    rw [List.flatten_append, List.flatten_singleton] at exact ⊢
    have before := ih (exact.part (List.prefix_append _ part).isInfix)
    have last := (exact.part (List.suffix_append _ part).isInfix).sumOfSquares
    rw [total, List.foldl_append, List.foldl_cons, List.foldl_nil, ← total, before, last,
      Number.finite_add_finite, ← squareSum_append, exact.kept List.infix_rfl]

end SumsExactly

/-- Vectors whose differences are zero agree. -/
theorem map_value_eq_of_differences (proper : F.IsProper) {a b : List (Number F)}
    (same : a.length = b.length) (kept : ∀ x ∈ a, x.Kept) (kept' : ∀ x ∈ b, x.Kept)
    (finite : ∀ gap ∈ differences a b, gap.isFinite)
    (zero : ∀ gap ∈ differences a b, gap.value = 0) :
    a.map (·.value) = b.map (·.value) := by
  induction a generalizing b with
  | nil =>
    obtain rfl := List.eq_nil_of_length_eq_zero same.symm
    rfl
  | cons x a ih =>
    obtain ⟨y, b, rfl⟩ := List.exists_cons_of_length_eq_add_one same.symm
    rw [differences, List.zipWith_cons_cons, List.forall_mem_cons] at finite zero
    rw [List.forall_mem_cons] at kept kept'
    rw [List.map_cons, List.map_cons, Number.value_eq_of_value_sub_eq_zero proper kept.1 kept'.1
      finite.1 zero.1, ih (Nat.succ.inj same) kept.2 kept'.2 finite.2 zero.2]

end Exact

section Kinds

/-- Rational arithmetic keeps every sum. -/
theorem sumsExactly_exact {gaps : List (Number .exact)} (finite : ∀ gap ∈ gaps, gap.isFinite) :
    SumsExactly gaps :=
  ⟨finite, fun _ => rfl⟩

theorem exists_squareSum_eq_natCast {gaps : List (Number F)}
    (integral : ∀ gap ∈ gaps, ∃ n : ℤ, gap = .finite n) : ∃ n : ℕ, squareSum gaps = n := by
  induction gaps with
  | nil => exact ⟨0, rfl⟩
  | cons gap rest ih =>
    rw [List.forall_mem_cons] at integral
    obtain ⟨⟨m, rfl⟩, others⟩ := integral
    obtain ⟨n, sum⟩ := ih others
    have split : squareSum (.finite m :: rest : List (Number F)) = (m : ℚ) ^ 2 + squareSum rest :=
      List.sum_cons
    refine ⟨m.natAbs ^ 2 + n, ?_⟩
    rw [split, sum, Nat.cast_add, Nat.cast_pow, Nat.cast_natAbs, Int.cast_abs, sq_abs]

/-- Sums of squares of integers are kept as far as a significand goes. -/
theorem sumsExactly_of_integral {gaps : List (Number .binary64)}
    (integral : ∀ gap ∈ gaps, ∃ n : ℤ, gap = .finite n) (small : squareSum gaps ≤ 2 ^ 53) :
    SumsExactly gaps where
  finite gap member := by
    obtain ⟨n, rfl⟩ := integral gap member
    rfl
  kept {part} inside := by
    obtain ⟨n, sum⟩ := exists_squareSum_eq_natCast fun gap member =>
      integral gap (inside.subset member)
    obtain ⟨before, after, rfl⟩ := inside
    rw [squareSum_append, squareSum_append, sum] at small
    have front := squareSum_nonneg before
    have back := squareSum_nonneg after
    have bounded : (n : ℚ) ≤ 2 ^ 53 := by linarith
    have bounded' : |(n : ℤ)| ≤ 2 ^ 53 := by
      rw [Nat.abs_cast]
      exact_mod_cast bounded
    rw [sum]
    exact Number.ofRat_intCast_binary64 bounded'

theorem abs_signedByte_le (byte : UInt8) : |signedByte byte| ≤ 128 := by
  have below := byte.toNat_lt
  rw [abs_le]
  unfold signedByte
  split <;> omega

/-- A widened vector whose features are the signed values of bytes. -/
def signedBytes (data : List UInt8) : List (Number .binary64) :=
  data.map fun byte => .finite (signedByte byte : ℤ)

/-- Features stored as bytes are cast to this vector. -/
theorem toVector_bytes (data : List UInt8) :
    ((Features.bytes data : Features .binary64).toVector).map Scorer.widened =
      .ok (signedBytes data) := by
  have single (byte : UInt8) :
      (Number.ofInt .binary32 (signedByte byte)).convert .binary64 = .finite (signedByte byte) := by
    have small := abs_signedByte_le byte
    have stored : Number.ofInt .binary32 (signedByte byte) = .finite (signedByte byte) :=
      Number.ofRat_intCast (by decide) (by decide) (by decide) (small.trans (by decide))
    rw [stored]
    exact Number.ofRat_intCast_binary64 (small.trans (by decide))
  refine congrArg Except.ok ?_
  rw [Scorer.widened, List.map_map]
  exact List.map_congr_left fun byte _ => single byte

theorem kept_of_mem_signedBytes {data : List UInt8} : ∀ x ∈ signedBytes data, x.Kept := by
  intro x member
  obtain ⟨byte, -, rfl⟩ := List.mem_map.mp member
  exact Number.ofRat_intCast_binary64 ((abs_signedByte_le byte).trans (by decide))

/-- The difference of two bytes is a small integer. -/
theorem exists_of_mem_differences_signedBytes {data data' : List UInt8} {gap : Number .binary64}
    (member : gap ∈ differences (signedBytes data) (signedBytes data')) :
    ∃ n : ℤ, |n| ≤ 256 ∧ gap = .finite n := by
  rw [differences, ← List.map_uncurry_zip_eq_zipWith, List.mem_map] at member
  obtain ⟨⟨x, y⟩, paired, rfl⟩ := member
  obtain ⟨left, right⟩ := List.of_mem_zip paired
  obtain ⟨byte, -, rfl⟩ := List.mem_map.mp left
  obtain ⟨byte', -, rfl⟩ := List.mem_map.mp right
  have small : |signedByte byte - signedByte byte'| ≤ 256 :=
    (abs_sub _ _).trans (add_le_add (abs_signedByte_le byte) (abs_signedByte_le byte'))
  refine ⟨signedByte byte - signedByte byte', small, ?_⟩
  rw [← Number.ofRat_intCast_binary64 (small.trans (by decide)), Int.cast_sub]
  exact Number.finite_sub_finite

theorem squareSum_le_of_forall_abs_le {gaps : List (Number F)} {bound : ℚ}
    (bounded : ∀ gap ∈ gaps, |gap.value| ≤ bound) : squareSum gaps ≤ gaps.length * bound ^ 2 := by
  have squares : ∀ square ∈ gaps.map (fun gap => gap.value ^ 2), square ≤ bound ^ 2 := by
    intro square member
    obtain ⟨gap, inside, rfl⟩ := List.mem_map.mp member
    exact sq_le_sq.mpr ((bounded gap inside).trans (le_abs_self bound))
  have total := List.sum_le_card_nsmul _ _ squares
  rwa [List.length_map, nsmul_eq_mul] at total

/-- The squares of differences of bytes are summed exactly. -/
theorem sumsExactly_signedBytes {data data' : List UInt8} (short : data.length ≤ 2 ^ 37) :
    SumsExactly (differences (signedBytes data) (signedBytes data')) := by
  refine sumsExactly_of_integral (fun gap member => ?_) ?_
  · obtain ⟨n, -, rfl⟩ := exists_of_mem_differences_signedBytes member
    exact ⟨n, rfl⟩
  · have bounded : ∀ gap ∈ differences (signedBytes data) (signedBytes data'),
        |gap.value| ≤ 256 := by
      intro gap member
      obtain ⟨n, small, rfl⟩ := exists_of_mem_differences_signedBytes member
      have cast : |(n : ℚ)| ≤ 256 := by exact_mod_cast small
      exact cast
    have length : (differences (signedBytes data) (signedBytes data')).length ≤ 2 ^ 37 := by
      rw [differences, List.length_zipWith, signedBytes, List.length_map]
      exact (min_le_left _ _).trans short
    have length' : ((differences (signedBytes data) (signedBytes data')).length : ℚ) ≤ 2 ^ 37 := by
      exact_mod_cast length
    have total := squareSum_le_of_forall_abs_le bounded
    linarith

end Kinds

end Lookalike.Distance
