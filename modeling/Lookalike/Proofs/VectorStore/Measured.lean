import Mathlib.Data.List.Infix
import Lookalike.Proofs.Distance.Exact
import Lookalike.Proofs.ScoreMap.Formula

/-!
# What a search measures

The distance of a row to a query is the sum of the squares of the differences of their features, and
the relevance of a distance `d` is `1 / (1 + d)`. The exhaustive search computes both in the storage
format, where every operation rounds once. Where the format keeps what is computed on the way, as
exact numbers do and binary ones for integers that are small enough, the distance is the square
distance in rational arithmetic, and only the relevance is rounded.

The squares are added in order here. Where any consecutive ones have a sum that is kept, rounding
does not depend on that order.

## Main definitions

* `VectorStore.MeasuredExactly`, that the square distance of two vectors is not rounded
* `VectorStore.IsDistance`, what the distance of a row to a query has to be
* `VectorStore.IsRelevance`, what the relevance of a distance has to be

## Main statements

* `VectorStore.measuredExactly_exact`, `VectorStore.measuredExactly_of_integral`
* `VectorStore.isDistance_storedDistance`, `VectorStore.isRelevance_ofDistance`
-/

namespace Lookalike.VectorStore

open ScoreMap

variable {F : Format} {row query : FeatureVector F}

section Distance

/-- The differences of the features of two vectors in rational arithmetic. -/
def rationalGaps (row query : FeatureVector F) : List ℚ :=
  List.zipWith (fun x y => x.value - y.value) row query

/-- That the features of two vectors are finite and the storage format keeps their differences and
the sums of the squares of any consecutive ones. -/
structure MeasuredExactly (row query : FeatureVector F) : Prop where
  finite_row : ∀ x ∈ row, x.isFinite
  finite_query : ∀ y ∈ query, y.isFinite
  differences : ∀ gap ∈ rationalGaps row query, Number.ofRat F.storage gap = .finite gap
  sums : ∀ {part}, part <:+: rationalGaps row query →
    Number.ofRat F.storage (part.map (· ^ 2)).sum = .finite (part.map (· ^ 2)).sum

/-- That a number is the distance of a row to a query: the squares of the differences of their
features are added to zero, one after the other. Where nothing is rounded, this is the square
distance in rational arithmetic. -/
structure IsDistance (row query : FeatureVector F) (distance : Number F.storage) : Prop where
  added : distance = ((row.zip query).map fun (x, y) => (x - y) * (x - y)).foldl (· + ·) 0
  exact : MeasuredExactly row query →
    distance = .finite (squareDistance (row.map (·.value)) (query.map (·.value)))

theorem squareDistance_map_value (row query : FeatureVector F) :
    squareDistance (row.map (·.value)) (query.map (·.value)) =
      ((rationalGaps row query).map (· ^ 2)).sum := by
  rw [squareDistance, rationalGaps, List.zipWith_map, List.map_zipWith]

namespace MeasuredExactly

/-- A difference that is kept has the value of the difference in rational arithmetic. -/
theorem difference (exact : MeasuredExactly row query) :
    ∀ pair ∈ row.zip query, (pair.1 - pair.2).isFinite ∧
      (pair.1 - pair.2).value = pair.1.value - pair.2.value := by
  rintro ⟨x, y⟩ paired
  obtain ⟨left, right⟩ := List.of_mem_zip paired
  have kept : Number.ofRat F.storage (x.value - y.value) = .finite (x.value - y.value) := by
    apply exact.differences
    rw [rationalGaps, ← List.map_uncurry_zip_eq_zipWith]
    exact List.mem_map_of_mem paired
  rcases Number.sub_eq_ofRat_or (exact.finite_row x left) (exact.finite_query y right) with
    rounded | ⟨zero, none, none'⟩
  · rw [rounded, kept]
    exact ⟨rfl, rfl⟩
  · -- The difference of two zeros is a zero with a sign, which no rounding gives.
    rw [zero, none, none', sub_self]
    exact ⟨rfl, rfl⟩

theorem map_value_differences (exact : MeasuredExactly row query) :
    (List.zipWith (· - ·) row query).map (·.value) = rationalGaps row query := by
  rw [rationalGaps, ← List.map_uncurry_zip_eq_zipWith, ← List.map_uncurry_zip_eq_zipWith,
    List.map_map]
  exact List.map_congr_left fun pair paired => (exact.difference pair paired).2

theorem sumsExactly (exact : MeasuredExactly row query) :
    Distance.SumsExactly (List.zipWith (· - ·) row query) where
  finite gap member := by
    rw [← List.map_uncurry_zip_eq_zipWith] at member
    obtain ⟨pair, paired, rfl⟩ := List.mem_map.mp member
    exact (exact.difference pair paired).1
  kept {part} inside := by
    have inside' := inside.map (·.value)
    rw [exact.map_value_differences] at inside'
    have kept := exact.sums inside'
    rwa [List.map_map] at kept

end MeasuredExactly

/-- The distance of two vectors is the sum of the squares of their differences. -/
theorem isDistance_storedDistance (row query : FeatureVector F) :
    IsDistance row query (storedDistance row query) where
  added := by
    rw [storedDistance, Distance.sumOfSquares, ← List.map_uncurry_zip_eq_zipWith, List.foldl_map,
      List.foldl_map]
    rfl
  exact exact := by
    rw [storedDistance, exact.sumsExactly.sumOfSquares, squareDistance_map_value,
      ← exact.map_value_differences, List.map_map]
    rfl

/-- Exact numbers keep every distance. -/
theorem measuredExactly_exact {row query : FeatureVector .exact} (finite : ∀ x ∈ row, x.isFinite)
    (finite' : ∀ y ∈ query, y.isFinite) : MeasuredExactly row query :=
  ⟨finite, finite', fun _ _ => rfl, fun _ => rfl⟩

/-- A sum of squares of integers is a natural number, and any consecutive squares have a sum that is
no greater. -/
theorem exists_sum_sq_eq_natCast {gaps part : List ℚ} (whole : ∀ gap ∈ gaps, ∃ n : ℤ, gap = n)
    (inside : part <:+: gaps) :
    ∃ n : ℕ, (part.map (· ^ 2)).sum = (n : ℚ) ∧ (n : ℚ) ≤ (gaps.map (· ^ 2)).sum := by
  -- Rationals are the numbers of the exact format, for whose sums of squares this is known.
  have sum_eq (gaps : List ℚ) : Distance.squareSum (gaps.map (Number.finite (F := .exact))) =
      (gaps.map (· ^ 2)).sum := by
    rw [Distance.squareSum, List.map_map]
    rfl
  have integral : ∀ gap ∈ part.map (Number.finite (F := .exact)), ∃ n : ℤ, gap = .finite n := by
    refine List.forall_mem_map.mpr fun gap member => ?_
    obtain ⟨n, rfl⟩ := whole gap (inside.subset member)
    exact ⟨n, rfl⟩
  obtain ⟨n, sum⟩ := Distance.exists_squareSum_eq_natCast integral
  refine ⟨n, (sum_eq part).symm.trans sum, ?_⟩
  -- The squares in front of the part and behind it make the whole sum no less.
  obtain ⟨before, after, rfl⟩ := inside
  have front := Distance.squareSum_nonneg (before.map (Number.finite (F := .exact)))
  have back := Distance.squareSum_nonneg (after.map (Number.finite (F := .exact)))
  rw [← sum_eq, List.map_append, List.map_append, Distance.squareSum_append,
    Distance.squareSum_append, sum]
  linarith

/-- The numbers in which vectors are kept hold the distance of vectors of integers as far as a
significand goes. -/
theorem measuredExactly_of_integral {row query : FeatureVector .binary64}
    (integral : ∀ x ∈ row, ∃ n : ℤ, x = .finite n) (integral' : ∀ y ∈ query, ∃ n : ℤ, y = .finite n)
    (small : squareDistance (row.map (·.value)) (query.map (·.value)) ≤ 2 ^ 24) :
    MeasuredExactly row query := by
  rw [squareDistance_map_value] at small
  have whole : ∀ gap ∈ rationalGaps row query, ∃ n : ℤ, gap = n := by
    intro gap member
    rw [rationalGaps, ← List.map_uncurry_zip_eq_zipWith] at member
    obtain ⟨⟨x, y⟩, paired, rfl⟩ := List.mem_map.mp member
    obtain ⟨left, right⟩ := List.of_mem_zip paired
    obtain ⟨m, rfl⟩ := integral x left
    obtain ⟨n, rfl⟩ := integral' y right
    exact ⟨m - n, (Int.cast_sub m n).symm⟩
  have kept {n : ℤ} (bounded : |n| ≤ 2 ^ 24) : Number.ofRat .binary32 n = .finite n :=
    Number.ofRat_intCast (by decide) (by decide) (by decide) bounded
  constructor
  case finite_row =>
    intro x member
    obtain ⟨n, rfl⟩ := integral x member
    rfl
  case finite_query =>
    intro y member
    obtain ⟨n, rfl⟩ := integral' y member
    rfl
  case differences =>
    -- A difference is no greater than its square, which is one of those that are summed.
    intro gap member
    obtain ⟨n, rfl⟩ := whole gap member
    obtain ⟨before, after, split⟩ := List.append_of_mem member
    have single : [(n : ℚ)] <:+: rationalGaps row query := ⟨before, after, by simp [split]⟩
    obtain ⟨square, sum, below⟩ := exists_sum_sq_eq_natCast whole single
    have squared : (n : ℚ) ^ 2 ≤ 2 ^ 24 := by
      rw [List.map_singleton, List.sum_singleton] at sum
      exact (sum.trans_le below).trans small
    have squared' : n ^ 2 ≤ 2 ^ 24 := by exact_mod_cast squared
    exact kept (abs_le.mpr ⟨by nlinarith, by nlinarith⟩)
  case sums =>
    intro part inside
    obtain ⟨n, sum, below⟩ := exists_sum_sq_eq_natCast whole inside
    have bounded : (n : ℤ) ≤ 2 ^ 24 := by exact_mod_cast below.trans small
    rw [sum]
    exact kept (by rwa [Nat.abs_cast])

end Distance

section Relevance

/-- That a number is the relevance of a distance `d`: it is `1 / (1 + d)` in the storage format,
brought to the format of the scores. Where the sum is kept, only the quotient is rounded. What lies
infinitely far away is not relevant at all. -/
structure IsRelevance (distance : Number F.storage) (relevance : Number F) : Prop where
  told : relevance = (1 / (1 + distance)).convert F
  rounded : ∀ d : ℚ, 0 ≤ d → distance = .finite d →
    Number.ofRat F.storage (1 + d) = .finite (1 + d) →
      relevance = (Number.ofRat F.storage (1 / (1 + d))).convert F
  infinite : distance = .posInf → relevance = 0

theorem isRelevance_ofDistance (distance : Number F.storage) :
    IsRelevance distance ((Relevance.ofDistance distance).convert F) where
  told := rfl
  rounded := by
    rintro d nonnegative rfl kept
    have sum : (1 + .finite d : Number F.storage) = .finite (1 + d) := kept
    have quotient := Number.finite_div_finite (F := F.storage) zero_le_one
      (by linarith : (0 : ℚ) < 1 + d)
    rw [Relevance.ofDistance, sum]
    exact congrArg (Number.convert F) quotient
  infinite := by
    rintro rfl
    have zero : Number.ofRat F 0 = .finite 0 := Number.ofRat_zero
    exact zero

end Relevance

end Lookalike.VectorStore
