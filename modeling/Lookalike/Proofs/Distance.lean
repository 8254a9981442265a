import Lookalike.Distance
import Lookalike.Proofs.Number.Difference

/-!
# Square distances as amounts

Whatever is rounded on the way, the square distance of two finite vectors is an amount, and so is
the sum up to a cap. The sum up to a cap is the whole sum or reaches the cap, and it never exceeds
the whole sum.

## Main statements

* `Distance.isAmount_total`, `Distance.isAmount_cappedTotal`
* `Distance.cappedTotal_eq_total_or_le`, `Distance.cappedTotal_le_total`
* `Distance.isAmount_sumOfSquares_of_mem_blocks`, for the blocks of two finite vectors
* `Distance.isAmount_sumOfSquares_sub`, `Distance.sumOfSquares_sub_eq_zero`
* `Distance.isAmount_of_isNaN_sumOfSquares`, `Distance.sumOfSquares_sub_comm`
-/

namespace Lookalike

variable {F : Format} {x y : Number F}

namespace Number

/-- The difference of two finite numbers is a number. -/
theorem isNaN_sub (left : x.isFinite) (right : y.isFinite) : (x - y).isNaN = false := by
  rcases sub_eq_ofRat_or left right with rounded | ⟨zero, -⟩
  · rw [rounded, isNaN_ofRat]
  · rw [zero]
    rfl

/-- The square of a number is an amount. -/
theorem isAmount_mul_self (proper : F.IsProper) (number : x.isNaN = false) :
    (x * x).IsAmount := by
  cases finite : x.isFinite with
  | true =>
    rw [mul_self_eq_ofRat finite]
    exact isAmount_ofRat proper (sq_nonneg _)
  | false =>
    cases x with
    | nan => cases number
    | negInf | posInf => exact .posInf
    | negZero | finite => cases finite

/-- The difference of two finite numbers that stand for one rational has the square zero. -/
theorem sub_mul_sub_eq_zero (left : x.isFinite) (right : y.isFinite) (same : x.value = y.value) :
    (x - y) * (x - y) = 0 := by
  rw [sub_mul_sub_eq_ofRat left right, same, sub_self, ofRat_zero]
  rfl

end Number

namespace Distance

/-- Finite vectors whose features stand for the same rationals have the square distance zero. -/
theorem sumOfSquares_sub_eq_zero {a b : List (Number F)} (left : ∀ x ∈ a, x.isFinite)
    (right : ∀ x ∈ b, x.isFinite) (same : a.map (·.value) = b.map (·.value)) :
    sumOfSquares (List.zipWith (· - ·) a b) = 0 := by
  rw [sumOfSquares]
  induction a generalizing b with
  | nil => rfl
  | cons x a ih =>
    cases b with
    | nil => rfl
    | cons y b =>
      rw [List.forall_mem_cons] at left right
      rw [List.map_cons, List.map_cons, List.cons.injEq] at same
      have still : (0 + 0 : Number F) = 0 :=
        Number.finite_add_finite.trans (by rw [add_zero, Number.ofRat_zero]; rfl)
      rw [List.zipWith_cons_cons, List.foldl_cons,
        Number.sub_mul_sub_eq_zero left.1 right.1 same.1, still]
      exact ih left.2 right.2 same.2

/-- Squares add up to an amount. -/
theorem isAmount_sumOfSquares (proper : F.IsProper) {differences : List (Number F)}
    (numbers : ∀ difference ∈ differences, difference.isNaN = false) :
    (sumOfSquares differences).IsAmount := by
  -- The sum starts at zero; the induction needs it to start at any amount.
  suffices ∀ sum : Number F, sum.IsAmount →
      (differences.foldl (fun sum difference => sum + difference * difference) sum).IsAmount from
    this 0 Number.isAmount_zero
  induction differences with
  | nil => exact fun _ amount => amount
  | cons difference rest ih =>
    rw [List.forall_mem_cons] at numbers
    intro sum amount
    exact ih numbers.2 _ (amount.add proper (Number.isAmount_mul_self proper numbers.1))

/-- Squares that add up to a number are those of numbers. -/
theorem isNaN_of_isNaN_sumOfSquares {differences : List (Number F)}
    (number : (sumOfSquares differences).isNaN = false) :
    ∀ difference ∈ differences, difference.isNaN = false := by
  -- The sum starts at zero; the induction needs it to start anywhere.
  suffices ∀ sum : Number F,
      (differences.foldl (fun sum difference => sum + difference * difference) sum).isNaN = false →
        sum.isNaN = false ∧ ∀ difference ∈ differences, difference.isNaN = false from
    (this 0 number).2
  clear number
  induction differences with
  | nil => exact fun sum number => ⟨number, by simp⟩
  | cons difference rest ih =>
    intro sum number
    obtain ⟨added, others⟩ := ih _ number
    obtain ⟨before, square⟩ := Number.isNaN_of_isNaN_add added
    refine ⟨before, List.forall_mem_cons.mpr ⟨?_, others⟩⟩
    cases difference with
    | nan => cases square
    | negInf | posInf | negZero | finite => rfl

/-- A sum of squares is an amount as soon as it is a number. -/
theorem isAmount_of_isNaN_sumOfSquares (proper : F.IsProper) {differences : List (Number F)}
    (number : (sumOfSquares differences).isNaN = false) : (sumOfSquares differences).IsAmount :=
  isAmount_sumOfSquares proper (isNaN_of_isNaN_sumOfSquares number)

theorem sumOfSquares_eq_foldl (differences : List (Number F)) :
    sumOfSquares differences =
      (differences.map fun difference => difference * difference).foldl (· + ·) 0 :=
  List.foldl_map.symm

theorem map_mul_self_differences (a b : List (Number F)) :
    (differences a b).map (fun gap => gap * gap) = (differences b a).map fun gap => gap * gap := by
  rw [differences, differences, List.map_zipWith, List.map_zipWith, List.zipWith_comm]
  simp only [Number.sub_mul_sub_comm]

/-- It does not matter for a sum of squares which vector is subtracted from which. -/
theorem sumOfSquares_sub_comm (a b : List (Number F)) :
    sumOfSquares (List.zipWith (· - ·) a b) = sumOfSquares (List.zipWith (· - ·) b a) := by
  rw [sumOfSquares_eq_foldl, sumOfSquares_eq_foldl]
  exact congrArg _ (map_mul_self_differences a b)

/-- The differences of two finite vectors are numbers. -/
theorem isNaN_of_mem_differences {a b : List (Number F)} (finite : ∀ x ∈ a, x.isFinite)
    (finite' : ∀ x ∈ b, x.isFinite) {difference : Number F}
    (member : difference ∈ List.zipWith (· - ·) a b) : difference.isNaN = false := by
  rw [← List.map_uncurry_zip_eq_zipWith, List.mem_map] at member
  obtain ⟨⟨x, y⟩, paired, rfl⟩ := member
  obtain ⟨left, right⟩ := List.of_mem_zip paired
  exact Number.isNaN_sub (finite x left) (finite' y right)

/-- The square distance of two finite vectors, summed in one go, is an amount. -/
theorem isAmount_sumOfSquares_sub (proper : F.IsProper) {a b : List (Number F)}
    (finite : ∀ x ∈ a, x.isFinite) (finite' : ∀ x ∈ b, x.isFinite) :
    (sumOfSquares (List.zipWith (· - ·) a b)).IsAmount :=
  isAmount_sumOfSquares proper fun _ => isNaN_of_mem_differences finite finite'

/-- The summands of two finite vectors are amounts. -/
theorem isAmount_sumOfSquares_of_mem_blocks (proper : F.IsProper) {a b : List (Number F)}
    (finite : ∀ x ∈ a, x.isFinite) (finite' : ∀ x ∈ b, x.isFinite) {block : List (Number F)}
    (member : block ∈ blocks (differences a b)) : (sumOfSquares block).IsAmount := by
  apply isAmount_sumOfSquares proper
  intro difference inBlock
  -- The blocks together are the differences.
  have inDifferences : difference ∈ differences a b := by
    rw [← flatten_blocks (differences a b)]
    exact List.mem_flatten_of_mem member inBlock
  exact isNaN_of_mem_differences finite finite' inDifferences

section Sums

variable {cap sum : Number F} {blocks : List (List (Number F))}

theorem isAmount_total (proper : F.IsProper) (amount : sum.IsAmount)
    (amounts : ∀ block ∈ blocks, (sumOfSquares block).IsAmount) : (total sum blocks).IsAmount := by
  induction blocks generalizing sum with
  | nil => exact amount
  | cons block rest ih =>
    rw [List.forall_mem_cons] at amounts
    exact ih (amount.add proper amounts.1) amounts.2

/-- The whole sum is not below what has been summed before. -/
theorem le_total (proper : F.IsProper) (amount : sum.IsAmount)
    (amounts : ∀ block ∈ blocks, (sumOfSquares block).IsAmount) : sum ≤ total sum blocks := by
  induction blocks generalizing sum with
  | nil => exact Number.le_refl amount.isNaN
  | cons block rest ih =>
    rw [List.forall_mem_cons] at amounts
    exact Number.le_trans (amount.le_add proper amounts.1)
      (ih (amount.add proper amounts.1) amounts.2)

theorem isAmount_cappedTotal (proper : F.IsProper) (amount : sum.IsAmount)
    (amounts : ∀ block ∈ blocks, (sumOfSquares block).IsAmount) :
    (cappedTotal cap sum blocks).IsAmount := by
  induction blocks generalizing sum with
  | nil => exact amount
  | cons block rest ih =>
    rw [List.forall_mem_cons] at amounts
    have next := amount.add proper amounts.1
    rw [cappedTotal]
    split_ifs
    · exact next
    · exact ih next amounts.2

/-- A sum that is not the whole one has reached the cap. -/
theorem cappedTotal_eq_total_or_le :
    cappedTotal cap sum blocks = total sum blocks ∨ cap ≤ cappedTotal cap sum blocks := by
  induction blocks generalizing sum with
  | nil => exact .inl rfl
  | cons block rest ih =>
    rw [cappedTotal]
    split_ifs with reached
    · exact .inr reached
    · exact ih

theorem cappedTotal_le_total (proper : F.IsProper) (amount : sum.IsAmount)
    (amounts : ∀ block ∈ blocks, (sumOfSquares block).IsAmount) :
    cappedTotal cap sum blocks ≤ total sum blocks := by
  induction blocks generalizing sum with
  | nil => exact Number.le_refl amount.isNaN
  | cons block rest ih =>
    rw [List.forall_mem_cons] at amounts
    have next := amount.add proper amounts.1
    rw [cappedTotal]
    split_ifs
    · -- Here the sum has stopped, and the blocks to come only add to it.
      exact le_total proper next amounts.2
    · exact ih next amounts.2

end Sums

/-- Vectors of one length have a square distance. -/
theorem square_of_length_eq {a b : List (Number F)} (same : a.length = b.length)
    (cap : Option (Number F)) :
    square a b cap = .ok (match cap with
      | some cap =>
        if cap.isFinite then cappedTotal cap 0 (blocks (differences a b))
        else total 0 (blocks (differences a b))
      | none => total 0 (blocks (differences a b))) := by
  unfold square
  rw [if_neg (not_not.mpr same)]
  cases cap with
  | none => rfl
  | some cap => exact (apply_ite Except.ok _ _ _).symm

end Distance

end Lookalike
