import Lookalike.Scorer
import Lookalike.Proofs.Chain.Slip

/-!
# The cap of the distance

A tail is arranged by distances that are summed up to a cap only. In the arithmetic of the program
the cap is meant to leave the chain as it is, and it does exactly when no choice is made by a slip.
Slips are rare, but four entries of twenty features suffice for one.

## Main definitions

* `Chain.wholeSquare`, the square distance without a cap
* `Chain.Misled`, that some choice of a reordering is made by a slip

## Main statements

* `Chain.order_chainDistance_eq_iff`, when the cap leaves the chain as it is
* `Chain.cap_changes_order`, that it does not always
-/

namespace Lookalike.Chain

variable {F : Format}

/-- The square distance, summed in the same blocks and never up to a cap. -/
def wholeSquare : DistanceFunction Position (List (Number F)) F :=
  fun _ x y _ => Distance.square x y none

/-- The entry of a position as it is measured. -/
def measuredLink (vectorOf : Position → List (Number F)) (reference : List (Number F)) :
    Position → Link Position (List (Number F)) F :=
  linkOf vectorOf fun position =>
    Distance.total 0 (Distance.blocks (Distance.differences reference (vectorOf position)))

/-- Whether some choice of a reordering is made by a slip. A tail of at most two entries leaves no
choice. -/
def Misled (vectorOf : Position → List (Number F)) (reference : List (Number F))
    (order : List Position) (tailStart : Position) (window : Int) : Prop :=
  match order.drop (tailStart - 1).toNat with
  | [] => False
  | seed :: tail =>
    2 < tail.length ∧
      someChoiceSlips window.toNat (tail.length - 1) (measuredLink vectorOf reference seed)
        (tail.map (measuredLink vectorOf reference))

section

variable {order : List Position} {tailStart window : Int} {vectorOf : Position → List (Number F)}
  {reference : List (Number F)} {features : Position → Except Fault (List (Number F))}

theorem isSound_measuredLink (proper : F.IsProper) {p : Position}
    (finite : ∀ x ∈ vectorOf p, x.isFinite) (finite' : ∀ x ∈ reference, x.isFinite) :
    (measuredLink vectorOf reference p).IsSound where
  finite := finite
  amount := Distance.isAmount_total proper Number.isAmount_zero fun _ =>
    Distance.isAmount_sumOfSquares_of_mem_blocks proper finite' finite

theorem decides_chainDistance {p q : Position}
    (same : (vectorOf p).length = (vectorOf q).length) :
    Decides Scorer.chainDistance cappedDistance (fun _ => True)
      (measuredLink vectorOf reference p) (measuredLink vectorOf reference q) :=
  .of_eq fun _ cap => Distance.square_of_length_eq same (some cap)

theorem decides_wholeSquare {p q : Position}
    (same : (vectorOf p).length = (vectorOf q).length) :
    Decides wholeSquare wholeDistance (fun _ => True)
      (measuredLink vectorOf reference p) (measuredLink vectorOf reference q) :=
  .of_eq fun _ _ => Distance.square_of_length_eq same none

/-- The cap leaves a chain of finite vectors as it is exactly when no choice is made by a slip. -/
theorem order_eq_iff_not_misled (proper : F.IsProper) (distinct : order.Nodup)
    (start : 1 ≤ tailStart)
    (fetched : ∀ p ∈ order.drop (tailStart - 1).toNat, features p = .ok (vectorOf p))
    (finite : ∀ p ∈ order.drop (tailStart - 1).toNat, ∀ x ∈ vectorOf p, x.isFinite)
    (finite' : ∀ x ∈ reference, x.isFinite)
    (same : ∀ p ∈ order.drop (tailStart - 1).toNat, (vectorOf p).length = reference.length) :
    (reorder Scorer.chainDistance order tailStart features reference window).fault = none ∧
      (reorder wholeSquare order tailStart features reference window).fault = none ∧
      ((reorder Scorer.chainDistance order tailStart features reference window).order =
          (reorder wholeSquare order tailStart features reference window).order ↔
        ¬ Misled vectorOf reference order tailStart window) := by
  rcases Int.lt_or_le 2 ((order.length : Int) - tailStart) with long | short
  · -- Both reorderings keep the first part, so the chains of the tail decide.
    have uncapped : ∀ p ∈ order.drop (tailStart - 1).toNat, ∀ calls,
        Scorer.chainDistance calls reference (vectorOf p) none =
          .ok (measuredLink vectorOf reference p).fromReference :=
      fun p member _ => Distance.square_of_length_eq (same p member).symm none
    have uncapped' : ∀ p ∈ order.drop (tailStart - 1).toNat, ∀ calls,
        wholeSquare calls reference (vectorOf p) none =
          .ok (measuredLink vectorOf reference p).fromReference := uncapped
    have alike : ∀ p ∈ order.drop (tailStart - 1).toNat, ∀ q ∈ order.drop (tailStart - 1).toNat,
        (vectorOf p).length = (vectorOf q).length := fun p member q member' =>
      (same p member).trans (same q member').symm
    obtain ⟨seed, seed_tail, harmless, ordered⟩ := reorder_eq_arrangeLeaders window fetched uncapped
      (fun p member q member' => decides_chainDistance (alike p member q member')) trivial start
      long
    obtain ⟨seed', seed_tail', harmless', ordered'⟩ := reorder_eq_arrangeLeaders window fetched
      uncapped' (fun p member q member' => decides_wholeSquare (alike p member q member')) trivial
      start long
    obtain rfl : seed = seed' := (List.cons.inj (seed_tail.symm.trans seed_tail')).1
    refine ⟨harmless, harmless', ?_⟩
    have several : 2 < (Position.after tailStart order).length := by
      have := congrArg List.length seed_tail
      rw [List.length_drop, List.length_cons] at this
      omega
    have distinct' := distinct.sublist (List.drop_sublist (tailStart - 1).toNat order)
    rw [seed_tail] at finite distinct'
    rw [ordered, ordered', List.append_cancel_left_eq, Misled, seed_tail]
    simp only [several, true_and]
    refine arrangeLeaders_eq_iff proper
      (isSound_measuredLink proper (finite seed List.mem_cons_self) finite') ?_ ?_
    · simp only [List.mem_map]
      rintro _ ⟨p, member, rfl⟩
      exact isSound_measuredLink proper (finite p (List.mem_cons_of_mem _ member)) finite'
    · simpa [linkOf, Function.comp_def] using distinct'.of_cons
  · -- A tail that is too short is left alone by both.
    have left : ∀ distance : DistanceFunction Position (List (Number F)) F,
        reorder distance order tailStart features reference window = ⟨order, none, []⟩ :=
      fun _ => if_pos short
    simp only [left, true_and, true_iff]
    intro misled
    unfold Misled at misled
    split at misled
    · exact misled
    · next seed tail seed_tail =>
      have := congrArg List.length seed_tail
      rw [List.length_drop, List.length_cons] at this
      omega

end

section Binary

variable {order : List Position} {tailStart window : Int}
  {vectorOf : Position → List (Number .binary32)} {reference : List (Number .binary32)}
  {features : Position → Except Fault (List (Number .binary64))}

/-- The stored vector of binary numbers in which distances are summed. -/
abbrev widened (vector : List (Number .binary32)) : List (Number .binary64) :=
  Scorer.widened (F := .binary64) vector

theorem isFinite_of_mem_widened {vector : List (Number .binary32)}
    (finite : ∀ x ∈ vector, x.isFinite ∧ x.Kept) : ∀ x ∈ widened vector, x.isFinite := by
  intro _ member
  obtain ⟨x, stored, rfl⟩ := List.mem_map.mp member
  exact Number.isFinite_convert (by decide) (by decide) (by decide) (by decide) (finite x stored).1
    (finite x stored).2

/-- In the arithmetic of the program the cap leaves a chain as it is exactly when no choice is made
by a slip. -/
theorem order_chainDistance_eq_iff (distinct : order.Nodup) (start : 1 ≤ tailStart)
    (fetched : ∀ p ∈ order.drop (tailStart - 1).toNat, features p = .ok (widened (vectorOf p)))
    (finite : ∀ p ∈ order.drop (tailStart - 1).toNat, ∀ x ∈ vectorOf p, x.isFinite ∧ x.Kept)
    (finite' : ∀ x ∈ reference, x.isFinite ∧ x.Kept)
    (same : ∀ p ∈ order.drop (tailStart - 1).toNat, (vectorOf p).length = reference.length) :
    (reorder Scorer.chainDistance order tailStart features (widened reference) window).fault =
        none ∧
      (reorder wholeSquare order tailStart features (widened reference) window).fault = none ∧
      ((reorder Scorer.chainDistance order tailStart features (widened reference) window).order =
          (reorder wholeSquare order tailStart features (widened reference) window).order ↔
        ¬ Misled (fun p => widened (vectorOf p)) (widened reference) order tailStart window) :=
  order_eq_iff_not_misled (by decide : 1 ≤ 53) distinct start fetched
    (fun p member => isFinite_of_mem_widened (finite p member)) (isFinite_of_mem_widened finite')
    fun p member =>
      (List.length_map _).trans ((same p member).trans (List.length_map _).symm)

/-- Four vectors of two blocks. Between the first entry and the third nothing but the first block
tells, and there the sum stops at a cap that has been rounded to it. -/
def slippingVector (position : Position) : List (Number .binary32) :=
  let (first, last) : ℚ × List ℚ :=
    match position with
    | 0 => (1, [0, 0, 1, 1 / 2 ^ 26])
    | 1 => (1 / 2, [0, 0, 1 / 2, 1 / 2 ^ 26])
    | 2 => (0, [1 / 2 ^ 27, 1 / 2 ^ 27, 0, 0])
    | _ => (8, [0, 0, 0, 0])
  (first :: List.replicate 15 0 ++ last).map .finite

private theorem orders_slippingVector :
    (reorder Scorer.chainDistance [0, 1, 2, 3] 1 (fun p => .ok (widened (slippingVector p)))
        (widened (List.replicate 20 0)) 3).order = [0, 2, 1, 3] ∧
      (reorder wholeSquare [0, 1, 2, 3] 1 (fun p => .ok (widened (slippingVector p)))
        (widened (List.replicate 20 0)) 3).order = [0, 1, 2, 3] := by
  decide +kernel

private theorem finite_slippingVector :
    ∀ p ∈ ([0, 1, 2, 3] : List Position), (∀ x ∈ slippingVector p, x.isFinite ∧ x.Kept) ∧
      (slippingVector p).length = 20 := by
  decide +kernel

private theorem finite_replicate_zero :
    ∀ x ∈ List.replicate 20 (0 : Number .binary32), x.isFinite ∧ x.Kept := by
  decide +kernel

/-- The second entry has the least cost, but the third slips into the lead. -/
theorem misled_slippingVector :
    Misled (fun p => widened (slippingVector p)) (widened (List.replicate 20 0))
      [0, 1, 2, 3] 1 3 := by
  have distinct : ([0, 1, 2, 3] : List Position).Nodup := by decide
  have agree : (reorder Scorer.chainDistance [0, 1, 2, 3] 1
        (fun p => .ok (widened (slippingVector p))) (widened (List.replicate 20 0)) 3).order =
      (reorder wholeSquare [0, 1, 2, 3] 1 (fun p => .ok (widened (slippingVector p)))
        (widened (List.replicate 20 0)) 3).order ↔
      ¬ Misled (fun p => widened (slippingVector p)) (widened (List.replicate 20 0))
        [0, 1, 2, 3] 1 3 :=
    (order_chainDistance_eq_iff distinct le_rfl (fun _ _ => rfl)
      (fun p member => (finite_slippingVector p member).1) finite_replicate_zero
      fun p member => (finite_slippingVector p member).2).2.2
  rw [orders_slippingVector.1, orders_slippingVector.2] at agree
  exact not_not.mp (mt agree.mpr (by decide))

/-- So the cap does not always leave the chain as it is. -/
theorem cap_changes_order :
    ¬ ∀ (order : List Position) (tailStart window : Int)
        (vectorOf : Position → List (Number .binary32)) (reference : List (Number .binary32)),
      order.Nodup → 1 ≤ tailStart → 1 ≤ window →
      (∀ p ∈ order, (∀ x ∈ vectorOf p, x.isFinite ∧ x.Kept) ∧
        (vectorOf p).length = reference.length) →
      (∀ x ∈ reference, x.isFinite ∧ x.Kept) →
      (reorder Scorer.chainDistance order tailStart (fun p => .ok (widened (vectorOf p)))
          (widened reference) window).order =
        (reorder wholeSquare order tailStart (fun p => .ok (widened (vectorOf p)))
          (widened reference) window).order := by
  intro always
  have agree := always [0, 1, 2, 3] 1 3 slippingVector (List.replicate 20 0) (by decide)
    (by decide) (by decide) finite_slippingVector finite_replicate_zero
  rw [orders_slippingVector.1, orders_slippingVector.2] at agree
  exact absurd agree (by decide)

end Binary

end Lookalike.Chain

