import Lookalike.Features

/-!
# Square distance

The square distance of two vectors is summed block by block. With a cap the sum is returned as soon
as it reaches the cap, so that a capped result says no more than "at least the cap" when it is not
below it. Without a finite cap the whole sum is returned.

The squares are added in one fixed order: those of a block from the first to the last, and the sums
of the blocks likewise, with a cap or without. Every addition rounds. A product of vectors that a
numerical library computes in one piece may add the same squares in another order and so round
otherwise; which order it takes is not known and is no part of this development. Nothing depends on
the order where the format keeps every sum, which is `Distance.SumsExactly`.

## Main definitions

* `Distance.blocks`, a list cut into blocks
* `Distance.total`, the sum of all blocks; `Distance.cappedTotal`, the sum up to a cap
* `Distance.square`, the square distance of two vectors
-/

namespace Lookalike.Distance

variable {F : Format}

/-- How many features are summed between two comparisons with the cap. -/
def blockSize : Nat := 16

/-- A list cut into blocks of a positive size, the last of which may be shorter. -/
def blocksOf {α : Type} (size : Nat) : (fuel : Nat) → List α → List (List α)
  | 0, _ => []
  | _ + 1, [] => []
  | fuel + 1, items => items.take size :: blocksOf size fuel (items.drop size)

/-- The blocks in which a distance is summed. -/
def blocks {α : Type} (items : List α) : List (List α) := blocksOf blockSize items.length items

theorem flatten_blocksOf {α : Type} {size : Nat} (positive : 0 < size) :
    ∀ (fuel : Nat) (items : List α), items.length ≤ fuel →
      (blocksOf size fuel items).flatten = items
  | 0, [], _ => rfl
  | _ + 1, [], _ => rfl
  | fuel + 1, item :: items, enough => by
    have shorter : ((item :: items).drop size).length ≤ fuel := by
      simp only [List.length_drop, List.length_cons] at enough ⊢
      omega
    simp only [blocksOf, List.flatten_cons, flatten_blocksOf positive fuel _ shorter,
      List.take_append_drop]

/-- Cutting into blocks loses nothing. -/
theorem flatten_blocks {α : Type} (items : List α) : (blocks items).flatten = items :=
  flatten_blocksOf (by decide) _ _ (Nat.le_refl _)

/-- The sum of the squares of some differences, added from the first to the last. -/
def sumOfSquares (differences : List (Number F)) : Number F :=
  differences.foldl (fun sum difference => sum + difference * difference) 0

/-- The sum of all blocks, added in order to what has been summed before. -/
def total (sum : Number F) (blocks : List (List (Number F))) : Number F :=
  blocks.foldl (fun sum block => sum + sumOfSquares block) sum

/-- The sum of the blocks up to the first at which it reaches the cap. -/
def cappedTotal (cap sum : Number F) : List (List (Number F)) → Number F
  | [] => sum
  | block :: rest =>
    let sum := sum + sumOfSquares block
    if cap ≤ sum then sum else cappedTotal cap sum rest

/-- The differences of the features of two vectors. -/
def differences (a b : List (Number F)) : List (Number F) := List.zipWith (· - ·) a b

/-- The square distance of two vectors of one length. With a finite cap it is the whole sum only
where it is below the cap. Without one it is the sum of the same blocks in the same order, which may
be rounded otherwise than a product of the whole vectors. -/
def square (a b : List (Number F)) (cap : Option (Number F)) : Except Fault (Number F) :=
  if a.length ≠ b.length then .error (.shapesDiffer [a.length] [b.length])
  else
    let summands := blocks (differences a b)
    match cap with
    | some cap =>
      if cap.isFinite then .ok (cappedTotal cap 0 summands) else .ok (total 0 summands)
    | none => .ok (total 0 summands)

end Lookalike.Distance
