import Lookalike.Distance
import Lookalike.NumberArray.Basic

/-!
# Square distance of arrays

Two arrays of one shape are compared by multiplying their difference with itself. For vectors that
is the square distance. Arrays with more dimensions are multiplied as matrices are: their last two
dimensions have to agree, and the product has twice the dimensions less two, so that it is never a
single number. With a finite cap the first block along the first dimension is multiplied first, and
an array without such blocks has distance zero.

## Main definitions

* `NumberArray.productFault`, why there is no distance of arrays with more than one dimension
* `NumberArray.squareDistance`
-/

namespace Lookalike.NumberArray

variable {F : Format}

/-- How many dimensions an array may have that is gone through element by element. -/
def traversalLimit : Nat := 32

/-- What is wrong with the product of an array of more than one dimension with itself: the last two
dimensions differ, the product has too many dimensions, the array has, or the product is no single
number. -/
def productFault (shape : List Nat) : Fault :=
  match shape.reverse with
  | inner :: outer :: _ =>
    if inner ≠ outer ∨ dimensionLimit < 2 * shape.length - 2 then .unreadable
    else if traversalLimit < shape.length then .tooManyDimensions
    else .wrongKind
  | _ => .wrongKind

/-- The square distance of two arrays of one shape, exact where it is below the cap. -/
def squareDistance (a b : NumberArray F) (cap : Option (Number F)) : Except Fault (Number F) :=
  if a.shape ≠ b.shape then .error (.shapesDiffer a.shape b.shape)
  else
    match a.shape, (cap.map (·.isFinite)).getD false with
    | [_], _ => Distance.square a.values b.values cap
    | [], true => .error .outOfRange
    | [], false => .ok (Distance.sumOfSquares (Distance.differences a.values b.values))
    | 0 :: _, true => .ok 0
    | rows :: rest, true => .error (productFault (min Distance.blockSize rows :: rest))
    | shape, false => .error (productFault shape)

end Lookalike.NumberArray
