import Lookalike.Fault

/-!
# Relevance and score

An index reports how relevant an item is to a query as `1 / (1 + d)`, where `d` is the square
distance. The distance is recovered from the relevance and turned into a score that falls evenly
from the base score. Where the distance is nearly zero and the item is known to be an exact
duplicate of the reference, it gets the score reserved for identical items.

## Main definitions

* `Relevance.toDistance`, the square distance behind a relevance
* `Relevance.formulaScore`, the score of a distance
* `Relevance.displayScore`, the score of a relevance, which asks for an exact comparison only where
  the distance is nearly zero
-/

namespace Lookalike.Relevance

variable {F : Format}

/-- The square distance behind a relevance. What is not relevant at all is infinitely far. -/
def toDistance (relevance : Number F) : Number F :=
  if relevance ≤ 0 ∨ relevance.isNaN then .posInf
  else (1 / relevance - 1).atLeastZero

/-- The relevance of a square distance. -/
def ofDistance (distance : Number F) : Number F := 1 / (1 + distance)

/-- The score of a distance over a feature count, which is at most the base score and at least
zero. -/
def formulaScore (settings : Settings F) (features : Int) (distance : Number F) :
    Except Fault (Number F) :=
  if features ≤ 0 then .error .noFeatures
  else
    let count := Number.ofInt F features
    if count.isFinite then
      .ok (settings.baseScore - distance * settings.distanceWeight / count).atLeastZero
    else .error .tooLarge

/-- Whether a distance is near enough to zero for an exact comparison. -/
def isNearZero (settings : Settings F) (distance : Number F) : Bool :=
  distance < settings.identicalEpsilon

/-- The score of a relevance. The comparison with the reference is made only where the distance is
nearly zero, and after the score of the distance has been found. -/
def displayScore {m : Type → Type} [Monad m] [MonadExceptOf Fault m] (settings : Settings F)
    (features : Int) (relevance : Number F) (isExact : m Bool) : m (Number F) := do
  let distance := toDistance relevance
  match formulaScore settings features distance with
  | .error fault => throw fault
  | .ok score =>
    if isNearZero settings distance then
      if ← isExact then pure settings.identicalScore else pure score
    else pure score

end Lookalike.Relevance
