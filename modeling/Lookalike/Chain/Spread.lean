import Lookalike.ResultSet

/-!
# Evenly spread scores

After a reordering the scores of the tail are spread evenly from its highest to its lowest, so that
a higher score still means an earlier place.

## Main definitions

* `Chain.scoreBounds`, the highest and the lowest score of a tail in descending order
* `Chain.spreadScores`, the evenly spaced scores of a tail
* `Chain.spread`, which writes them
-/

namespace Lookalike.Chain

variable {Item : Type} {F : Format}

/-- The scores of the first position of the tail and of the last position. -/
def scoreBounds (results : ResultSet Item F) (order : List Position) (tailStart : Position) :
    Except Fault (Number F × Number F) := do
  let some first := (Position.index? order.length tailStart).bind (order[·]?) | .error .outOfRange
  let highest ← results.scoreAt first
  let some last := order.getLast? | .error .outOfRange
  let lowest ← results.scoreAt last
  pure (highest, lowest)

/-- The scores that are written one after the other: evenly spaced ones along the tail, then the
lowest once more at its end. -/
def spreadScores (tail : List Position) (highest lowest : Number F) :
    List (Position × Number F) :=
  match tail with
  | [] => []
  | [position] => [(position, highest)]
  | tail =>
    let step := (highest - lowest) / Number.ofInt F (tail.length - 1)
    let spaced := tail.mapIdx fun k position => (position, highest - step * Number.ofInt F k)
    spaced ++ (tail.getLast?.map fun position => (position, lowest)).toList

/-- Writes scores one after the other. -/
def writeAll : List (Position × Number F) → Attempt (ResultSet Item F) Unit
  | [] => pure ()
  | (position, score) :: rest => do
    ResultSet.write position score
    writeAll rest

/-- Writes evenly spaced scores along the tail of an ordered list. -/
def spread (order : List Position) (tailStart : Position) (highest lowest : Number F) :
    Attempt (ResultSet Item F) Unit :=
  writeAll (spreadScores (Position.after tailStart order) highest lowest)

end Lookalike.Chain
