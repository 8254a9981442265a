import Lookalike.Ranking
import Lookalike.ResultSet

/-!
# Top lists

The best matched positions of a result set, in descending order of score, are split in two. The
anchors come first: the matches that are identical to the reference, and always the best match,
which anchors the reordering whether it is identical or not. The rest is the similar tail.

## Main definitions

* `TopList`, `TopList.anchors`, `TopList.tail`, `TopList.tailSize`
* `TopList.tailStartOf`, where the tail of ranked positions starts
* `TopList.select`, the top list of some positions of a result set
-/

namespace Lookalike

/-- Ranked positions, split where the tail starts. -/
structure TopList where
  positions : List Position
  tailStart : Position
deriving DecidableEq, Repr

namespace TopList

variable {Item : Type} {F : Format}

/-- How many positions the tail has. -/
def tailSize (top : TopList) : Int := top.positions.length - top.tailStart

/-- The positions that are left where they are. -/
def anchors (top : TopList) : List Position := Position.upTo top.tailStart top.positions

/-- The positions that are reordered. -/
def tail (top : TopList) : List Position := Position.after top.tailStart top.positions

/-- The anchors and the tail make up the list. -/
theorem anchors_append_tail (top : TopList) : top.anchors ++ top.tail = top.positions :=
  Position.upTo_append_after _ _

/-- How many of some positions come before the first whose score is below that of an identical
match. -/
def leadingIdentical (results : ResultSet Item F) (identicalScore : Number F) :
    List Position → Except Fault Nat
  | [] => .ok 0
  | position :: rest =>
    match results.scoreAt position with
    | .error fault => .error fault
    | .ok score =>
      if score < identicalScore then .ok 0
      else (leadingIdentical results identicalScore rest).map (· + 1)

/-- Where the tail of ranked positions starts. The first position is never part of it. -/
def tailStartOf (results : ResultSet Item F) (identicalScore : Number F) :
    List Position → Except Fault Nat
  | [] => .ok 0
  | _ :: rest => (leadingIdentical results identicalScore rest).map (· + 1)

/-- The best positions by descending score, as many as the settings allow. Positions of equal
score keep their order. -/
def select (results : ResultSet Item F) (settings : Settings F) (positions : List Position) :
    Except Fault TopList := do
  let scored ← positions.mapM fun position => do
    let score ← results.scoreAt position
    pure (position, score)
  let ranked := ((Ranking.rank scored).map (·.1)).take settings.maxTop
  let tailStart ← tailStartOf results settings.identicalScore ranked
  pure ⟨ranked, tailStart⟩

end TopList

end Lookalike
