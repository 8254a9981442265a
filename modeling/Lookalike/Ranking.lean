import Lookalike.Ranking.Runs

/-!
# Ranking

Scored items are ranked by descending score; items of equal score keep the order in which they were
given. A score that is no number lies neither above nor below another, so where there is one, there
is no such order. The items are then arranged by runs, as far as comparing scores tells.

## Main definitions

* `Ranking.ranksBefore`, whether one scored item may stand in front of another
* `Ranking.rank`, scored items ranked, with `Ranking.rank_perm` and `Ranking.rank_of_numbers`
-/

namespace Lookalike.Ranking

variable {α : Type} {F : Format}

/-- Whether one of two scored items may stand in front of the other: its score is not the lower
one. -/
def ranksBefore (a b : α × Number F) : Bool := !decide (a.2 < b.2)

/-- Whether the score of an item lies above that of another. -/
def isAbove (a b : α × Number F) : Bool := decide (b.2 < a.2)

/-- Scored items by descending score. -/
def rank (items : List (α × Number F)) : List (α × Number F) :=
  if items.any (·.2.isNaN) then arrange isAbove items else items.mergeSort ranksBefore

/-- Ranking neither adds nor drops an item. -/
theorem rank_perm (items : List (α × Number F)) : (rank items).Perm items := by
  unfold rank
  split
  · exact arrange_perm isAbove items
  · exact List.mergeSort_perm items _

/-- Where all scores are numbers, ranking is a stable sort. -/
theorem rank_of_numbers {items : List (α × Number F)}
    (numbers : ∀ item ∈ items, item.2.isNaN = false) :
    rank items = items.mergeSort ranksBefore := by
  unfold rank
  rw [if_neg]
  simpa using numbers

end Lookalike.Ranking
