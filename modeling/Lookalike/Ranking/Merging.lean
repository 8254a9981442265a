import Lookalike.Number.Basic

/-!
# Merging of runs

Two neighbouring runs become one. What is in place already at both ends stays there. Of what is left
the shorter run is set aside, and the other one leads. As long as neither of the two wins often in a
row, their next items are compared and one of them is placed. If one wins often, strides are made:
it is looked up how many items of each run may be placed at once, in steps of growing width and then
by halving. How often a run has to win before that, the patience, falls with each pair of strides
and rises when strides turn out short.

Runs are merged from the front if the first one is set aside and else from the end. In the latter
case both are turned around.

## Main definitions

* `Ranking.stride`, how many items at the beginning of a list pass a test
* `Ranking.Merging`, a merge under way
* `Ranking.mergeRuns`, two runs merged, with `Ranking.mergeRuns_perm`
-/

namespace Lookalike.Ranking

variable {α : Type}

/-- Steps of growing width over items that pass a test: the last place at which the test was passed
and a later one at which it was not, or the end. -/
def widen (test : α → Bool) (items : List α) (passed next : Nat) : Nat × Nat :=
  if h : next < items.length then
    if test items[next] then widen test items next (2 * next + 1) else (passed, next)
  else (passed, items.length)
termination_by items.length - next

/-- The place between two bounds at which items cease to pass a test, found by halving. Of two
places in the middle the later one is tested, or the earlier one if the items are turned around. -/
def bisect (reversed : Bool) (test : α → Bool) (items : List α) (low high : Nat) : Nat :=
  if low < high then
    let middle := low + (high - low - reversed.toNat) / 2
    if (items[middle]?).any test then bisect reversed test items (middle + 1) high
    else bisect reversed test items low middle
  else high
termination_by high - low

/-- How many items at the beginning of a list pass a test. -/
def stride (reversed : Bool) (test : α → Bool) (items : List α) : Nat :=
  if (items.head?).any test then
    let (passed, next) := widen test items 0 1
    bisect reversed test items (passed + 1) next
  else 0

/-- A merge under way: the items that are placed, the latest one first, and what is left of the run
that leads and of the other one. -/
structure Merging (α : Type) where
  placed : List α
  leader : List α
  other : List α

/-- How runs are merged: which item of the leading run goes before which of the other one, and
whether the runs are turned around. -/
structure Manner (α : Type) where
  leads : α → α → Bool
  reversed : Bool

namespace Merging

/-- The row that the placed items make up with what is left. -/
def toList (merging : Merging α) : List α :=
  merging.placed.reverse ++ merging.leader ++ merging.other

/-- A merge is over when nothing is left of the leading run, or no more than one item of the
other. -/
def isOver (merging : Merging α) : Bool := merging.leader.isEmpty || merging.other.length ≤ 1

/-- Places items of the leading run. -/
def advanceLeader (count : Nat) (merging : Merging α) : Merging α :=
  { merging with
    placed := (merging.leader.take count).reverse ++ merging.placed
    leader := merging.leader.drop count }

/-- Places items of the other run. -/
def advanceOther (count : Nat) (merging : Merging α) : Merging α :=
  { merging with
    placed := (merging.other.take count).reverse ++ merging.placed
    other := merging.other.drop count }

/-- Places items one by one until one of the runs has won so often in a row that strides are worth
trying. -/
def race (leads : α → α → Bool) (patience : Nat) :
    (leader other placed : List α) → (leaderWins otherWins : Nat) → Merging α
  | a :: leader, b :: next :: other, placed, leaderWins, otherWins =>
    -- The last item of the other run is never compared here, which the end relies on.
    if leads a b then
      if patience ≤ leaderWins + 1 then ⟨a :: placed, leader, b :: next :: other⟩
      else race leads patience leader (b :: next :: other) (a :: placed) (leaderWins + 1) 0
    else if patience ≤ otherWins + 1 then ⟨b :: placed, a :: leader, next :: other⟩
    else race leads patience (a :: leader) (next :: other) (b :: placed) 0 (otherWins + 1)
  | leader, other, placed, _, _ => ⟨placed, leader, other⟩
termination_by leader other => leader.length + other.length

/-- Places the items of the leading run that go before the next one of the other, and that one. The
number of the former is given as well. -/
def strideOfLeader (manner : Manner α) (merging : Merging α) : Merging α × Nat :=
  match merging.other.head? with
  | none => (merging, 0)
  | some next =>
    let count := stride manner.reversed (fun item => manner.leads item next) merging.leader
    let moved := merging.advanceLeader count
    (if moved.isOver then moved else moved.advanceOther 1, count)

/-- Places the items of the other run that go before the next one of the leading run, and that one.
The number of the former is given as well. -/
def strideOfOther (manner : Manner α) (merging : Merging α) : Merging α × Nat :=
  match merging.leader.head? with
  | none => (merging, 0)
  | some next =>
    let count := stride manner.reversed (fun item => !manner.leads next item) merging.other
    let moved := merging.advanceOther count
    (if moved.isOver then moved else moved.advanceLeader 1, count)

/-- Two strides, the second one unless the merge is over before, and the length of the longer
stride. -/
def inTurn (first second : Merging α → Merging α × Nat) (merging : Merging α) : Merging α × Nat :=
  let (moved, count) := first merging
  if moved.isOver then (moved, count)
  else
    let (moved, next) := second moved
    (moved, max count next)

/-- A stride of each run, first of the one in front, and the length of the longer stride. -/
def strides (manner : Manner α) : Merging α → Merging α × Nat :=
  if manner.reversed then inTurn (strideOfLeader manner) (strideOfOther manner)
  else inTurn (strideOfOther manner) (strideOfLeader manner)

/-- The least length of a stride after which further ones are made. It is also the patience at
first. -/
def longStride : Nat := 7

/-- Makes strides as long as they are long. -/
def strideOn (manner : Manner α) : (fuel patience : Nat) → Merging α → Merging α × Nat
  | 0, patience, merging => (merging, patience)
  | fuel + 1, patience, merging =>
    -- Long strides lower the patience, so that they are tried sooner again.
    let patience := max 1 (patience - 1)
    let (moved, longest) := strides manner merging
    if moved.isOver || longest < longStride then (moved, patience)
    else strideOn manner fuel patience moved

/-- Carries a merge to its end. Each turn places an item, so that as many turns suffice as there are
items left. -/
def finish (manner : Manner α) : (fuel patience : Nat) → Merging α → Merging α × Nat
  | 0, patience, merging => (merging, patience)
  | fuel + 1, patience, merging =>
    let raced := race manner.leads patience merging.leader merging.other merging.placed 0 0
    if raced.isOver then (raced, patience)
    else
      let (moved, patience) := raced.strideOn manner fuel (patience + 1)
      if moved.isOver then (moved, patience) else finish manner fuel (patience + 1) moved

@[simp] theorem toList_advanceLeader (count : Nat) (merging : Merging α) :
    (merging.advanceLeader count).toList = merging.toList := by
  simp [advanceLeader, toList]

theorem toList_advanceOther (count : Nat) (merging : Merging α) :
    (merging.advanceOther count).toList.Perm merging.toList := by
  have whole := List.take_append_drop count merging.other
  simp only [advanceOther, toList, List.reverse_append, List.reverse_reverse, List.append_assoc]
  refine List.Perm.append_left _ ?_
  refine (List.perm_append_comm_assoc _ _ _).trans (List.Perm.append_left _ ?_)
  rw [whole]

theorem toList_race (leads : α → α → Bool) (patience : Nat) (leader other placed : List α)
    (leaderWins otherWins : Nat) :
    (race leads patience leader other placed leaderWins otherWins).toList.Perm
      (toList ⟨placed, leader, other⟩) := by
  have leaderPlaced : ∀ (a : α) (leader other placed : List α),
      (toList ⟨a :: placed, leader, other⟩).Perm (toList ⟨placed, a :: leader, other⟩) := by
    intro a leader other placed
    simp [toList]
  have otherPlaced : ∀ (b : α) (leader other placed : List α),
      (toList ⟨b :: placed, leader, other⟩).Perm (toList ⟨placed, leader, b :: other⟩) := by
    intro b leader other placed
    simp only [toList, List.reverse_cons, List.append_assoc, List.singleton_append]
    exact List.Perm.append_left _ List.perm_middle.symm
  fun_induction race leads patience leader other placed leaderWins otherWins with
  | case1 => exact leaderPlaced _ _ _ _
  | case2 _ _ _ _ _ _ _ _ _ _ ih => exact ih.trans (leaderPlaced _ _ _ _)
  | case3 => exact otherPlaced _ _ _ _
  | case4 _ _ _ _ _ _ _ _ _ _ ih => exact ih.trans (otherPlaced _ _ _ _)
  | case5 => exact List.Perm.refl _

theorem toList_strideOfLeader (manner : Manner α) (merging : Merging α) :
    (merging.strideOfLeader manner).1.toList.Perm merging.toList := by
  unfold strideOfLeader
  split
  · exact List.Perm.refl _
  · dsimp only
    split
    · rw [toList_advanceLeader]
    · exact (toList_advanceOther _ _).trans (List.Perm.of_eq (toList_advanceLeader _ _))

theorem toList_strideOfOther (manner : Manner α) (merging : Merging α) :
    (merging.strideOfOther manner).1.toList.Perm merging.toList := by
  unfold strideOfOther
  split
  · exact List.Perm.refl _
  · dsimp only
    split
    · exact toList_advanceOther _ _
    · rw [toList_advanceLeader]; exact toList_advanceOther _ _

theorem toList_inTurn {first second : Merging α → Merging α × Nat}
    (first_perm : ∀ merging, (first merging).1.toList.Perm merging.toList)
    (second_perm : ∀ merging, (second merging).1.toList.Perm merging.toList)
    (merging : Merging α) : (inTurn first second merging).1.toList.Perm merging.toList := by
  unfold inTurn
  dsimp only
  split
  · exact first_perm merging
  · exact (second_perm _).trans (first_perm merging)

theorem toList_strides (manner : Manner α) (merging : Merging α) :
    (strides manner merging).1.toList.Perm merging.toList := by
  unfold strides
  split
  · exact toList_inTurn (toList_strideOfLeader manner) (toList_strideOfOther manner) merging
  · exact toList_inTurn (toList_strideOfOther manner) (toList_strideOfLeader manner) merging

theorem toList_strideOn (manner : Manner α) (fuel patience : Nat) (merging : Merging α) :
    (merging.strideOn manner fuel patience).1.toList.Perm merging.toList := by
  induction fuel generalizing patience merging with
  | zero => exact List.Perm.refl _
  | succ fuel ih =>
    unfold strideOn
    dsimp only
    split
    · exact toList_strides manner merging
    · exact (ih _ _).trans (toList_strides manner merging)

theorem toList_finish (manner : Manner α) (fuel patience : Nat) (merging : Merging α) :
    (merging.finish manner fuel patience).1.toList.Perm merging.toList := by
  induction fuel generalizing patience merging with
  | zero => exact List.Perm.refl _
  | succ fuel ih =>
    have raced := toList_race manner.leads patience merging.leader merging.other merging.placed 0 0
    have moved := (toList_strideOn manner fuel (patience + 1) _).trans raced
    unfold finish
    dsimp only
    split
    · exact raced
    · split
      · exact moved
      · exact (ih _ _).trans moved

end Merging

/-- Two runs merged with the first item of the leading one in front, and the patience left. -/
def mergeBy (manner : Manner α) (patience : Nat) (leader other : List α) : List α × Nat :=
  let begun := (Merging.mk [] leader other).advanceLeader 1
  let (merged, patience) := begun.finish manner (leader.length + other.length) patience
  (merged.toList, patience)

/-- Two neighbouring runs merged, and the patience left. -/
def mergeRuns (above : α → α → Bool) (patience : Nat) (first second : List α) : List α × Nat :=
  match second.head?, first.getLast? with
  | some head, some last =>
    let low := stride false (fun item => !above head item) first
    let high := second.length - stride true (fun item => !above item last) second.reverse
    let rest := first.drop low
    let moved := second.take high
    if rest.isEmpty || moved.isEmpty then (first ++ second, patience)
    else if rest.length ≤ moved.length then
      let (merged, patience) := mergeBy ⟨above, false⟩ patience moved rest
      (first.take low ++ (merged ++ second.drop high), patience)
    else
      let manner : Manner α := ⟨fun a b => above b a, true⟩
      let (merged, patience) := mergeBy manner patience rest.reverse moved.reverse
      (first.take low ++ (merged.reverse ++ second.drop high), patience)
  | _, _ => (first ++ second, patience)

theorem mergeBy_perm (manner : Manner α) (patience : Nat) (leader other : List α) :
    (mergeBy manner patience leader other).1.Perm (leader ++ other) := by
  unfold mergeBy
  refine (Merging.toList_finish _ _ _ _).trans ?_
  rw [Merging.toList_advanceLeader]
  exact List.Perm.of_eq (by simp [Merging.toList])

/-- Merging neither adds nor drops an item. -/
theorem mergeRuns_perm (above : α → α → Bool) (patience : Nat) (first second : List α) :
    (mergeRuns above patience first second).1.Perm (first ++ second) := by
  have between : ∀ (low high : Nat) (middle : List α),
      middle.Perm (first.drop low ++ second.take high) →
        (first.take low ++ (middle ++ second.drop high)).Perm (first ++ second) := by
    intro low high middle same
    refine ((same.append_right _).append_left _).trans (List.Perm.of_eq ?_)
    rw [List.append_assoc, List.take_append_drop, ← List.append_assoc, List.take_append_drop]
  unfold mergeRuns
  split
  · dsimp only
    split
    · exact List.Perm.refl _
    · split
      · exact between _ _ _ ((mergeBy_perm _ _ _ _).trans List.perm_append_comm)
      · refine between _ _ _ (((List.reverse_perm _).trans (mergeBy_perm _ _ _ _)).trans ?_)
        exact (List.reverse_perm _).append (List.reverse_perm _)
  · exact List.Perm.refl _

end Lookalike.Ranking
