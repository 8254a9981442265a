import Lookalike.Ranking.Insertion
import Lookalike.Ranking.Merging

/-!
# Arranging by runs

Items are cut into runs, each of which is a row already or is filled up to a least length. Runs that
wait are merged with their neighbours in the order of how deep the boundaries between them lie: of
the halves, quarters and so on of all items, the first ones that keep the middles of two runs apart
tell the depth. Where items can be ordered the row that results is that order, whatever was merged
first.

## Main definitions

* `Ranking.leastRun`, the least length of a run
* `Ranking.boundaryDepth`, how deep the boundary between two runs lies
* `Ranking.arrange`, items arranged by runs, with `Ranking.arrange_perm`
-/

namespace Lookalike.Ranking

variable {α : Type} (above : α → α → Bool)

/-- The least length of a run: so many items as there are, halved until fewer than 64 are left, and
rounded up. -/
def leastRun (size : Nat) : Nat :=
  let parts := Nat.pow 2 (size.log2 - 5)
  (size + parts - 1) / parts

/-- How deep the boundary between two neighbouring runs lies: the least number of halvings of the
whole by which their middles come to lie in different parts. -/
def boundaryDepth (size start first second : Nat) : Nat :=
  let middle := 2 * start + first
  let next := middle + first + second
  -- Twice the middles are compared, so that no half is lost.
  let apart := fun depth => Nat.pow 2 depth * middle / size != Nat.pow 2 depth * next / size
  ((List.range (size.log2 + 1)).find? apart).getD size.log2 + 1

/-- A run that waits to be merged: how many items there are in front of it, how deep the boundary in
front of it lies, and its items. -/
structure Waiting (α : Type) where
  start : Nat
  depth : Nat
  items : List α

namespace Waiting

/-- The items of the runs that wait, the latest run first. -/
def toList (runs : List (Waiting α)) : List α := runs.reverse.flatMap (·.items)

/-- A run merged with the one in front of it, and the patience left. -/
def join (patience : Nat) (run front : Waiting α) : Waiting α × Nat :=
  let (items, patience) := mergeRuns above patience front.items run.items
  ({ front with items }, patience)

/-- Merges the latest runs as long as the boundary between them lies deeper than a new one. -/
def settle (depth : Nat) : (patience : Nat) → List (Waiting α) → List (Waiting α) × Nat
  | patience, run :: front :: rest =>
    -- A deeper boundary is merged away first, which keeps neighbors of like size.
    if depth < run.depth then
      let (joined, patience) := join above patience run front
      settle depth patience (joined :: rest)
    else (run :: front :: rest, patience)
  | patience, runs => (runs, patience)
termination_by _ runs => runs.length

/-- Adds a run behind those that wait. -/
def push (size patience : Nat) (items : List α) : List (Waiting α) → List (Waiting α) × Nat
  | [] => ([⟨0, 0, items⟩], patience)
  | run :: rest =>
    let depth := boundaryDepth size run.start run.items.length items.length
    let (runs, patience) := settle above depth patience (run :: rest)
    (⟨run.start + run.items.length, depth, items⟩ :: runs, patience)

/-- Merges all runs that wait, the latest two first unless the third one is shorter than the
latest. -/
def collapse : (patience : Nat) → List (Waiting α) → List α
  | patience, run :: front :: second :: rest =>
    -- The shorter one of the neighbors of the middle run is merged with it.
    if second.items.length < run.items.length then
      let (joined, patience) := join above patience front second
      collapse patience (run :: joined :: rest)
    else
      let (joined, patience) := join above patience run front
      collapse patience (joined :: second :: rest)
  | patience, [run, front] => (join above patience run front).1.items
  | _, runs => toList runs
termination_by _ runs => runs.length

end Waiting

/-- Cuts items into runs and merges them with those that wait. -/
def arrangeFrom (size patience : Nat) (waiting : List (Waiting α)) (items : List α) : List α :=
  match _shape : items with
  | [] => Waiting.collapse above patience waiting
  | _ :: _ =>
    let cut := nextRun above (leastRun size) items
    let pushed := Waiting.push above size patience cut.1 waiting
    arrangeFrom size pushed.2 pushed.1 cut.2
termination_by items.length
decreasing_by
  subst _shape
  exact nextRun_rest_length_lt above _ _ _

/-- Items arranged by runs. -/
def arrange (items : List α) : List α := arrangeFrom above items.length Merging.longStride [] items

namespace Waiting

theorem toList_cons (run : Waiting α) (runs : List (Waiting α)) :
    toList (run :: runs) = toList runs ++ run.items := by
  simp [toList]

theorem join_perm (patience : Nat) (run front : Waiting α) :
    (join above patience run front).1.items.Perm (front.items ++ run.items) :=
  mergeRuns_perm above patience front.items run.items

theorem toList_join (patience : Nat) (run front : Waiting α) (rest : List (Waiting α)) :
    (toList ((join above patience run front).1 :: rest)).Perm (toList (run :: front :: rest)) := by
  rw [toList_cons, toList_cons, toList_cons, List.append_assoc]
  exact (join_perm above patience run front).append_left _

theorem toList_settle (depth patience : Nat) (runs : List (Waiting α)) :
    (toList (settle above depth patience runs).1).Perm (toList runs) := by
  fun_induction settle above depth patience runs with
  | case1 patience run front rest _ joined left same ih =>
    have merged := toList_join above patience run front rest
    rw [same] at merged
    exact ih.trans merged
  | case2 => exact List.Perm.refl _
  | case3 => exact List.Perm.refl _

theorem toList_push (size patience : Nat) (items : List α) (runs : List (Waiting α)) :
    (toList (push above size patience items runs).1).Perm (toList runs ++ items) := by
  cases runs with
  | nil => simp [push, toList]
  | cons run rest =>
    unfold push
    dsimp only
    rw [toList_cons]
    exact (toList_settle above _ patience (run :: rest)).append_right items

theorem collapse_perm (patience : Nat) (runs : List (Waiting α)) :
    (collapse above patience runs).Perm (toList runs) := by
  fun_induction collapse above patience runs with
  | case1 patience run front second rest _ joined left same ih =>
    have merged := toList_join above patience front second rest
    rw [same] at merged
    refine ih.trans ?_
    rw [toList_cons, toList_cons run]
    exact merged.append_right _
  | case2 patience run front second rest _ joined left same ih =>
    have merged := toList_join above patience run front (second :: rest)
    rw [same] at merged
    exact ih.trans merged
  | case3 patience run front =>
    refine (join_perm above patience run front).trans (List.Perm.of_eq ?_)
    simp [toList]
  | case4 => exact List.Perm.refl _

end Waiting

theorem arrangeFrom_perm (size patience : Nat) (waiting : List (Waiting α)) (items : List α) :
    (arrangeFrom above size patience waiting items).Perm (Waiting.toList waiting ++ items) := by
  fun_induction arrangeFrom above size patience waiting items with
  | case1 patience waiting =>
    rw [List.append_nil]
    exact Waiting.collapse_perm above patience waiting
  | case2 patience waiting item rest cut pushed ih =>
    refine ih.trans (((Waiting.toList_push above size patience _ waiting).append_right _).trans ?_)
    rw [List.append_assoc]
    exact (nextRun_perm above _ _).append_left _

/-- Arranging by runs neither adds nor drops an item. -/
theorem arrange_perm (items : List α) : (arrange above items).Perm items :=
  arrangeFrom_perm above items.length Merging.longStride [] items

end Lookalike.Ranking
