import Lookalike.Number.Basic

/-!
# Rows and runs

Where it is only known of two items whether one lies above the other, items are put into a row one
after the other, each at the place to which comparing it with the middle of what is left leads. A
row need not be started from one item: the beginning of a list may be a row already.

## Main definitions

* `Ranking.insertByHalves`, an item put into a row, with `Ranking.insertByHalves_perm`
* `Ranking.leadingRun`, the row with which a list begins, with `Ranking.leadingRun_perm`
* `Ranking.nextRun`, that row filled up to a length, with `Ranking.nextRun_perm`
-/

namespace Lookalike.Ranking

variable {α : Type} (above : α → α → Bool)

/-- Puts an item into a row: in front of the middle if it lies above the middle, and else behind
it. -/
def insertByHalves (item : α) (row : List α) : List α :=
  match _back : row.drop (row.length / 2) with
  | [] => [item]
  | middle :: rest =>
    if above item middle then insertByHalves item (row.take (row.length / 2)) ++ middle :: rest
    else row.take (row.length / 2) ++ middle :: insertByHalves item rest
termination_by row.length
decreasing_by
  all_goals
    have size := congrArg List.length ‹List.drop _ row = _ :: _›
    rw [List.length_drop, List.length_cons] at size
  · rw [List.length_take]; omega
  · omega

/-- The longest beginning of a list in which each item and its successor are so related, and the
rest of the list. -/
def leading (related : α → α → Bool) : List α → List α × List α
  | [] => ([], [])
  | [item] => ([item], [])
  | item :: next :: rest =>
    if related item next then
      let (run, others) := leading related (next :: rest)
      (item :: run, others)
    else ([item], next :: rest)

/-- The beginning of a list that is in order already, or turned around if its items rise, and the
rest of the list. -/
def leadingRun (items : List α) : List α × List α :=
  match items with
  | first :: second :: _ =>
    if above second first then
      let (run, others) := leading (fun a b => above b a) items
      (run.reverse, others)
    else leading (fun a b => !above b a) items
  | items => (items, [])

/-- The run with which a list begins, filled up to a least length, and the rest of the list. -/
def nextRun (least : Nat) (items : List α) : List α × List α :=
  let (run, others) := leadingRun above items
  let missing := least - run.length
  ((others.take missing).foldl (fun row item => insertByHalves above item row) run,
    others.drop missing)

theorem insertByHalves_perm (item : α) (row : List α) :
    (insertByHalves above item row).Perm (item :: row) := by
  fun_induction insertByHalves above item row with
  | case1 row back =>
    have size := congrArg List.length back
    rw [List.length_drop, List.length_nil] at size
    rw [List.eq_nil_of_length_eq_zero (l := row) (by omega)]
  | case2 row middle rest back _ ih =>
    have whole := List.take_append_drop (row.length / 2) row
    rw [back] at whole
    exact (ih.append_right _).trans (List.Perm.of_eq (congrArg (item :: ·) whole))
  | case3 row middle rest back _ ih =>
    have whole := List.take_append_drop (row.length / 2) row
    rw [back] at whole
    have moved := (ih.cons middle).trans (List.Perm.swap item middle rest)
    exact (moved.append_left _).trans
      (List.perm_middle.trans (List.Perm.of_eq (congrArg (item :: ·) whole)))

theorem foldl_insert_perm (others row : List α) :
    (others.foldl (fun row item => insertByHalves above item row) row).Perm (row ++ others) := by
  induction others generalizing row with
  | nil => simp
  | cons item rest ih =>
    exact (ih _).trans (((insertByHalves_perm above item row).append_right rest).trans
      List.perm_middle.symm)

theorem leading_append (related : α → α → Bool) (items : List α) :
    (leading related items).1 ++ (leading related items).2 = items := by
  fun_induction leading related items with
  | case1 => rfl
  | case2 => rfl
  | case3 item next rest _ run others split ih => simp_all
  | case4 => rfl

theorem leading_ne_nil (related : α → α → Bool) (item : α) (items : List α) :
    (leading related (item :: items)).1 ≠ [] := by
  match items with
  | [] => simp [leading]
  | next :: rest => rw [leading]; split <;> simp

theorem leadingRun_perm (items : List α) :
    ((leadingRun above items).1 ++ (leadingRun above items).2).Perm items := by
  unfold leadingRun
  split
  next first second rest =>
    split
    · have whole := leading_append (fun a b => above b a) (first :: second :: rest)
      exact ((List.reverse_perm _).append_right _).trans (List.Perm.of_eq whole)
    · exact List.Perm.of_eq (leading_append _ _)
  next => simp

theorem leadingRun_ne_nil (item : α) (items : List α) :
    (leadingRun above (item :: items)).1 ≠ [] := by
  unfold leadingRun
  split
  next first second rest _ =>
    split
    · exact fun empty => leading_ne_nil _ _ _ (List.reverse_eq_nil_iff.1 empty)
    · exact leading_ne_nil _ _ _
  next => simp

/-- Filling up a run neither adds nor drops an item. -/
theorem nextRun_perm (least : Nat) (items : List α) :
    ((nextRun above least items).1 ++ (nextRun above least items).2).Perm items := by
  unfold nextRun
  refine ((foldl_insert_perm above _ _).append_right _).trans ?_
  rw [List.append_assoc, List.take_append_drop]
  exact leadingRun_perm above items

theorem nextRun_rest_length_lt (least : Nat) (item : α) (items : List α) :
    (nextRun above least (item :: items)).2.length < (item :: items).length := by
  have whole := (leadingRun_perm above (item :: items)).length_eq
  have some := List.length_pos_iff.2 (leadingRun_ne_nil above item items)
  rw [List.length_append] at whole
  unfold nextRun
  simp only [List.length_drop]
  omega

end Lookalike.Ranking
