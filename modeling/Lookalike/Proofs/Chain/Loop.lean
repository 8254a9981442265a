import Mathlib.Data.List.Basic
import Lookalike.Chain.Basic
import Lookalike.Proofs.Attempt

/-!
# Reordering in place

A reordering can be told as a loop over one list: each pivot in turn looks at the entries behind it,
and the cheapest of the first few moves up to the place behind the pivot. A turn keeps all entries
and all places up to its pivot, and a turn that ends in a fault leaves the list as the turns before
have left it. Nothing is asked of the distance function, which may fail at any call and answer
anything.

## Main definitions

* `Chain.Progress`, the list in the midst of a reordering
* `Chain.Progress.turn`, the turn of one pivot; `Chain.Progress.turns`, those of the first pivots

## Main statements

* `Chain.Progress.turn_perm`, `Chain.Progress.take_turn`, what one turn keeps
* `Chain.reorder_eq_turns`, that a reordering is such a loop
* `Chain.reorder_perm`, `Chain.take_reorder`, what a reordering keeps
* `Chain.reorder_keeps_entries`
-/

namespace Lookalike.Chain

variable {P V : Type} {F : Format} {distance : DistanceFunction P V F} {window : ℕ}

/-- The entries of a list in the midst of a reordering, the fault that has ended it, if any, and the
measurements made, the latest first. -/
structure Progress (P V : Type) (F : Format) where
  links : List (Link P V F)
  fault : Option Fault
  calls : List (Call P F)

namespace Progress

variable {progress : Progress P V F} {index : ℕ} {fault : Fault}

/-- The turn of the pivot at an index: the cheapest of the next `window` entries moves up to the
place behind it. A fault leaves the entries where they are, and no turn follows it. -/
def turn (distance : DistanceFunction P V F) (window : ℕ) (progress : Progress P V F)
    (index : ℕ) : Progress P V F :=
  match progress.fault, progress.links[index]? with
  | none, some pivot =>
    let behind := progress.links.drop (index + 1)
    match (cheapest distance pivot 0 0 .posInf (behind.take window)).result progress.calls with
    | (.error fault, calls) => { progress with fault := some fault, calls }
    | (.ok best, calls) =>
      ⟨progress.links.take (index + 1) ++ moveToFront best behind, none, calls⟩
  | _, _ => progress

/-- The turns of the pivots in front of an index, one after the other. -/
def turns (distance : DistanceFunction P V F) (window : ℕ) (start : Progress P V F)
    (index : ℕ) : Progress P V F :=
  (List.range index).foldl (turn distance window) start

/-- No turn follows a fault. -/
theorem turn_of_fault (ended : progress.fault = some fault) (index : ℕ) :
    turn distance window progress index = progress := by
  rw [turn, ended]

/-- A turn either leaves the entries where they are, or moves one of those behind its pivot. -/
theorem links_turn (distance : DistanceFunction P V F) (window : ℕ) (progress : Progress P V F)
    (index : ℕ) :
    (turn distance window progress index).links = progress.links ∨
      (turn distance window progress index).fault = none ∧
        ∃ best, (turn distance window progress index).links =
          progress.links.take (index + 1) ++
            moveToFront best (progress.links.drop (index + 1)) := by
  unfold turn
  split
  next pivot _ _ =>
    dsimp only
    split
    next => exact .inl rfl
    next best calls _ => exact .inr ⟨rfl, best, rfl⟩
  next => exact .inl rfl

/-- A turn keeps all entries. -/
theorem turn_perm (distance : DistanceFunction P V F) (window : ℕ) (progress : Progress P V F)
    (index : ℕ) : (turn distance window progress index).links.Perm progress.links := by
  rcases links_turn distance window progress index with same | ⟨-, best, moved⟩
  · exact .of_eq same
  · rw [moved]
    refine ((moveToFront_perm best _).append_left _).trans (.of_eq ?_)
    exact List.take_append_drop _ _

/-- A turn keeps the places up to its pivot. -/
theorem take_turn (distance : DistanceFunction P V F) (window : ℕ) (progress : Progress P V F)
    (index : ℕ) :
    (turn distance window progress index).links.take (index + 1) =
      progress.links.take (index + 1) := by
  rcases links_turn distance window progress index with same | ⟨-, best, moved⟩
  · rw [same]
  · rw [moved]
    -- Where the list ends at the pivot, nothing stands behind it.
    by_cases within : index + 1 ≤ progress.links.length
    · exact List.take_left' (List.length_take_of_le within)
    · have nothing : progress.links.drop (index + 1) = [] := List.drop_of_length_le (by omega)
      have kept := moveToFront_perm best (progress.links.drop (index + 1))
      rw [nothing] at kept
      rw [nothing, kept.eq_nil, List.append_nil, List.take_take, Nat.min_self]

/-- A turn that ends in a fault leaves the entries where they are. -/
theorem links_turn_of_fault (ends : (turn distance window progress index).fault = some fault) :
    (turn distance window progress index).links = progress.links := by
  rcases links_turn distance window progress index with same | ⟨unharmed, -⟩
  · exact same
  · rw [unharmed] at ends
    cases ends

section Turns

variable {start : Progress P V F}

theorem turns_succ (distance : DistanceFunction P V F) (window : ℕ) (start : Progress P V F)
    (index : ℕ) :
    turns distance window start (index + 1) =
      turn distance window (turns distance window start index) index := by
  simp [turns, List.range_succ]

theorem turns_perm (distance : DistanceFunction P V F) (window : ℕ) (start : Progress P V F)
    (index : ℕ) : (turns distance window start index).links.Perm start.links := by
  induction index with
  | zero => exact .refl _
  | succ index ih =>
    rw [turns_succ]
    exact (turn_perm distance window _ index).trans ih

/-- The first entry is a pivot itself and never moves. -/
theorem take_one_turns (distance : DistanceFunction P V F) (window : ℕ) (start : Progress P V F)
    (index : ℕ) : (turns distance window start index).links.take 1 = start.links.take 1 := by
  induction index with
  | zero => rfl
  | succ index ih =>
    have kept := congrArg (List.take 1)
      (take_turn distance window (turns distance window start index) index)
    rw [List.take_take, List.take_take, Nat.min_eq_left (by omega)] at kept
    rw [turns_succ, kept, ih]

/-- A fault arises in the turn of one pivot, and all turns before that one have gone well. -/
theorem exists_turn_of_fault (unharmed : start.fault = none)
    (ended : (turns distance window start index).fault = some fault) :
    ∃ pivot < index, (turns distance window start pivot).fault = none ∧
      (turn distance window (turns distance window start pivot) pivot).fault = some fault ∧
      (turns distance window start index).links = (turns distance window start pivot).links := by
  induction index with
  | zero =>
    change start.fault = some fault at ended
    rw [unharmed] at ended
    cases ended
  | succ index ih =>
    rw [turns_succ] at ended ⊢
    -- Either the fault has arisen before, or it arises in the last turn.
    cases before : (turns distance window start index).fault with
    | none => exact ⟨index, Nat.lt_succ_self index, before, ended, links_turn_of_fault ended⟩
    | some fault' =>
      rw [turn_of_fault before] at ended ⊢
      obtain ⟨pivot, less, rest⟩ := ih ended
      exact ⟨pivot, Nat.lt_succ_of_lt less, rest⟩

/-- A list with an entry put in front of it. -/
def push (first : Link P V F) (progress : Progress P V F) : Progress P V F :=
  { progress with links := first :: progress.links }

/-- What is put in front of all entries stays there, and the pivots move on by one. -/
theorem turn_push (first : Link P V F) (progress : Progress P V F) (index : ℕ) :
    turn distance window (progress.push first) (index + 1) =
      (turn distance window progress index).push first := by
  obtain ⟨links, fault, calls⟩ := progress
  simp only [turn, push, List.getElem?_cons_succ, List.drop_succ_cons, List.take_succ_cons,
    List.cons_append]
  cases fault with
  | some => rfl
  | none =>
    cases links[index]? with
    | none => rfl
    | some pivot =>
      dsimp only
      generalize (cheapest distance pivot 0 0 .posInf
        ((links.drop (index + 1)).take window)).result calls = chosen
      obtain ⟨_ | _, _⟩ := chosen <;> rfl

theorem foldl_turn_push (first : Link P V F) (progress : Progress P V F) (indexes : List ℕ) :
    (indexes.map (· + 1)).foldl (turn distance window) (progress.push first) =
      (indexes.foldl (turn distance window) progress).push first := by
  induction indexes generalizing progress with
  | nil => rfl
  | cons index rest ih =>
    rw [List.map_cons, List.foldl_cons, List.foldl_cons, turn_push]
    exact ih _

theorem turns_of_fault (ended : start.fault = some fault) (index : ℕ) :
    turns distance window start index = start := by
  induction index with
  | zero => rfl
  | succ index ih => rw [turns_succ, ih, turn_of_fault ended]

end Turns

end Progress

open Progress

/-- Choosing entries one after the other is a loop over the list that starts with the pivot. The
induction is on the number of choices: after the first one the loop goes on behind the pivot. -/
theorem turns_eq_arrange {choices : ℕ} {pivot : Link P V F} {remaining : List (Link P V F)}
    (enough : choices ≤ remaining.length) (calls : List (Call P F)) :
    turns distance window ⟨pivot :: remaining, none, calls⟩ choices =
      let (arranged, fault, calls) := arrange distance window choices pivot remaining calls
      ⟨pivot :: arranged, fault, calls⟩ := by
  induction choices generalizing pivot remaining calls with
  | zero => rfl
  | succ choices ih =>
    have indexes : List.range (choices + 1) = 0 :: (List.range choices).map (· + 1) :=
      List.range_succ_eq_map
    have first : turn distance window ⟨pivot :: remaining, none, calls⟩ 0 =
        match (cheapest distance pivot 0 0 .posInf (remaining.take window)).result calls with
        | (.error fault, calls) => push pivot ⟨remaining, some fault, calls⟩
        | (.ok best, calls) => push pivot ⟨moveToFront best remaining, none, calls⟩ := rfl
    rw [turns, indexes, List.foldl_cons, first, arrange]
    obtain ⟨fault | best, calls'⟩ :=
      (cheapest distance pivot 0 0 .posInf (remaining.take window)).result calls
    · exact (foldl_turn_push pivot _ _).trans (congrArg (push pivot) (turns_of_fault rfl choices))
    · have kept := (moveToFront_perm best remaining).length_eq
      dsimp only
      cases moved : moveToFront best remaining with
      | nil =>
        rw [moved, List.length_nil] at kept
        omega
      | cons chosen others =>
        rw [moved, List.length_cons] at kept
        exact (foldl_turn_push pivot _ _).trans (congrArg (push pivot) (ih (by omega) calls'))

section Reorder

variable {features : P → Except Fault V} {reference : V}

/-- The entries that are measured are those of the given positions. -/
theorem position_of_measureLinks {positions : List P} {calls calls' : List (Call P F)}
    {links : List (Link P V F)}
    (measured : (measureLinks distance features reference positions).result calls =
      (.ok links, calls')) : links.map (·.position) = positions := by
  induction positions generalizing calls links with
  | nil =>
    cases measured
    rfl
  | cons position rest ih =>
    rw [measureLinks] at measured
    obtain ⟨vector, calls₁, -, measured⟩ := Attempt.bind_eq_ok measured
    obtain ⟨fromReference, calls₂, -, measured⟩ := Attempt.bind_eq_ok measured
    obtain ⟨others, calls₃, rest_measured, done⟩ := Attempt.bind_eq_ok measured
    cases done
    rw [List.map_cons, ih rest_measured]

/-- Settling distances leaves the positions where they are. -/
theorem position_settle [BEq P] (links : List (Link P V F)) :
    (settle links).map (·.position) = links.map (·.position) := by
  rw [settle, List.map_map]
  refine List.map_congr_left fun link _ => ?_
  rw [Function.comp]
  split <;> rfl

variable {order : List P} {first : ℕ} {start : Progress P V F}

/-- A loop over the rest of a list keeps all entries of the list. -/
theorem append_turns_perm (positions : start.links.map (·.position) = order.drop first)
    (index : ℕ) :
    (order.take first ++
      (turns distance window start index).links.map (·.position)).Perm order := by
  have kept := (turns_perm distance window start index).map (·.position)
  rw [positions] at kept
  exact (kept.append_left _).trans (.of_eq (List.take_append_drop first order))

/-- A loop over the rest of a list keeps the places up to the first of the rest. -/
theorem take_append_turns (positions : start.links.map (·.position) = order.drop first)
    (within : first ≤ order.length) (index : ℕ) :
    (order.take first ++ (turns distance window start index).links.map (·.position)).take
      (first + 1) = order.take (first + 1) := by
  have cut : (order.take first).length = first := List.length_take_of_le within
  rw [List.take_append, cut, Nat.add_sub_cancel_left, List.take_take,
    Nat.min_eq_right (Nat.le_succ first), ← List.map_take, take_one_turns, List.map_take,
    positions, List.take_add]

variable [BEq P] {tailStart window : Int}

theorem reorder_of_short (short : (order.length : Int) - tailStart ≤ 2) :
    reorder distance order tailStart features reference window = ⟨order, none, []⟩ := by
  rw [reorder, if_pos short]

/-- A reordering for which a distance to the reference cannot be had leaves the list alone. -/
theorem reorder_of_unmeasured (long : 2 < (order.length : Int) - tailStart) {fault : Fault}
    {calls : List (Call P F)}
    (failed : (measureLinks distance features reference
      (order.drop (tailStart - 1).toNat)).result [] = (.error fault, calls)) :
    reorder distance order tailStart features reference window = ⟨order, some fault, calls⟩ := by
  rw [reorder, if_neg (Int.not_le.mpr long)]
  simp only [failed]

/-- The reordering of a tail with more than two entries is a loop over the pivots from the one in
front of the tail to the last but two of the list. -/
theorem reorder_eq_turns (long : 2 < (order.length : Int) - tailStart) {links : List (Link P V F)}
    {calls : List (Call P F)}
    (measured : (measureLinks distance features reference
      (order.drop (tailStart - 1).toNat)).result [] = (.ok links, calls)) :
    reorder distance order tailStart features reference window =
      let progress := turns distance window.toNat ⟨settle links, none, calls⟩
        (order.length - 2 - (tailStart - 1).toNat)
      ⟨order.take (tailStart - 1).toNat ++ progress.links.map (·.position), progress.fault,
        progress.calls⟩ := by
  have length := congrArg List.length
    ((position_settle links).trans (position_of_measureLinks measured))
  rw [List.length_map, List.length_drop] at length
  rw [reorder, if_neg (Int.not_le.mpr long), Nat.sub_right_comm]
  simp only [measured, ← length]
  cases entries : settle links with
  | nil =>
    rw [entries, List.length_nil] at length
    have whole : order.take (tailStart - 1).toNat = order := List.take_of_length_le (by omega)
    rw [whole]
    simp [turns]
  | cons seed rest =>
    have choices : (seed :: rest).length - 2 = rest.length - 1 := by simp
    rw [choices, turns_eq_arrange (by omega) calls]
    rfl

/-- A reordering leaves the list alone, with a fault or without one, or it is a loop over the
entries from the first pivot on. -/
theorem reorder_cases (distance : DistanceFunction P V F) (order : List P) (tailStart : Position)
    (features : P → Except Fault V) (reference : V) (window : Int) :
    (reorder distance order tailStart features reference window).order = order ∨
      ∃ (start : Progress P V F) (index : ℕ),
        start.links.map (·.position) = order.drop (tailStart - 1).toNat ∧
        (tailStart - 1).toNat ≤ order.length ∧
        (reorder distance order tailStart features reference window).order =
          order.take (tailStart - 1).toNat ++
            (turns distance window.toNat start index).links.map (·.position) := by
  by_cases short : (order.length : Int) - tailStart ≤ 2
  · exact .inl (by rw [reorder_of_short short])
  have long := Int.not_le.mp short
  cases measured : (measureLinks distance features reference
    (order.drop (tailStart - 1).toNat)).result [] with
  | mk outcome calls =>
    cases outcome with
    | error fault => exact .inl (by rw [reorder_of_unmeasured long measured])
    | ok links =>
      exact .inr ⟨⟨settle links, none, calls⟩, order.length - 2 - (tailStart - 1).toNat,
        (position_settle links).trans (position_of_measureLinks measured), by omega,
        by rw [reorder_eq_turns long measured]⟩

/-- A reordering keeps all entries. -/
theorem reorder_perm (distance : DistanceFunction P V F) (order : List P) (tailStart : Position)
    (features : P → Except Fault V) (reference : V) (window : Int) :
    (reorder distance order tailStart features reference window).order.Perm order := by
  rcases reorder_cases distance order tailStart features reference window with
    same | ⟨start, index, positions, -, looped⟩
  · exact .of_eq same
  · rw [looped]
    exact append_turns_perm positions index

/-- A reordering keeps the places up to the first pivot. -/
theorem take_reorder (distance : DistanceFunction P V F) (order : List P) (tailStart : Position)
    (features : P → Except Fault V) (reference : V) (window : Int) :
    (reorder distance order tailStart features reference window).order.take
      ((tailStart - 1).toNat + 1) = order.take ((tailStart - 1).toNat + 1) := by
  rcases reorder_cases distance order tailStart features reference window with
    same | ⟨start, index, positions, within, looped⟩
  · rw [same]
  · rw [looped]
    exact take_append_turns positions within index

/-- A reordering keeps all entries and all places up to the first pivot, whatever the distance
function does. It is a loop over the pivots from the one in front of the tail to the last but two of
the list. A fault arises while the distances to the reference are measured, and the list stays as it
is, or in the turn of one pivot, and the list is what the turns before have made of it. -/
theorem reorder_keeps_entries (distance : DistanceFunction P V F) (order : List P)
    (tailStart : Position) (features : P → Except Fault V) (reference : V) (window : Int) :
    let first := (tailStart - 1).toNat
    let measured := (measureLinks distance features reference (order.drop first)).result []
    let outcome := reorder distance order tailStart features reference window
    let loop := fun links pivot =>
      turns distance window.toNat ⟨settle links, none, measured.2⟩ (pivot - first)
    outcome.order.Perm order ∧
    (∀ k ≤ first, outcome.order[k]? = order[k]?) ∧
    ((order.length : Int) - tailStart > 2 → ∀ links, measured.1 = .ok links → outcome.order =
      order.take first ++ (loop links (order.length - 2)).links.map (·.position)) ∧
    ∀ fault, outcome.fault = some fault →
      (measured.1 = .error fault ∧ outcome.order = order) ∨
      ∃ links, measured.1 = .ok links ∧ ∃ pivot, first ≤ pivot ∧ pivot + 2 < order.length ∧
        (loop links pivot).fault = none ∧
        (turn distance window.toNat (loop links pivot) (pivot - first)).fault = some fault ∧
        outcome.order = order.take first ++ (loop links pivot).links.map (·.position) := by
  intro first measured outcome loop
  refine ⟨reorder_perm .., fun k within => ?_, fun long links passed => ?_, fun fault ended => ?_⟩
  · have before : k < first + 1 := Nat.lt_succ_of_le within
    rw [← List.getElem?_take_of_lt before, take_reorder, List.getElem?_take_of_lt before]
  · simp only [outcome, reorder_eq_turns long (Prod.ext passed rfl)]
    rfl
  · have long : 2 < (order.length : Int) - tailStart := by
      by_contra short
      simp only [outcome, reorder_of_short (Int.not_lt.mp short)] at ended
      cases ended
    -- The distances to the reference come first, and the turns only after them.
    cases passed : measured.1 with
    | error fault' =>
      simp only [outcome, reorder_of_unmeasured long (Prod.ext passed rfl)] at ended ⊢
      exact .inl ⟨congrArg _ (Option.some.inj ended), trivial⟩
    | ok links =>
      simp only [outcome, reorder_eq_turns long (Prod.ext passed rfl)] at ended ⊢
      obtain ⟨pivot, less, unharmed, ends, same⟩ := exists_turn_of_fault rfl ended
      refine .inr ⟨links, rfl, first + pivot, by omega, by omega, ?_⟩
      simp only [loop, Nat.add_sub_cancel_left]
      exact ⟨unharmed, ends, by rw [same]⟩

end Reorder

end Lookalike.Chain
