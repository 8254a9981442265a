import Lookalike.Proofs.Chain.Fixpoint

/-!
# Looking ahead

A reordering looks only `window` entries ahead, so an entry never comes up by that many places. The
pivots have their turns one after the other: an entry that no pivot has reached yet can only fall
back, since others move in front of it, and once it is chosen it comes up at most to the front of
what the pivot looks at and stays there. Nothing is asked of the distance function. How far an entry
falls back before it is chosen is not bounded: one that costs more than all others is passed over
again and again.

## Main definitions

* `Chain.LooksAhead`, how far the entries of a list have come up after some turns

## Main statements

* `Chain.LooksAhead.turn`, `Chain.looksAhead_turns`, what one turn and all turns keep
* `Chain.exists_origin_of_reorder`, where an entry of a reordered list has stood
* `Chain.fault_reorder_eq_none`, that nothing but a measurement ends a reordering in a fault
* `Chain.exists_falls_back`, that entries fall back as far as can be
* `Chain.reorder_looks_ahead`
-/

namespace Lookalike.Chain

section Lists

variable {α : Type} {items xs ys : List α} {item : α} {index place : ℕ}

/-- What stands at the front after an entry has moved there stood no further behind than the entry
that was to move. -/
theorem exists_of_getElem?_zero_moveToFront (found : (moveToFront index items)[0]? = some item) :
    ∃ origin ≤ index, items[origin]? = some item := by
  unfold moveToFront at found
  split at found
  next chosen stood =>
    rw [List.getElem?_cons_zero] at found
    exact ⟨index, le_rfl, stood.trans found⟩
  next => exact ⟨0, Nat.zero_le _, found⟩

/-- What stands behind the front after an entry has moved there has stayed or has fallen back by one
place. -/
theorem getElem?_of_getElem?_succ_moveToFront
    (found : (moveToFront index items)[place + 1]? = some item) :
    items[place]? = some item ∨ items[place + 1]? = some item := by
  unfold moveToFront at found
  split at found
  next =>
    rw [List.getElem?_cons_succ, List.getElem?_eraseIdx] at found
    split_ifs at found
    · exact .inl found
    · exact .inr found
  next => exact .inr found

/-- A list without repetitions is the only arrangement of its entries in which none has come up. -/
theorem eq_of_forall_origin_le (distinct : xs.Nodup) (same : ys.Perm xs)
    (origins : ∀ (place : ℕ) y, ys[place]? = some y → ∃ origin ≤ place, xs[origin]? = some y) :
    ys = xs := by
  induction xs generalizing ys with
  | nil => exact same.eq_nil
  | cons x xs ih =>
    cases ys with
    | nil => exact absurd same.length_eq (by simp)
    | cons y ys =>
      -- Nothing can have come up to the front, so the first entry is still there.
      obtain ⟨origin, front, stood⟩ := origins 0 y rfl
      obtain rfl := Nat.le_zero.mp front
      obtain rfl : x = y := Option.some.inj stood
      have rest := same.cons_inv
      refine congrArg (x :: ·) (ih distinct.of_cons rest fun place z found => ?_)
      obtain ⟨origin, before, stood⟩ := origins (place + 1) z found
      cases origin with
      | zero =>
        obtain rfl : x = z := Option.some.inj stood
        exact absurd (rest.mem_iff.mp (List.mem_of_getElem? found)) distinct.notMem
      | succ origin => exact ⟨origin, Nat.le_of_succ_le_succ before, stood⟩

end Lists

variable {P V : Type} {F : Format} {distance : DistanceFunction P V F}

/-- The index that is chosen is one of the candidates, or the best one so far. -/
theorem cheapest_lt {pivot : Link P V F} {index best bound chosen : ℕ} {bestCost : Number F}
    {candidates : List (Link P V F)} {calls calls' : List (Call P F)} (within : best < bound)
    (room : index + candidates.length ≤ bound)
    (chooses : (cheapest distance pivot index best bestCost candidates).result calls =
      (.ok chosen, calls')) : chosen < bound := by
  induction candidates generalizing index best bestCost calls with
  | nil =>
    cases chooses
    exact within
  | cons candidate rest ih =>
    rw [List.length_cons] at room
    rw [cheapest] at chooses
    -- A candidate is passed over, takes the lead or is left behind.
    split at chooses
    · exact ih within (by omega) chooses
    · obtain ⟨fromPivot, calls₁, -, chooses⟩ := Attempt.bind_eq_ok chooses
      dsimp only at chooses
      split at chooses
      · exact ih (by omega) (by omega) chooses
      · exact ih within (by omega) chooses

/-- How far entries have come up when the pivots in front of an index have had their turns. Those up
to the index have got their places and have come up by less than the window; those behind it are
waiting and have not come up. -/
structure LooksAhead {α : Type} (window : ℕ) (before after : List α) (index : ℕ) : Prop where
  settled : ∀ {place x}, place ≤ index → after[place]? = some x →
    ∃ origin < place + window, before[origin]? = some x
  waiting : ∀ {place x}, index < place → after[place]? = some x →
    ∃ origin ≤ place, before[origin]? = some x

section Turns

variable {window : ℕ} {progress : Progress P V F} {index : ℕ}

/-- A turn leaves the entries where they are, or moves one of those the pivot looks at. -/
theorem links_turn_of_window (ahead : 1 ≤ window) (distance : DistanceFunction P V F)
    (progress : Progress P V F) (index : ℕ) :
    (progress.turn distance window index).links = progress.links ∨
      index < progress.links.length ∧ ∃ best < window,
        (progress.turn distance window index).links =
          progress.links.take (index + 1) ++
            moveToFront best (progress.links.drop (index + 1)) := by
  unfold Progress.turn
  split
  next pivot _ stands =>
    dsimp only
    split
    next => exact .inl rfl
    next best calls chooses =>
      refine .inr ⟨(List.getElem?_eq_some_iff.mp stands).1, best, ?_, rfl⟩
      refine cheapest_lt (Nat.lt_of_lt_of_le Nat.zero_lt_one ahead) ?_ chooses
      rw [zero_add]
      exact List.length_take_le _ _
  next => exact .inl rfl

namespace LooksAhead

variable {before : List (Link P V F)}

/-- Whatever stands somewhere has come up by less than the window. -/
theorem exists_origin {α : Type} {before after : List α} {place : ℕ} {x : α}
    (looks : LooksAhead window before after index) (ahead : 1 ≤ window)
    (found : after[place]? = some x) : ∃ origin < place + window, before[origin]? = some x := by
  rcases Nat.lt_or_ge index place with behind | reached
  · obtain ⟨origin, fallen, stood⟩ := looks.waiting behind found
    exact ⟨origin, by omega, stood⟩
  · exact looks.settled reached found

/-- One more turn settles one more place, and what still waits behind it has not come up. -/
theorem turn (looks : LooksAhead window before progress.links index) (ahead : 1 ≤ window) :
    LooksAhead window before (progress.turn distance window index).links (index + 1) := by
  rcases links_turn_of_window ahead distance progress index with same | ⟨inside, best, near, moved⟩
  · rw [same]
    exact ⟨fun _ => looks.exists_origin ahead, fun behind => looks.waiting (by omega)⟩
  have cut : (progress.links.take (index + 1)).length = index + 1 := List.length_take_of_le inside
  rw [moved]
  constructor
  · intro place link reached found
    rcases reached.lt_or_eq with before_pivot | rfl
    · -- The places up to the pivot are left alone.
      rw [List.getElem?_append_left (by omega), List.getElem?_take_of_lt before_pivot] at found
      exact looks.settled (by omega) found
    · -- The chosen entry has waited among those the pivot looks at.
      rw [List.getElem?_append_right cut.le, cut, Nat.sub_self] at found
      obtain ⟨offset, bounded, stood⟩ := exists_of_getElem?_zero_moveToFront found
      rw [List.getElem?_drop] at stood
      obtain ⟨origin, fallen, began⟩ := looks.waiting (by omega) stood
      exact ⟨origin, by omega, began⟩
  · intro place link behind found
    obtain ⟨offset, rfl⟩ : ∃ offset, place = index + 1 + (offset + 1) :=
      ⟨place - (index + 2), by omega⟩
    rw [List.getElem?_append_right (by omega), cut, Nat.add_sub_cancel_left] at found
    -- Behind the chosen entry the others have stayed or have fallen back by one place.
    rcases getElem?_of_getElem?_succ_moveToFront found with stood | stood <;>
      rw [List.getElem?_drop] at stood <;>
      obtain ⟨origin, fallen, began⟩ := looks.waiting (by omega) stood <;>
      exact ⟨origin, by omega, began⟩

end LooksAhead

/-- The turns of the first pivots settle as many places. -/
theorem looksAhead_turns (ahead : 1 ≤ window) (start : Progress P V F) (index : ℕ) :
    LooksAhead window start.links (start.turns distance window index).links index := by
  induction index with
  | zero =>
    exact ⟨fun _ found => ⟨_, by omega, found⟩, fun _ found => ⟨_, le_rfl, found⟩⟩
  | succ index ih =>
    rw [Progress.turns_succ]
    exact ih.turn ahead

end Turns

section Faults

variable {window : ℕ} (answers : ∀ calls x y cap, ∃ answer, distance calls x y cap = .ok answer)

include answers

theorem exists_measure_eq_ok (leg : Leg P) (x y : V) (cap : Option (Number F))
    (calls : List (Call P F)) :
    ∃ answer calls', (measure distance leg x y cap).result calls = (.ok answer, calls') := by
  obtain ⟨answer, answered⟩ := answers calls x y cap
  exact ⟨answer, _, measure_of_ok answered⟩

theorem exists_cheapest_eq_ok (pivot : Link P V F) (index best : ℕ) (bestCost : Number F)
    (candidates : List (Link P V F)) (calls : List (Call P F)) :
    ∃ chosen calls', (cheapest distance pivot index best bestCost candidates).result calls =
      (.ok chosen, calls') := by
  induction candidates generalizing index best bestCost calls with
  | nil => exact ⟨best, calls, rfl⟩
  | cons candidate rest ih =>
    rw [cheapest]
    split
    · exact ih _ _ _ _
    · obtain ⟨fromPivot, calls₁, answered⟩ := exists_measure_eq_ok answers
        (.between pivot.position candidate.position) pivot.vector candidate.vector
        (some (bestCost - candidate.fromReference)) calls
      rw [Attempt.result_bind_ok answered]
      dsimp only
      split <;> exact ih _ _ _ _

theorem exists_measureLinks_eq_ok {features : P → Except Fault V} {reference : V}
    {positions : List P} (covered : ∀ p ∈ positions, ∃ vector, features p = .ok vector)
    (calls : List (Call P F)) :
    ∃ links calls', (measureLinks distance features reference positions).result calls =
      (.ok links, calls') := by
  induction positions generalizing calls with
  | nil => exact ⟨[], calls, rfl⟩
  | cons position rest ih =>
    rw [List.forall_mem_cons] at covered
    obtain ⟨⟨vector, fetched⟩, covered⟩ := covered
    obtain ⟨fromReference, calls₁, answered⟩ := exists_measure_eq_ok answers
      (.fromReference position) reference vector none calls
    obtain ⟨links, calls₂, measured⟩ := ih covered calls₁
    refine ⟨⟨position, vector, fromReference⟩ :: links, calls₂, ?_⟩
    rw [measureLinks, fetched, Attempt.result_bind_ok (Attempt.result_ofExcept _ _),
      Attempt.result_bind_ok answered, Attempt.result_bind_ok measured]
    rfl

theorem fault_turns_eq_none {start : Progress P V F} (unharmed : start.fault = none) (index : ℕ) :
    (start.turns distance window index).fault = none := by
  cases ended : (start.turns distance window index).fault with
  | none => rfl
  | some fault =>
    obtain ⟨pivot, -, goes_on, ends, -⟩ := Progress.exists_turn_of_fault unharmed ended
    generalize start.turns distance window pivot = progress at goes_on ends
    unfold Progress.turn at ends
    split at ends
    next link _ _ =>
      obtain ⟨chosen, calls, chooses⟩ := exists_cheapest_eq_ok answers link 0 0 .posInf
        ((progress.links.drop (pivot + 1)).take window) progress.calls
      simp only [chooses] at ends
      cases ends
    next =>
      rw [goes_on] at ends
      cases ends

end Faults

section FallsBack

/-- An entry that costs more than all others ends up behind them if two are looked at each time. -/
theorem greedyChain_of_costly {α : Type} [BEq α] [LawfulBEq α] {cost : α → α → ℚ} {x : α}
    {ys : List α} (costly : ∀ pivot, ∀ y ∈ ys, cost pivot y < cost pivot x) (pivot : α) :
    greedyChain cost 2 (ys.length + 1) pivot (x :: ys) = ys ++ [x] := by
  induction ys generalizing pivot with
  | nil => rfl
  | cons y ys ih =>
    have cheaper := costly pivot y List.mem_cons_self
    have least : ((x :: y :: ys).take 2).argmin (cost pivot) = some y := by
      change [x, y].argmin (cost pivot) = some y
      rw [List.argmin_cons, List.argmin_singleton]
      exact if_pos cheaper
    have others : (x :: y :: ys).erase y = x :: ys := by
      have different : x ≠ y := fun same => lt_irrefl _ (same ▸ cheaper)
      rw [List.erase_cons_tail (by simpa using different), List.erase_cons_head]
    rw [List.length_cons, greedyChain, least]
    dsimp only
    rw [others, ih (fun pivot y member => costly pivot y (List.mem_cons_of_mem _ member)),
      List.cons_append]

/-- The vector of an entry is the distance of any entry to it. -/
def distanceTo : DistanceFunction ℕ ℚ .exact := fun _ _ y _ => .ok (.finite y)

/-- Only the entry 1 lies apart. -/
def oneApart (entry : ℕ) : ℚ := if entry = 1 then 1 else 0

theorem measures_distanceTo (x y : ℕ) :
    Measures distanceTo (oneApart x) (oneApart y) (oneApart y) := by
  refine .of_eq ?_ fun _ _ => rfl
  unfold oneApart
  split_ifs <;> norm_num

/-- There is no bound on how far an entry falls back, even if only two are looked at each time. -/
theorem exists_falls_back (n : ℕ) : ∃ order : List ℕ, order.Nodup ∧ order[1]? = some 1 ∧
    let outcome := reorder distanceTo order 1 (fun entry => .ok (oneApart entry)) 0 2
    outcome.fault = none ∧ ∃ place > n, outcome.order[place]? = some 1 := by
  have measured : ExactlyMeasured distanceTo (fun entry => .ok (oneApart entry)) 0 oneApart oneApart
      (fun _ entry => oneApart entry) (0 :: 1 :: List.range' 2 (n + 2)) := {
    fetched := fun _ _ => rfl
    first := fun p _ => measures_distanceTo 0 p
    second := fun p _ q _ => measures_distanceTo p q
    costs := ExactCosts.rational.keepsCosts }
  have distinct : (1 :: List.range' 2 (n + 2)).Nodup := by simp [List.nodup_range']
  have costly : ∀ pivot : ℕ, ∀ y ∈ List.range' 2 (n + 2),
      fullCost oneApart (fun _ entry => oneApart entry) pivot y <
        fullCost oneApart (fun _ entry => oneApart entry) pivot 1 := by
    intro pivot y member
    have other : y ≠ 1 := by
      rintro rfl
      simp at member
    simp [fullCost, oneApart, other]
  obtain ⟨unharmed, ordered⟩ := reorder_append [] distinct (by simp) (by decide : (1 : Int) ≤ 2)
    measured
  have moved : (reorder distanceTo (0 :: 1 :: List.range' 2 (n + 2)) 1
      (fun entry => .ok (oneApart entry)) 0 2).order = 0 :: (List.range' 2 (n + 2) ++ [1]) := by
    rw [← greedyChain_of_costly costly 0]
    exact ordered
  have length : (List.range' 2 (n + 2)).length = n + 2 := List.length_range'
  refine ⟨0 :: 1 :: List.range' 2 (n + 2), by simp [List.nodup_range'], rfl, unharmed, n + 3,
    by omega, ?_⟩
  rw [moved, List.getElem?_cons_succ, List.getElem?_append_right length.le, length, Nat.sub_self]
  rfl

end FallsBack

section Reorder

variable [BEq P] {order : List P} {tailStart window : Int} {features : P → Except Fault V}
  {reference : V}

/-- An entry of a reordered list has come up by less than the window. -/
theorem exists_origin_of_reorder (ahead : 1 ≤ window) {place : ℕ} {p : P}
    (found : (reorder distance order tailStart features reference window).order[place]? = some p) :
    ∃ origin : ℕ, (origin : ℤ) < place + window ∧ order[origin]? = some p := by
  rcases reorder_cases distance order tailStart features reference window with
    same | ⟨start, index, positions, within, looped⟩
  · rw [same] at found
    exact ⟨place, by omega, found⟩
  have cut : (order.take (tailStart - 1).toNat).length = (tailStart - 1).toNat :=
    List.length_take_of_le within
  rw [looped] at found
  rcases Nat.lt_or_ge place (tailStart - 1).toNat with front | behind
  · -- In front of the first pivot nothing moves.
    rw [List.getElem?_append_left (by omega), List.getElem?_take_of_lt front] at found
    exact ⟨place, by omega, found⟩
  · rw [List.getElem?_append_right (by omega), cut, List.getElem?_map, Option.map_eq_some_iff]
      at found
    obtain ⟨link, stands, rfl⟩ := found
    have looks : LooksAhead window.toNat start.links (start.turns distance window.toNat index).links
        index := looksAhead_turns (by omega) start index
    obtain ⟨origin, bounded, stood⟩ := looks.exists_origin (by omega) stands
    have began : (order.drop (tailStart - 1).toNat)[origin]? = some link.position := by
      rw [← positions, List.getElem?_map, stood, Option.map_some]
    rw [List.getElem?_drop] at began
    exact ⟨_, by omega, began⟩

/-- Where the features of all entries from the first pivot on can be had and every measurement
succeeds, a reordering ends well. -/
theorem fault_reorder_eq_none
    (answers : ∀ calls x y cap, ∃ answer, distance calls x y cap = .ok answer)
    (covered : ∀ p ∈ order.drop (tailStart - 1).toNat, ∃ vector, features p = .ok vector) :
    (reorder distance order tailStart features reference window).fault = none := by
  rcases Int.lt_or_le 2 ((order.length : Int) - tailStart) with long | short
  · obtain ⟨links, calls, measured⟩ : ∃ links calls, (measureLinks distance features reference
        (order.drop (tailStart - 1).toNat)).result [] = (.ok links, calls) :=
      exists_measureLinks_eq_ok answers covered []
    rw [reorder_eq_turns long measured]
    exact fault_turns_eq_none answers rfl _
  · rw [reorder_of_short short]

/-- No entry of a list without repetitions comes up by as many places as a reordering looks ahead,
whatever the distances are. In particular a reordering that looks at the next entry only leaves the
list as it is. Nothing bounds how far an entry falls back. -/
theorem reorder_looks_ahead (distance : DistanceFunction P V F) (distinct : order.Nodup)
    (tailStart : Position) (features : P → Except Fault V) (reference : V) (ahead : 1 ≤ window) :
    let outcome := reorder distance order tailStart features reference window
    ((∀ p ∈ order.drop (tailStart - 1).toNat, ∃ vector, features p = .ok vector) →
      (∀ calls x y cap, ∃ answer, distance calls x y cap = .ok answer) → outcome.fault = none) ∧
    (∀ (i j : ℕ) p, order[i]? = some p → outcome.order[j]? = some p → (i : ℤ) - j ≤ window - 1) ∧
    (window = 1 → outcome.order = order) ∧
    (∀ n : ℕ, ∃ order : List ℕ, order.Nodup ∧ order[1]? = some 1 ∧
      let outcome := reorder distanceTo order 1 (fun entry => .ok (oneApart entry)) 0 2
      outcome.fault = none ∧ ∃ place > n, outcome.order[place]? = some 1) := by
  intro outcome
  refine ⟨fun covered answers => fault_reorder_eq_none answers covered, ?_, ?_, exists_falls_back⟩
  · intro i j p stood stands
    obtain ⟨origin, bounded, began⟩ := exists_origin_of_reorder ahead stands
    have inside : i < order.length := (List.getElem?_eq_some_iff.mp stood).1
    obtain rfl : i = origin := (List.getElem?_inj inside distinct).mp (stood.trans began.symm)
    omega
  · rintro rfl
    refine eq_of_forall_origin_le distinct (reorder_perm ..) fun place p stands => ?_
    obtain ⟨origin, bounded, began⟩ := exists_origin_of_reorder le_rfl stands
    exact ⟨origin, by omega, began⟩

/-- A distance to the entry 1 is no number. All entries lie at the reference, and to each other
entry it is the nearer the greater that is. -/
def repelledByOne : DistanceFunction Int Int .binary64 := fun _ x y _ =>
  .ok (if x < 0 then 0 else if y = 1 then .nan else .finite (10 - y))

/-- Two entries are looked at in each turn. The entry 1 is never chosen and falls back to the end,
while all others come up by one place. -/
theorem reorder_looks_ahead_fiveEntries :
    (reorder repelledByOne [0, 1, 2, 3, 4] 1 .ok (-1) 2).fault = none ∧
      ∀ (i j : ℕ) (p : Int), [0, 1, 2, 3, 4][i]? = some p → [0, 2, 3, 4, 1][j]? = some p →
        (i : ℤ) - j ≤ 1 := by
  have distinct : ([0, 1, 2, 3, 4] : List Int).Nodup := by decide
  have ahead : (1 : Int) ≤ 2 := by decide
  have rearranged : (reorder repelledByOne [0, 1, 2, 3, 4] 1 .ok (-1) 2).order =
      [0, 2, 3, 4, 1] := by decide +kernel
  obtain ⟨returns, bounded, -, -⟩ :=
    reorder_looks_ahead repelledByOne distinct 1 .ok (-1) ahead
  rw [rearranged] at bounded
  exact ⟨returns (fun p _ => ⟨p, rfl⟩) fun _ _ _ _ => ⟨_, rfl⟩, bounded⟩

end Reorder

end Lookalike.Chain
