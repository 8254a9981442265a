import Lookalike.Proofs.Chain.Greedy
import Lookalike.Proofs.Chain.Loop

/-!
# Chains stay as they are

A chain is built by taking the entry of least cost again and again. Where each choice is among all
entries that remain, the chain is built anew in the order in which it stands: the entry to be taken
stands first, it has the least cost as before, and of several entries of least cost the first one is
taken. So a reordering that looks at the whole tail changes nothing about a list that it has
reordered.

## Main definitions

* `Chain.ExactlyMeasured`, that distances keep to their caps and costs are exact

## Main statements

* `Chain.greedyChain_perm`, `Chain.greedyChain_greedyChain`
* `Chain.reorder_append`, a reordering of a list that is cut at the entry before its tail
* `Chain.reorder_reordered`
-/

namespace Lookalike.Chain

variable {P V : Type} {F : Format}

section GreedyChain

/-- The first entry is taken if no other one is cheaper. -/
theorem argmin_cons_of_le {α : Type} {f : α → ℚ} {x : α} {xs : List α}
    (least : ∀ y ∈ xs, f x ≤ f y) : (x :: xs).argmin f = some x := by
  rw [List.argmin_cons]
  cases found : xs.argmin f with
  | none => rfl
  | some y => exact if_neg (least y (List.argmin_mem found)).not_gt

variable [BEq P] {cost : P → P → ℚ} {window count : ℕ} {pivot : P} {remaining : List P}

/-- As long as something remains, the entry of least cost is taken from it. -/
theorem exists_greedyChain_eq_cons (cost : P → P → ℚ) (pivot : P) (ahead : 1 ≤ window)
    (length : remaining.length = count + 1) :
    ∃ next ∈ remaining, (remaining.take window).argmin (cost pivot) = some next ∧
      greedyChain cost window (count + 1) pivot remaining =
        next :: greedyChain cost window count next (remaining.erase next) := by
  have looked : (remaining.take window).argmin (cost pivot) ≠ none := by
    rw [Ne, List.argmin_eq_none, List.take_eq_nil_iff]
    rintro (none | none)
    · omega
    · rw [none] at length
      cases length
  obtain ⟨next, least⟩ := Option.ne_none_iff_exists'.mp looked
  refine ⟨next, List.mem_of_mem_take (List.argmin_mem least), least, ?_⟩
  rw [greedyChain, least]

variable [LawfulBEq P]

/-- A chain consists of the entries that it is built from. -/
theorem greedyChain_perm (ahead : 1 ≤ window) (length : remaining.length = count) :
    (greedyChain cost window count pivot remaining).Perm remaining := by
  induction count generalizing pivot remaining with
  | zero => exact .of_eq (List.eq_nil_of_length_eq_zero length).symm
  | succ count ih =>
    obtain ⟨next, member, -, chosen⟩ :=
      exists_greedyChain_eq_cons cost pivot ahead length
    have others : (remaining.erase next).length = count := by
      rw [List.length_erase_of_mem member, length, Nat.add_sub_cancel]
    rw [chosen]
    exact ((ih others).cons next).trans (List.perm_cons_erase member).symm

/-- A chain that is chosen from all that remains is built anew as it stands. The induction is on the
choices: both times the same entry is taken, and the same entries remain. -/
theorem greedyChain_greedyChain (length : remaining.length = count) (full : count ≤ window) :
    greedyChain cost window count pivot (greedyChain cost window count pivot remaining) =
      greedyChain cost window count pivot remaining := by
  induction count generalizing pivot remaining with
  | zero => rfl
  | succ count ih =>
    have ahead : 1 ≤ window := by omega
    obtain ⟨next, member, least, chosen⟩ :=
      exists_greedyChain_eq_cons cost pivot ahead length
    have others : (remaining.erase next).length = count := by
      rw [List.length_erase_of_mem member, length, Nat.add_sub_cancel]
    have kept : (greedyChain cost window count next (remaining.erase next)).Perm
        (remaining.erase next) := greedyChain_perm ahead others
    rw [List.take_of_length_le (by omega)] at least
    -- What comes later in the chain was there to be taken and is no cheaper.
    have first : (next :: greedyChain cost window count next (remaining.erase next)).argmin
        (cost pivot) = some next := argmin_cons_of_le fun later inside =>
      List.le_of_mem_argmin (List.mem_of_mem_erase (kept.mem_iff.mp inside)) least
    have fits : (next :: greedyChain cost window count next (remaining.erase next)).length ≤
        window := by
      rw [List.length_cons, kept.length_eq, others]
      exact full
    rw [chosen, greedyChain, List.take_of_length_le fits, first]
    dsimp only
    rw [List.erase_cons_head, ih others (by omega)]

end GreedyChain

section Reorder

/-- A list with a tail behind its first entry is cut at the entry before the tail. -/
theorem exists_eq_append {order : List P} {tailStart : Int} (start : 1 ≤ tailStart)
    (within : tailStart ≤ order.length) :
    ∃ (front : List P) (seed : P) (tail : List P),
      order = front ++ seed :: tail ∧ tailStart = front.length + 1 := by
  obtain ⟨seed, cut, -⟩ := exists_seed start within
  refine ⟨order.take (tailStart - 1).toNat, seed, Position.after tailStart order, ?_, ?_⟩
  · rw [← cut, List.take_append_drop]
  · rw [List.length_take]
    omega

variable {distance : DistanceFunction P V F} {features : P → Except Fault V} {reference : V}
  {vectorOf : P → V} {fromReference : P → ℚ} {between : P → P → ℚ}

/-- The features of some entries are known, their distances to the reference and to each other are
measured up to caps, and their costs are added and subtracted exactly. -/
structure ExactlyMeasured (distance : DistanceFunction P V F) (features : P → Except Fault V)
    (reference : V) (vectorOf : P → V) (fromReference : P → ℚ) (between : P → P → ℚ)
    (positions : List P) : Prop where
  fetched : ∀ p ∈ positions, features p = .ok (vectorOf p)
  first : ∀ p ∈ positions, Measures distance reference (vectorOf p) (fromReference p)
  second : ∀ p ∈ positions, ∀ q ∈ positions,
    Measures distance (vectorOf p) (vectorOf q) (between p q)
  costs : KeepsCosts F positions fromReference between

theorem ExactlyMeasured.of_subset {positions positions' : List P}
    (measured : ExactlyMeasured distance features reference vectorOf fromReference between
      positions)
    (known : positions' ⊆ positions) :
    ExactlyMeasured distance features reference vectorOf fromReference between positions' where
  fetched p member := measured.fetched p (known member)
  first p member := measured.first p (known member)
  second p member q member' := measured.second p (known member) q (known member')
  costs := {
    isProper := measured.costs.isProper
    cost := fun member member' => measured.costs.cost (known member) (known member')
    left := fun member member' member'' =>
      measured.costs.left (known member) (known member') (known member'') }

variable [BEq P] [LawfulBEq P] {window : Int}

/-- Behind the entry before the tail a reordering puts the chain that starts from this entry. -/
theorem reorder_append (front : List P) {tail : List P} {seed : P} (distinct : tail.Nodup)
    (long : 2 < tail.length) (ahead : 1 ≤ window)
    (measured : ExactlyMeasured distance features reference vectorOf fromReference between
      (seed :: tail)) :
    let outcome := reorder distance (front ++ seed :: tail) (front.length + 1) features reference
      window
    outcome.fault = none ∧ outcome.order =
      front ++ seed :: greedyChain (fullCost fromReference between) window.toNat tail.length seed
        tail := by
  intro outcome
  have start : (1 : Int) ≤ front.length + 1 := by omega
  have first : ((front.length : Int) + 1 - 1).toNat = front.length := by omega
  have several : 2 < ((front ++ seed :: tail).length : Int) - (front.length + 1) := by
    rw [List.length_append, List.length_cons]
    omega
  have within : ((front.length : Int) + 1) ≤ (front ++ seed :: tail).length := by omega
  have dropped : (front ++ seed :: tail).drop ((front.length : Int) + 1 - 1).toNat =
      seed :: tail := by
    rw [first, List.drop_left]
  have known : ∀ p ∈ (front ++ seed :: tail).drop ((front.length : Int) + 1 - 1).toNat,
      p ∈ seed :: tail := fun p member => dropped ▸ member
  obtain ⟨seed', cut, before⟩ := exists_seed start within
  obtain ⟨seed'', cut', unharmed, ordered⟩ := reorder_eq_arrangeLeaders window
    (fun p member => measured.fetched p (known p member))
    (fun p member => (measured.first p (known p member)).uncapped)
    (fun p member q member' => measured.costs.decides (known p member) (known q member')
      (measured.second p (known p member) q (known q member')))
    .none start several
  -- Both cuts are the one at the given entry.
  rw [dropped] at cut cut'
  obtain ⟨rfl, after⟩ := List.cons.inj cut
  obtain ⟨rfl, -⟩ := List.cons.inj cut'
  rw [first, List.take_left] at before
  rw [← after, before] at ordered
  refine ⟨unharmed, ordered.trans ?_⟩
  rw [arrangeLeaders_eq_greedyChain (by omega)
    (fun p member q member' => (measured.second p member q member').nonnegative)
    (fun p member q member' => measured.costs.cost member member')
    List.mem_cons_self (List.subset_cons_self _ _) distinct (by omega),
    List.append_assoc, List.singleton_append]
  congr 3
  omega

/-- A reordering that looks at the whole tail leaves what it has reordered as it is, ties between
equal costs included. -/
theorem reorder_reordered {order : List P} {tailStart : Int} (distinct : order.Nodup)
    (start : 1 ≤ tailStart) (full : (order.length : Int) - tailStart ≤ window)
    (measured : ExactlyMeasured distance features reference vectorOf fromReference between
      (order.drop (tailStart - 1).toNat)) :
    let once := reorder distance order tailStart features reference window
    let twice := reorder distance once.order tailStart features reference window
    once.fault = none ∧ twice.fault = none ∧ twice.order = once.order := by
  intro once twice
  rcases Int.lt_or_le 2 ((order.length : Int) - tailStart) with long | short
  · have within : tailStart ≤ order.length := by omega
    obtain ⟨front, seed, tail, rfl, rfl⟩ := exists_eq_append start within
    have first : ((front.length : Int) + 1 - 1).toNat = front.length := by omega
    rw [first, List.drop_left] at measured
    rw [List.length_append, List.length_cons] at full long
    have distinct' : tail.Nodup := (distinct.sublist (List.sublist_append_right ..)).of_cons
    have ahead : 1 ≤ window := by omega
    obtain ⟨unharmed, ordered⟩ := reorder_append front distinct' (by omega) ahead measured
    have kept : (greedyChain (fullCost fromReference between) window.toNat tail.length seed
        tail).Perm tail := greedyChain_perm (by omega) rfl
    obtain ⟨unharmed', ordered'⟩ := reorder_append front (kept.nodup_iff.mpr distinct')
      (by rw [kept.length_eq]; omega) ahead (measured.of_subset (kept.cons seed).subset)
    have same : once.order = _ := ordered
    refine ⟨unharmed, ?_, ?_⟩
    · simp only [twice, same]
      exact unharmed'
    · simp only [twice, same]
      rw [ordered', kept.length_eq, greedyChain_greedyChain rfl (by omega)]
  · have same : once = ⟨order, none, []⟩ := reorder_of_short short
    refine ⟨congrArg Outcome.fault same, ?_, ?_⟩ <;>
      simp only [twice, same, reorder_of_short short]

/-- The square of the gap between two integers, whatever the cap. -/
def gapSquare : DistanceFunction Int Int .exact := fun _ x y _ => .ok (.finite (squareGap x y))

theorem measures_gapSquare (x y : Int) : Measures gapSquare x y (squareGap x y) :=
  .of_eq (squareGap_nonneg x y) fun _ _ => rfl

/-- From 0 the entries -1 and 1 cost the same, and then from -1 the entries -2 and 1. Both times the
one that stands first goes first, in the list as in the chain that it becomes. -/
theorem reorder_reordered_ties :
    (reorder gapSquare [0, -2, -1, 2, 1] 1 .ok 0 4).order = [0, -1, -2, 1, 2] ∧
      (reorder gapSquare [0, -1, -2, 1, 2] 1 .ok 0 4).order = [0, -1, -2, 1, 2] := by
  have distinct : ([0, -2, -1, 2, 1] : List Int).Nodup := by decide
  have full : (([0, -2, -1, 2, 1] : List Int).length : Int) - 1 ≤ 4 := by decide
  have measured : ExactlyMeasured gapSquare .ok 0 id (squareGap 0) squareGap
      (([0, -2, -1, 2, 1] : List Int).drop ((1 : Int) - 1).toNat) := {
    fetched := fun _ _ => rfl
    first := fun p _ => measures_gapSquare 0 p
    second := fun p _ q _ => measures_gapSquare p q
    costs := ExactCosts.rational.keepsCosts }
  have once : (reorder gapSquare [0, -2, -1, 2, 1] 1 .ok 0 4).order = [0, -1, -2, 1, 2] := by
    decide +kernel
  obtain ⟨-, -, twice⟩ := reorder_reordered distinct le_rfl full measured
  rw [once] at twice
  exact ⟨once, twice⟩

end Reorder

end Lookalike.Chain
