import Mathlib.Data.List.MinMax
import Mathlib.Data.List.Nodup
import Lookalike.Distance
import Lookalike.Proofs.Chain.Leader
import Lookalike.Proofs.Number.Amount

/-!
# Greedy chains

Without any shortcut a chain is built by taking, again and again, the entry of least cost among the
first few that remain, the earliest of several. To pass over a candidate because of its distance to
the reference, and to measure the other distance up to a cap only, changes nothing about the chain
as long as costs are added and subtracted exactly.

## Main definitions

* `Chain.fullCost`, `Chain.greedyChain`, the chain without shortcuts
* `Chain.Measures`, that a way of measuring keeps to its cap
* `Chain.KeepsCosts`, that costs are added and subtracted exactly; `Chain.ExactCosts`, two cases

## Main statements

* `Chain.getElem?_leader`, that the candidate of least cost leads a pass
* `Chain.reorder_eq_greedyChain`
-/

namespace Lookalike.Chain

variable {P V : Type} {F : Format}

/-- The cost of a candidate: its distance to the reference and its distance to the pivot. -/
def fullCost (fromReference : P → ℚ) (between : P → P → ℚ) (pivot candidate : P) : ℚ :=
  fromReference candidate + between pivot candidate

/-- Entries taken one after the other, each the earliest of least cost among the first `window`
that remain, where the cost is counted from the entry taken last. -/
def greedyChain [BEq P] (cost : P → P → ℚ) (window : ℕ) :
    (count : ℕ) → (pivot : P) → List P → List P
  | 0, _, _ => []
  | count + 1, pivot, remaining =>
    match (remaining.take window).argmin (cost pivot) with
    | none => []
    | some next => next :: greedyChain cost window count next (remaining.erase next)

/-- Measuring keeps to its cap: the distance is not negative, it is the answer without a cap and
wherever it lies below the cap, and otherwise the answer reaches the cap. -/
structure Measures (distance : DistanceFunction P V F) (x y : V) (length : ℚ) : Prop where
  nonnegative : 0 ≤ length
  uncapped : ∀ calls, distance calls x y none = .ok (.finite length)
  below : ∀ {cap}, .finite length < cap →
    ∀ calls, distance calls x y (some cap) = .ok (.finite length)
  reached : ∀ {cap}, cap ≤ .finite length →
    ∀ calls, ∃ answer, distance calls x y (some cap) = .ok answer ∧ cap ≤ answer

/-- A way of measuring that takes no notice of caps keeps to them. -/
theorem Measures.of_eq {distance : DistanceFunction P V F} {x y : V} {length : ℚ}
    (nonnegative : 0 ≤ length)
    (answers : ∀ calls cap, distance calls x y cap = .ok (.finite length)) :
    Measures distance x y length where
  nonnegative := nonnegative
  uncapped calls := answers calls none
  below _ calls := answers calls _
  reached reaches calls := ⟨_, answers calls _, reaches⟩

/-- Costs are added and subtracted exactly: every rational is kept, or the distances are integers
so small that a sum of two fits into a significand. -/
inductive ExactCosts (positions : List P) (fromReference : P → ℚ) (between : P → P → ℚ) :
    Format → Prop
  | rational : ExactCosts positions fromReference between .exact
  | integral
      (first : ∀ p ∈ positions, ∃ n : ℕ, n ≤ 2 ^ 52 ∧ fromReference p = n)
      (second : ∀ p ∈ positions, ∀ q ∈ positions, ∃ n : ℕ, n ≤ 2 ^ 52 ∧ between p q = n) :
      ExactCosts positions fromReference between .binary64

section ExactCosts

variable {positions : List P} {fromReference : P → ℚ} {between : P → P → ℚ} {p q r : P}

private theorem ofRat_natCast_binary64 {n : ℕ} (small : n ≤ 2 ^ 53) :
    Number.ofRat .binary64 n = .finite n := by
  have bounded : |(n : ℤ)| ≤ 2 ^ 53 := by
    rw [Nat.abs_cast]
    exact_mod_cast small
  exact Number.ofRat_intCast_binary64 bounded

theorem ExactCosts.isProper (costs : ExactCosts positions fromReference between F) :
    F.IsProper := by
  cases costs with
  | rational => trivial
  | integral => exact (by decide : 1 ≤ 53)

/-- The cost of a candidate is kept. -/
theorem ExactCosts.ofRat_fullCost (costs : ExactCosts positions fromReference between F)
    (member : p ∈ positions) (member' : q ∈ positions) :
    Number.ofRat F (fullCost fromReference between p q) =
      .finite (fullCost fromReference between p q) := by
  cases costs with
  | rational => rfl
  | integral first second =>
    obtain ⟨m, small, distance⟩ := first q member'
    obtain ⟨n, small', distance'⟩ := second p member q member'
    have sum : fullCost fromReference between p q = (m + n : ℕ) := by
      simp [fullCost, distance, distance']
    rw [sum]
    exact ofRat_natCast_binary64 (by omega)

/-- What a distance to the reference leaves of a greater cost is kept. -/
theorem ExactCosts.ofRat_sub (costs : ExactCosts positions fromReference between F)
    (member : p ∈ positions) (member' : q ∈ positions) (member'' : r ∈ positions)
    (less : fromReference r < fullCost fromReference between p q) :
    Number.ofRat F (fullCost fromReference between p q - fromReference r) =
      .finite (fullCost fromReference between p q - fromReference r) := by
  cases costs with
  | rational => rfl
  | integral first second =>
    obtain ⟨m, small, distance⟩ := first q member'
    obtain ⟨n, small', distance'⟩ := second p member q member'
    obtain ⟨k, -, distance''⟩ := first r member''
    have sum : fullCost fromReference between p q = (m + n : ℕ) := by
      simp [fullCost, distance, distance']
    rw [sum, distance''] at less ⊢
    have within : k ≤ m + n := by exact_mod_cast less.le
    rw [← Nat.cast_sub within]
    exact ofRat_natCast_binary64 (by omega)

/-- Costs are added and subtracted exactly: the format keeps the cost of every candidate, and what a
distance to the reference leaves of a greater cost. -/
structure KeepsCosts (F : Format) (positions : List P) (fromReference : P → ℚ)
    (between : P → P → ℚ) : Prop where
  isProper : F.IsProper
  cost : ∀ {p q}, p ∈ positions → q ∈ positions →
    Number.ofRat F (fullCost fromReference between p q) =
      .finite (fullCost fromReference between p q)
  left : ∀ {p q r}, p ∈ positions → q ∈ positions → r ∈ positions →
    fromReference r < fullCost fromReference between p q →
    Number.ofRat F (fullCost fromReference between p q - fromReference r) =
      .finite (fullCost fromReference between p q - fromReference r)

theorem ExactCosts.keepsCosts (costs : ExactCosts positions fromReference between F) :
    KeepsCosts F positions fromReference between where
  isProper := costs.isProper
  cost := costs.ofRat_fullCost
  left := costs.ofRat_sub

end ExactCosts

section Leader

variable {vectorOf : P → V} {fromReference : P → ℚ} {between : P → P → ℚ}

/-- The entry of a position with its exact distance to the reference. -/
abbrev exactLink (F : Format) (vectorOf : P → V) (fromReference : P → ℚ) : P → Link P V F :=
  linkOf vectorOf fun position => .finite (fromReference position)

/-- The distance of two entries, whatever the cap. -/
def exactDistance (between : P → P → ℚ) (pivot : Link P V F) (_ : Number F)
    (candidate : Link P V F) : Number F :=
  .finite (between pivot.position candidate.position)

/-- Where the cost of a candidate is kept, it takes the lead exactly when its full cost is the
lower one: its distance to the reference alone never decides otherwise. -/
theorem next_exactLink {pivot candidate : P} (nonnegative : 0 ≤ between pivot candidate)
    (kept : Number.ofRat F (fullCost fromReference between pivot candidate) =
      .finite (fullCost fromReference between pivot candidate)) {index : ℕ} {lead : Lead F} :
    lead.next (exactDistance between (exactLink F vectorOf fromReference pivot)) index
        (exactLink F vectorOf fromReference candidate) =
      if .finite (fullCost fromReference between pivot candidate) < lead.cost then
        ⟨index, .finite (fullCost fromReference between pivot candidate)⟩
      else lead := by
  have offered : lead.offered (exactDistance between (exactLink F vectorOf fromReference pivot))
      (exactLink F vectorOf fromReference candidate) =
      .finite (fullCost fromReference between pivot candidate) := kept
  have atLeast : (.finite (fromReference candidate) : Number F) ≤
      .finite (fullCost fromReference between pivot candidate) :=
    Number.finite_le_finite.mpr (le_add_of_nonneg_right nonnegative)
  -- A candidate that is passed over would have had no lower cost.
  have passed : .finite (fullCost fromReference between pivot candidate) < lead.cost →
      ¬ lead.cost ≤ .finite (fromReference candidate) := fun beats beaten =>
    Number.not_lt_of_le (Number.le_trans beaten atLeast) beats
  simp only [Lead.next, Lead.IsTakenBy, offered]
  exact if_congr (and_iff_right_of_imp passed) rfl rfl

/-- The leader of a pass that goes on from the entry of least cost so far. The induction is on the
candidates to come; those that are done grow at their end, as the pass goes. -/
theorem getElem?_leader_append {pivot best : P} {done rest : List P} {index : ℕ}
    (nonnegative : ∀ candidate ∈ rest, 0 ≤ between pivot candidate)
    (kept : ∀ candidate ∈ rest, Number.ofRat F (fullCost fromReference between pivot candidate) =
      .finite (fullCost fromReference between pivot candidate))
    (leads : done[index]? = some best)
    (least : done.argmin (fullCost fromReference between pivot) = some best) :
    (done ++ rest)[leader (exactDistance between (exactLink F vectorOf fromReference pivot))
        done.length ⟨index, .finite (fullCost fromReference between pivot best)⟩
        (rest.map (exactLink F vectorOf fromReference))]? =
      (done ++ rest).argmin (fullCost fromReference between pivot) := by
  induction rest generalizing done best index with
  | nil => simpa [leader] using leads.trans least.symm
  | cons candidate rest ih =>
    rw [List.forall_mem_cons] at nonnegative kept
    have within : index < done.length := (List.getElem?_eq_some_iff.mp leads).1
    have next := List.argmin_concat (fullCost fromReference between pivot) candidate done
    rw [least] at next
    have length : done.length + 1 = (done ++ [candidate]).length := by simp
    rw [List.append_cons, List.map_cons, leader, next_exactLink nonnegative.1 kept.1, length]
    simp only [Number.finite_lt_finite]
    -- The least of one more is the new candidate or the same as before.
    by_cases beats : fullCost fromReference between pivot candidate <
        fullCost fromReference between pivot best
    · rw [if_pos beats]
      exact ih nonnegative.2 kept.2 (by simp) (by simpa only [if_pos beats] using next)
    · have stays : (done ++ [candidate])[index]? = some best := by
        rw [List.getElem?_append_left within, leads]
      rw [if_neg beats]
      exact ih nonnegative.2 kept.2 stays (by simpa only [if_neg beats] using next)

/-- The candidate of least cost leads a pass, the earliest of several. -/
theorem getElem?_leader {pivot : P} {candidates : List P} (several : candidates ≠ [])
    (nonnegative : ∀ candidate ∈ candidates, 0 ≤ between pivot candidate)
    (kept : ∀ candidate ∈ candidates,
      Number.ofRat F (fullCost fromReference between pivot candidate) =
        .finite (fullCost fromReference between pivot candidate)) :
    candidates[leader (exactDistance between (exactLink F vectorOf fromReference pivot)) 0 .initial
        (candidates.map (exactLink F vectorOf fromReference))]? =
      candidates.argmin (fullCost fromReference between pivot) := by
  cases candidates with
  | nil => contradiction
  | cons candidate rest =>
    rw [List.forall_mem_cons] at nonnegative kept
    have takes : .finite (fullCost fromReference between pivot candidate) <
        (Lead.initial : Lead F).cost := Number.finite_lt_posInf _
    rw [List.map_cons, leader, next_exactLink nonnegative.1 kept.1, if_pos takes]
    have first : [candidate][0]? = some candidate := rfl
    exact getElem?_leader_append nonnegative.2 kept.2 first rfl

/-- Leaders chosen one after the other make up the greedy chain. -/
theorem arrangeLeaders_eq_greedyChain [BEq P] [LawfulBEq P] {window : ℕ} (positive : 1 ≤ window)
    {positions : List P}
    (nonnegative : ∀ pivot ∈ positions, ∀ candidate ∈ positions, 0 ≤ between pivot candidate)
    (kept : ∀ pivot ∈ positions, ∀ candidate ∈ positions,
      Number.ofRat F (fullCost fromReference between pivot candidate) =
        .finite (fullCost fromReference between pivot candidate))
    {choices : ℕ} {pivot : P} {remaining : List P} (known : pivot ∈ positions)
    (known' : remaining ⊆ positions) (distinct : remaining.Nodup)
    (length : remaining.length = choices + 1) :
    (arrangeLeaders (F := F) (exactDistance between) window choices
        (exactLink F vectorOf fromReference pivot)
        (remaining.map (exactLink F vectorOf fromReference))).map (·.position) =
      greedyChain (fullCost fromReference between) window (choices + 1) pivot remaining := by
  induction choices generalizing pivot remaining with
  | zero =>
    obtain ⟨last, rfl⟩ := List.length_eq_one_iff.mp length
    obtain ⟨further, rfl⟩ := Nat.exists_eq_add_of_le' positive
    simp [arrangeLeaders, greedyChain, linkOf]
  | succ choices ih =>
    -- There is something to choose, since the window and what remains are not empty.
    have ahead : remaining.take window ≠ [] := by
      rw [Ne, List.take_eq_nil_iff]
      rintro (none | none)
      · omega
      · simp [none] at length
    have chosen : (remaining.take window)[leader
        (exactDistance between (exactLink F vectorOf fromReference pivot)) 0 .initial
        ((remaining.take window).map (exactLink F vectorOf fromReference))]? =
        (remaining.take window).argmin (fullCost fromReference between pivot) :=
      getElem?_leader ahead
        (fun candidate member =>
          nonnegative pivot known candidate (known' (List.mem_of_mem_take member)))
        fun candidate member => kept pivot known candidate (known' (List.mem_of_mem_take member))
    have answers : (remaining.take window).argmin (fullCost fromReference between pivot) ≠ none :=
      fun none => ahead (List.argmin_eq_none.mp none)
    obtain ⟨next, least⟩ := Option.ne_none_iff_exists'.mp answers
    rw [least] at chosen
    rw [arrangeLeaders, ← List.map_take, greedyChain, least]
    generalize leader (exactDistance between (exactLink F vectorOf fromReference pivot)) 0 .initial
      ((remaining.take window).map (exactLink F vectorOf fromReference)) = index at chosen ⊢
    have found : remaining[index]? = some next := by
      rw [List.getElem?_take] at chosen
      exact (Option.ite_none_right_eq_some.mp chosen).2
    obtain ⟨within, rfl⟩ := List.getElem?_eq_some_iff.mp found
    have moved : moveToFront index (remaining.map (exactLink F vectorOf fromReference)) =
        exactLink F vectorOf fromReference remaining[index] ::
          (remaining.erase remaining[index]).map (exactLink F vectorOf fromReference) := by
      rw [distinct.erase_getElem, ← List.eraseIdx_map]
      exact moveToFront_of_getElem? (by simp [within])
    simp only [moved, List.map_cons]
    congr 1
    refine ih (known' (List.getElem_mem within)) ?_ (distinct.erase _) ?_
    · exact List.Subset.trans List.erase_subset known'
    · rw [List.length_erase_of_mem (List.getElem_mem within), length]
      rfl

end Leader

section Reorder

variable {distance : DistanceFunction P V F} {features : P → Except Fault V} {reference : V}
  {vectorOf : P → V} {fromReference : P → ℚ} {between : P → P → ℚ} {positions : List P}

/-- The best costs that can occur when costs are exact. -/
inductive IsCost (positions : List P) (fromReference : P → ℚ) (between : P → P → ℚ) :
    Number F → Prop
  | none : IsCost positions fromReference between .posInf
  | some {p q : P} (member : p ∈ positions) (member' : q ∈ positions) :
      IsCost positions fromReference between (.finite (fullCost fromReference between p q))

/-- A measurement that keeps to its cap decides as the exact distance does. Where the cap is
reached, neither its answer nor the exact distance beats the best cost, which is regained from the
cap without a loss. -/
theorem KeepsCosts.decides (costs : KeepsCosts F positions fromReference between) {p q : P}
    (member : p ∈ positions) (member' : q ∈ positions)
    (measured : Measures distance (vectorOf p) (vectorOf q) (between p q)) :
    Decides distance (exactDistance between) (IsCost positions fromReference between)
      (exactLink F vectorOf fromReference p) (exactLink F vectorOf fromReference q) where
  answered := by
    rintro ⟨best, bestCost⟩ occurs ahead calls
    cases occurs with
    | none =>
      simp only [linkOf, Number.posInf_sub_finite]
      exact ⟨_, measured.below (Number.finite_lt_posInf _) calls, fun _ => rfl⟩
    | @some r s known known' =>
      have less : fromReference q < fullCost fromReference between r s := by
        simpa [linkOf] using ahead
      have cap := costs.left known known' member' less
      simp only [linkOf, Number.finite_sub_finite, cap]
      rcases lt_or_ge (between p q) (fullCost fromReference between r s - fromReference q)
        with below | reached
      · exact ⟨_, measured.below (Number.finite_lt_finite.mpr below) calls, fun _ => rfl⟩
      · obtain ⟨answer, answered, capped⟩ := measured.reached
          (Number.finite_le_finite.mpr reached) calls
        have regained : (.finite (fromReference q) +
            .finite (fullCost fromReference between r s - fromReference q) : Number F) =
            .finite (fullCost fromReference between r s) := by
          rw [Number.finite_add_finite, add_sub_cancel, costs.cost known known']
        have behind : ∀ {x : Number F},
            .finite (fullCost fromReference between r s - fromReference q) ≤ x →
            ¬ .finite (fromReference q) + x < .finite (fullCost fromReference between r s) :=
          fun le => Number.not_lt_of_le
            (regained ▸ Number.finite_add_le_finite_add costs.isProper le)
        refine ⟨answer, answered, ?_⟩
        rintro (beats | beats)
        · exact absurd beats (behind capped)
        · exact absurd beats (behind (Number.finite_le_finite.mpr reached))
  occurs := by
    intro lead _ _
    have offered : lead.offered (exactDistance between (exactLink F vectorOf fromReference p))
        (exactLink F vectorOf fromReference q) = .finite (fullCost fromReference between p q) :=
      costs.cost member member'
    rw [offered]
    exact .some member member'

theorem decides_of_measures (costs : ExactCosts positions fromReference between F) {p q : P}
    (member : p ∈ positions) (member' : q ∈ positions)
    (measured : Measures distance (vectorOf p) (vectorOf q) (between p q)) :
    Decides distance (exactDistance between) (IsCost positions fromReference between)
      (exactLink F vectorOf fromReference p) (exactLink F vectorOf fromReference q) :=
  costs.keepsCosts.decides member member' measured

/-- Passing over candidates and measuring up to a cap change nothing about a chain whose costs are
exact: the tail becomes the chain that is built without shortcuts. -/
theorem reorder_eq_greedyChain [BEq P] [LawfulBEq P] {order : List P} {tailStart window : Int}
    (distinct : order.Nodup) (start : 1 ≤ tailStart) (ahead : 1 ≤ window)
    (long : 2 < (order.length : Int) - tailStart)
    (fetched : ∀ p ∈ order.drop (tailStart - 1).toNat, features p = .ok (vectorOf p))
    (measured : ∀ p ∈ order.drop (tailStart - 1).toNat,
      Measures distance reference (vectorOf p) (fromReference p))
    (measured' : ∀ p ∈ order.drop (tailStart - 1).toNat,
      ∀ q ∈ order.drop (tailStart - 1).toNat,
        Measures distance (vectorOf p) (vectorOf q) (between p q))
    (costs : ExactCosts (order.drop (tailStart - 1).toNat) fromReference between F) :
    ∃ seed, order[(tailStart - 1).toNat]? = some seed ∧
      (reorder distance order tailStart features reference window).fault = none ∧
      (reorder distance order tailStart features reference window).order =
        Position.upTo tailStart order ++
          greedyChain (fullCost fromReference between) window.toNat
            (Position.after tailStart order).length seed (Position.after tailStart order) := by
  obtain ⟨seed, seed_tail, unharmed, ordered⟩ := reorder_eq_arrangeLeaders window fetched
    (fun p member => (measured p member).uncapped)
    (fun p member q member' =>
      decides_of_measures costs member member' (measured' p member q member'))
    .none start long
  have found : order[(tailStart - 1).toNat]? = some seed := by
    rw [← List.head?_drop, seed_tail, List.head?_cons]
  refine ⟨seed, found, unharmed, ordered.trans ?_⟩
  have distinct' := distinct.sublist (List.drop_sublist (tailStart - 1).toNat order)
  rw [seed_tail] at measured' costs distinct'
  have several : 2 < (Position.after tailStart order).length := by
    have := congrArg List.length seed_tail
    rw [List.length_drop, List.length_cons] at this
    omega
  rw [arrangeLeaders_eq_greedyChain (by omega)
    (fun p member q member' => (measured' p member q member').nonnegative)
    (fun p member q member' => costs.ofRat_fullCost member member')
    List.mem_cons_self (List.subset_cons_self _ _) distinct'.of_cons (by omega)]
  congr 2
  omega

/-- The distance of two vectors of one feature does not depend on the cap. -/
private theorem square_singleton (x y : Number F) (cap : Option (Number F)) :
    Distance.square [x] [y] cap = .ok (Distance.total 0 [[x - y]]) := by
  cases cap with
  | none => rfl
  | some cap =>
    change (if cap.isFinite then _ else _) = _
    split_ifs
    · change Except.ok (if cap ≤ _ then _ else _) = _
      split_ifs <;> rfl
    · rfl

/-- Entries on a line: the one feature of an entry is its position. -/
def onLine (position : ℤ) : List (Number .binary64) := [.finite position]

/-- The square of the gap between two positions on the line. -/
def squareGap (p q : ℤ) : ℚ := (((p - q) ^ 2 : ℤ) : ℚ)

theorem squareGap_nonneg (p q : ℤ) : 0 ≤ squareGap p q := by
  unfold squareGap
  positivity

private theorem measures_onLine {p q : ℤ} (member : p ∈ [0, 3, 1, 2]) (member' : q ∈ [0, 3, 1, 2]) :
    Measures (P := Position) (fun _ => Distance.square) (onLine p) (onLine q) (squareGap p q) := by
  have sum : ∀ p ∈ [0, 3, 1, 2], ∀ q ∈ [0, 3, 1, 2],
      Distance.total 0 [[(.finite (p : ℤ) - .finite (q : ℤ) : Number .binary64)]] =
        .finite (squareGap p q) := by
    decide +kernel
  have measured := fun cap =>
    (square_singleton (.finite p) (.finite q) cap).trans (congrArg _ (sum p member q member'))
  exact .of_eq (squareGap_nonneg p q) fun _ => measured

private theorem exactCosts_onLine :
    ExactCosts [0, 3, 1, 2] (squareGap 0) squareGap .binary64 := by
  have small : ∀ p ∈ [0, 3, 1, 2], ∀ q ∈ [0, 3, 1, 2],
      ((p - q) ^ 2 : ℤ).toNat ≤ 2 ^ 52 ∧ (p - q) ^ 2 = ((p - q) ^ 2 : ℤ).toNat := by
    decide
  have natural : ∀ p ∈ [0, 3, 1, 2], ∀ q ∈ [0, 3, 1, 2],
      ∃ n : ℕ, n ≤ 2 ^ 52 ∧ squareGap p q = n := fun p member q member' =>
    ⟨_, (small p member q member').1, by
      unfold squareGap
      exact_mod_cast (small p member q member').2⟩
  exact .integral (natural 0 (by decide)) natural

/-- Four entries on the line, compared with 0, two candidates at a time. -/
theorem reorder_eq_greedyChain_four :
    (reorder (fun _ => Distance.square) ([0, 3, 1, 2] : List Position) 1 (fun p => .ok (onLine p))
      (onLine 0) 2).order = [0, 1, 2, 3] := by
  have distinct : ([0, 3, 1, 2] : List Position).Nodup := by decide
  have ahead : (1 : Int) ≤ 2 := by decide
  have known : ∀ p ∈ ([0, 3, 1, 2] : List Position).drop ((1 : Int) - 1).toNat, p ∈ [0, 3, 1, 2] :=
    fun _ member => member
  obtain ⟨seed, found, -, ordered⟩ := reorder_eq_greedyChain distinct le_rfl ahead (by decide)
    (fun _ _ => rfl) (fun q member => measures_onLine (by decide) (known q member))
    (fun p member q member' => measures_onLine (known p member) (known q member'))
    exactCosts_onLine
  obtain rfl := Option.some.inj found
  rw [ordered]
  decide +kernel

end Reorder

end Lookalike.Chain
