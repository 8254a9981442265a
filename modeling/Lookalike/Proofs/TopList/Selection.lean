import Lookalike.CaseIndex.Basic
import Lookalike.Proofs.Settings
import Lookalike.Proofs.TopList

/-!
# The best positions, split in two

A top list of some positions of a result set lists the best of them, as many as the settings allow,
in descending order of their scores; positions of equal score stand as they were given. It is split
where the scores fall below that of identical items. Only the first such place behind the best
position is searched for, but since the scores fall along the list, no identical item stands behind
it.

## Main definitions

* `TopList.IsSelection`, what the top list of some positions has to be

## Main statements

* `TopList.isSelection_ofScores`
* `TopList.select_best`, that selecting makes such a list from the scores of the positions alone
-/

namespace Lookalike

variable {Item Key : Type} {F : Format}

/-- A position within the result set has one of its scores. -/
theorem ResultSet.exists_scoreAt_eq_ok {results : ResultSet Item F} {position : Position}
    (named : (Position.index? results.size position).isSome) :
    ∃ score ∈ results.scores, results.scoreAt position = .ok score := by
  obtain ⟨index, found⟩ := Option.isSome_iff_exists.mp named
  have within : index < results.candidates.size := Position.lt_of_index? found
  have at_index : results.candidateAt position = .ok results.candidates[index] := by
    rw [candidateAt, found, Option.bind_some, Array.getElem?_eq_getElem within]
  refine ⟨results.candidates[index].score, ?_, ?_⟩
  · exact List.mem_map_of_mem (Array.getElem_mem_toList within)
  · rw [scoreAt, at_index]
    rfl

namespace TopList

/-- The top list of some positions, given their scores. -/
structure IsSelection (score : Position → Number F) (settings : Settings F)
    (positions : List Position) (top : TopList) : Prop where
  length_eq : top.positions.length = min positions.length settings.maxTop
  given : ∀ p ∈ top.positions, p ∈ positions
  nodup : top.positions.Nodup
  /-- Scores fall along the list, and of two positions with equal scores the one that was given
  first stands first. -/
  ranked : top.positions.Pairwise fun p q =>
    score q ≤ score p ∧ (score p ≤ score q → [p, q].Sublist positions)
  /-- What is cut off is no better than what is listed. -/
  best : ∀ p ∈ positions, p ∉ top.positions → ∀ q ∈ top.positions, score p ≤ score q
  start_le : top.tailStart ≤ top.positions.length
  start_nonneg : 0 ≤ top.tailStart
  start_pos : top.positions ≠ [] → 1 ≤ top.tailStart
  identical : ∀ (i : ℕ) (p : Position), 1 ≤ i → (i : Int) < top.tailStart →
    top.positions[i]? = some p → settings.identicalScore ≤ score p
  below : ∀ (i : ℕ) (p : Position), top.tailStart ≤ i → top.positions[i]? = some p →
    score p < settings.identicalScore

variable {score : Position → Number F} {settings : Settings F} {positions : List Position}

/-- What is left out of the best positions ranks behind all of them. -/
theorem le_of_notMem_take_ranked (numbers : ∀ p ∈ positions, (score p).isNaN = false) (count : ℕ)
    {p q : Position} (member : p ∈ positions) (out : p ∉ (ranked score positions).take count)
    (listed : q ∈ (ranked score positions).take count) : score p ≤ score q := by
  have descending := pairwise_ranked numbers
  rw [← List.take_append_drop count (ranked score positions), List.pairwise_append] at descending
  -- A ranked position that is not in the first part stands in the second, behind all of the first.
  have split : p ∈ (ranked score positions).take count ++ (ranked score positions).drop count := by
    rw [List.take_append_drop]
    exact (ranked_perm score positions).mem_iff.mpr member
  exact descending.2.2 q listed p ((List.mem_append.mp split).resolve_left out)

/-- Positions whose scores are known numbers make up a top list as it has to be. -/
theorem isSelection_ofScores (numbers : ∀ p ∈ positions, (score p).isNaN = false)
    (sound : settings.IsSound) (distinct : positions.Nodup) :
    IsSelection score settings positions (ofScores score settings positions) := by
  let listed := (ranked score positions).take settings.maxTop
  let start := anchorCount score settings.identicalScore listed
  have kept : listed.Sublist (ranked score positions) := List.take_sublist _ _
  have number : ∀ p ∈ listed, (score p).isNaN = false := fun p member =>
    numbers p ((ranked_perm score positions).mem_iff.mp (kept.subset member))
  have descending : listed.Pairwise fun p q => score q ≤ score p :=
    (pairwise_ranked numbers).sublist kept
  refine ⟨?_, fun p => mem_of_mem_ofScores, nodup_ofScores distinct, ?_, ?_, ?_, ?_, ?_, ?_, ?_⟩
  · change listed.length = _
    rw [List.length_take, (ranked_perm score positions).length_eq, min_comm]
  · exact (pairwise_ranked_stable numbers
      (List.pairwise_iff_forall_sublist.mpr fun pair => pair)).sublist kept
  · exact fun p member out q => le_of_notMem_take_ranked numbers settings.maxTop member out
  · exact Int.ofNat_le.mpr (anchorCount_le listed)
  · exact Int.natCast_nonneg start
  · exact fun some => Int.ofNat_le.mpr (anchorCount_pos some)
  · -- The best position is an anchor whatever its score is, and is left out here.
    intro i p behind before found
    have before : i < start := Int.ofNat_lt.mp before
    have member : p ∈ (listed.take start).tail := by
      rw [List.mem_iff_getElem?]
      refine ⟨i - 1, ?_⟩
      rw [List.getElem?_tail, Nat.sub_add_cancel behind, List.getElem?_take_of_lt before]
      exact found
    have known := number p (List.mem_of_getElem? found)
    exact (Number.not_lt known (Number.lt_iff_place.mp sound.identicalScore).2.1).mp
      (not_lt_of_mem_tail_take_anchorCount member)
  · intro i p behind found
    have behind : start ≤ i := Int.ofNat_le.mp behind
    have member : p ∈ listed.drop start := by
      rw [List.mem_iff_getElem?]
      refine ⟨i - start, ?_⟩
      rw [List.getElem?_drop, Nat.add_sub_cancel' behind]
      exact found
    exact lt_of_mem_drop_anchorCount descending member

/-- Selecting from distinct positions of a result set whose scores are numbers lists the best of
them and splits the list where identical items end. The list depends on nothing but the scores of
these positions, and the step of a scoring call that makes it changes nothing. -/
theorem select_best {pass : Pass Item Key F} (sound : settings.IsSound)
    (numbers : ∀ score ∈ pass.results.scores, score.isNaN = false) (distinct : positions.Nodup)
    (named : ∀ p ∈ positions, (Position.index? pass.results.size p).isSome) :
    ∃ top, IsSelection pass.results.held settings positions top ∧
      (∀ p ∈ top.tail, pass.results.held p < settings.identicalScore) ∧
      (∀ {Other : Type} (results : ResultSet Other F),
        (∀ p ∈ positions, results.scoreAt p = pass.results.scoreAt p) →
          select results settings positions = .ok top) ∧
      (Attempt.ofExcept (select pass.results settings positions) :
        Scoring Item Key F TopList).result pass = (.ok top, pass) := by
  have known : ∀ p ∈ positions, pass.results.scoreAt p = .ok (pass.results.held p) ∧
      (pass.results.held p).isNaN = false := by
    intro p member
    obtain ⟨score, listed, read⟩ := ResultSet.exists_scoreAt_eq_ok (named p member)
    rw [ResultSet.held_of_scoreAt read]
    exact ⟨read, numbers score listed⟩
  have numbers' := fun p member => (known p member).2
  refine ⟨ofScores pass.results.held settings positions,
    isSelection_ofScores numbers' sound distinct, ?_, ?_, ?_⟩
  · intro p member
    rw [tail_ofScores] at member
    exact lt_of_mem_drop_anchorCount
      ((pairwise_ranked numbers').sublist (List.take_sublist _ _)) member
  · intro Other results same
    exact select_eq_ofScores fun p member => (same p member).trans (known p member).1
  · rw [Attempt.result_ofExcept, select_eq_ofScores fun p member => (known p member).1]

/-- Six images, of which two are identical to the reference and two have one score besides. -/
def sixImages : Pass String Scalar .binary64 where
  results := ⟨#[⟨"a", .finite 5⟩, ⟨"b", .finite 1000⟩, ⟨"c", .finite 7⟩, ⟨"d", .finite 1000⟩,
    ⟨"e", .finite 7⟩, ⟨"f", .finite 3⟩]⟩

/-- Settings for a list of four. -/
def shortSettings : Settings .binary64 where
  distanceWeight := .finite 4
  baseScore := .finite 100
  identicalScore := .finite 1000
  identicalEpsilon := 0
  minScore := 1
  maxResults := 100
  maxTop := 4
  rangeCheck := 10

theorem isSound_shortSettings : shortSettings.IsSound := by
  constructor <;> decide +kernel

/-- Of five positions, one of them counted from the end, the worst is cut off. -/
theorem select_best_sixImages :
    IsSelection sixImages.results.held shortSettings [0, 1, 2, 3, -2] ⟨[1, 3, 2, -2], 2⟩ ∧
      (Attempt.ofExcept (select sixImages.results shortSettings [0, 1, 2, 3, -2]) :
        Scoring String Scalar .binary64 TopList).result sixImages =
          (.ok ⟨[1, 3, 2, -2], 2⟩, sixImages) := by
  have numbers : ∀ score ∈ sixImages.results.scores, score.isNaN = false := by decide
  have named : ∀ p ∈ ([0, 1, 2, 3, -2] : List Position),
      (Position.index? sixImages.results.size p).isSome := by
    decide
  have listed : select sixImages.results shortSettings [0, 1, 2, 3, -2] =
      .ok ⟨[1, 3, 2, -2], 2⟩ := by
    simp only [select, Ranking.rank_eq_insertionSort]
    decide +kernel
  obtain ⟨top, selection, -, -, run⟩ :=
    select_best isSound_shortSettings numbers (by decide) named
  rw [Attempt.result_ofExcept, listed] at run
  obtain rfl : _ = top := Except.ok.inj (Prod.mk.inj run).1
  rw [Attempt.result_ofExcept, listed]
  exact ⟨selection, rfl⟩

end TopList

end Lookalike
