import Mathlib.Data.List.Sort
import Lookalike.Proofs.TopList
import Lookalike.Proofs.ScoreMap.Build
import Lookalike.Proofs.ScoreMap.Gather

/-!
# Matched positions and scores other than zero

A pass writes an accepted score to the positions that it matches, and zero to the others. What is
accepted reaches the least score. Where that lies above zero, exactly the matched positions hold a
score other than zero, and nothing else is listed. Where the least score is zero itself, a neighbor
that is not relevant at all is accepted with the score zero, and its position is matched all the
same.

## Main definitions

* `ResultSet.nonzeroPositions`, the positions with a score other than zero, in order
* `ScoreMap.AfterEveryPass`, what holds of every pass that ends well
* `ScoreMap.Marks`, what a pass leaves at the positions that it matches and at the others
* `ScoreMap.MatchesNonzero`, that exactly the positions with a score other than zero are matched

## Main statements

* `ScoreMap.marks_of_build`
* `ScoreMap.matchesNonzero_iff`
-/

namespace Lookalike

variable {Item Key Hash : Type} {F : Format}

/-- The positions that hold a score other than zero, in order. -/
def ResultSet.nonzeroPositions (results : ResultSet Item F) : List Position :=
  ((List.range results.size).filter fun k => !(results.held (k : ℕ)).isZero).map Nat.cast

theorem ResultSet.mem_nonzeroPositions_iff {results : ResultSet Item F} {position : Position} :
    position ∈ results.nonzeroPositions ↔
      ∃ k < results.size, (results.held (k : Position)).isZero = false ∧ position = (k : ℕ) := by
  simp only [nonzeroPositions, List.mem_map, List.mem_filter, List.mem_range, Bool.not_eq_true',
    and_assoc]
  constructor
  · rintro ⟨k, within, nonzero, rfl⟩
    exact ⟨k, within, nonzero, rfl⟩
  · rintro ⟨k, within, nonzero, rfl⟩
    exact ⟨k, within, nonzero, rfl⟩

theorem ResultSet.pairwise_nonzeroPositions (results : ResultSet Item F) :
    results.nonzeroPositions.Pairwise (· < ·) := by
  rw [nonzeroPositions, List.pairwise_map]
  exact (List.pairwise_lt_range.filter _).imp Int.ofNat_lt.mpr

namespace ScoreMap

/-- A property of the matched positions and the result set holds after every pass that has something
to score and ends well, whatever the index answers. -/
def AfterEveryPass (settings : Settings F)
    (holds : ∀ {Item : Type}, List Position → ResultSet Item F → Prop) : Prop :=
  ∀ {Item Key Hash : Type} [BEq Key] [TableKey Key] [BEq Hash] (index : CaseIndex Item Key Hash F)
    (reference : FeatureVector F) (referenceHash : Option Hash) (pass final : Pass Item Key F)
    (map : ScoreMap Key F), reference ≠ [] → pass.results.size ≠ 0 →
      (build index (some reference) referenceHash settings).result pass = (.ok map, final) →
        holds map.matched final.results

/-- Matched positions hold a score that has been accepted, the others exactly zero. -/
structure Marks (settings : Settings F) (matched : List Position) (results : ResultSet Item F) :
    Prop where
  increasing : matched.Pairwise (· < ·)
  within : ∀ position ∈ matched, ∃ k < results.size, position = (k : ℕ)
  accepted : ∀ position ∈ matched, settings.minScore ≤ results.held position
  others : ∀ k < results.size, (k : Position) ∉ matched → results.held (k : Position) = 0

/-- Exactly the positions that hold a score other than zero are matched, and what is listed of them
is none that holds zero. -/
structure MatchesNonzero (settings : Settings F) (matched : List Position)
    (results : ResultSet Item F) : Prop where
  matched_eq : matched = results.nonzeroPositions
  listed : ∃ top, TopList.select results settings matched = .ok top ∧
    ∀ position ∈ top.positions, position ∈ results.nonzeroPositions

section Build

variable [BEq Key] [TableKey Key] [BEq Hash] {index : CaseIndex Item Key Hash F}
  {reference : FeatureVector F} {referenceHash : Option Hash} {settings : Settings F}
  {pass final : Pass Item Key F} {map : ScoreMap Key F}

theorem marks_of_build (sound : settings.IsSound) (features : reference ≠ [])
    (busy : pass.results.size ≠ 0)
    (built : (build index (some reference) referenceHash settings).result pass =
      (.ok map, final)) : Marks settings map.matched final.results := by
  obtain ⟨_, _, _, -, scanned, -, -, projected⟩ := build_eq_ok features busy built
  have accepts := accepts_of_scanFrom sound (by simp) scanned
  refine ⟨projected.pairwise_matched, fun _ => projected.exists_eq_natCast, ?_, ?_⟩
  · intro position member
    obtain ⟨k, -, rfl⟩ := projected.exists_eq_natCast member
    obtain ⟨key, score, -, known, held⟩ := projected.mem_matched_iff.mp member
    obtain ⟨entry, listed, -, rfl⟩ := exists_of_lookup_eq_some known
    rw [ResultSet.held_of_scoreAt (ResultSet.scoreAt_eq_ok_iff.mpr held)]
    exact (accepts entry listed).2
  · intro k within unmatched
    exact ResultSet.held_of_scoreAt (ResultSet.scoreAt_eq_ok_iff.mpr
      (projected.getElem?_scores_of_unmatched unmatched within))

end Build

section Positive

variable {settings : Settings F} {matched : List Position} {results : ResultSet Item F}

/-- A number above zero is not zero. -/
theorem isZero_of_pos {score : Number F} (positive : 0 < score) : score.isZero = false := by
  rcases Number.eq_posInf_or_finite_of_pos positive with rfl | ⟨q, above, rfl⟩
  · rfl
  · simpa [Number.isZero, Number.value, Number.isFinite] using above.ne'

/-- Where the least score lies above zero, a matched position does not hold zero. -/
theorem Marks.matchesNonzero (marks : Marks settings matched results)
    (positive : 0 < settings.minScore) : MatchesNonzero settings matched results := by
  -- Both lists ascend, so they are one list if the same positions stand in them.
  have same : matched = results.nonzeroPositions := by
    refine marks.increasing.eq_of_mem_iff results.pairwise_nonzeroPositions fun position => ?_
    rw [ResultSet.mem_nonzeroPositions_iff]
    constructor
    · intro member
      obtain ⟨k, within, rfl⟩ := marks.within position member
      have reaches := marks.accepted k member
      exact ⟨k, within, isZero_of_pos (Number.lt_of_lt_of_le positive reaches), rfl⟩
    · rintro ⟨k, within, nonzero, rfl⟩
      by_contra unmatched
      rw [marks.others k within unmatched] at nonzero
      cases nonzero
  refine ⟨same, TopList.ofScores results.held settings matched, ?_, ?_⟩
  · apply TopList.select_eq_ofScores
    intro position member
    obtain ⟨k, within, rfl⟩ := marks.within position member
    exact ResultSet.scoreAt_eq_held within
  · intro position member
    rw [← same]
    exact TopList.mem_of_mem_ofScores member

end Positive

section Irrelevant

/-- An index whose only neighbor is not relevant at all. -/
def irrelevantIndex : CaseIndex String Scalar String .binary64 :=
  fixedIndex [(.text "far", 0)] (fun item => some (.text item)) fun _ => .ok none

/-- The item of that neighbor, to be scored. -/
def farImage : Pass String Scalar .binary64 where
  results := .ofItems ["far"] 1

/-- Scored with zero, it is at no position with another score. -/
theorem nonzeroPositions_farImage :
    (ResultSet.ofItems ["far"] 0 : ResultSet String .binary64).nonzeroPositions = [] := by
  decide

variable {settings : Settings .binary64}

/-- A neighbor that is not relevant at all has the score zero, and is accepted with it unless the
least score lies above. -/
theorem result_build_farImage (sound : settings.IsSound) :
    ∃ map final, (build irrelevantIndex (some [1]) none settings).result farImage =
        (.ok map, final) ∧
      final.results = .ofItems ["far"] 0 ∧
      map.matched = if 0 < settings.minScore then [] else [0] := by
  have call : OrdinaryCall irrelevantIndex farImage [1] settings [(.text "far", 0)]
      (fun item => some (.text item)) :=
    ordinaryCall_fixedIndex (by simp) (by simp [Number.isNaN]) (by simp) (by decide +kernel)
      (by decide)
  obtain ⟨seen, calls, built⟩ := result_build call sound none (fun _ => .ok none)
    fun _ _ => .inl rfl
  have zero : neighborScore settings ([1] : FeatureVector .binary64).length none
      (fun _ => .ok (none : Option String)) (Scalar.text "far", 0) = 0 := by
    -- What is not relevant at all lies infinitely far away, and an infinite distance scores zero.
    have behind : Relevance.toDistance (0 : Number .binary64) = .posInf := by decide +kernel
    have one : Number.ofInt .binary64 ([1] : FeatureVector .binary64).length = .finite 1 := by
      decide +kernel
    have apart : isCopy none (.ok (none : Option String)) = false := rfl
    rw [neighborScore, Relevance.scoreOf, apart, Bool.and_false, behind, one]
    exact Relevance.distanceScore_posInf sound one_pos
  have scores : acceptedScores settings [1] none (fun _ => .ok (none : Option String))
      [(Scalar.text "far", 0)] =
        if 0 < settings.minScore then [] else [(Scalar.text "far", 0)] := by
    have alone : Ranking.rank [((Scalar.text "far" : Scalar), (0 : Number .binary64))] =
        [(Scalar.text "far", 0)] :=
      Ranking.rank_of_pairwise (by decide) (List.pairwise_singleton _ _)
    have least := (Number.le_iff_place.mp sound.minScore).2.1
    rw [acceptedScores, alone]
    split_ifs with positive
    · apply accepted_cons_of_not_le
      rw [zero]
      exact fun reaches => Number.not_lt_of_le reaches positive
    · rw [accepted_cons_of_le, zero]
      · rfl
      · rw [zero]
        exact (Number.not_lt rfl least).mp positive
  refine ⟨_, _, built, ?_, ?_⟩
  · refine ResultSet.eq_of_items_of_scores (items_rescored _) ((scores_rescored _).trans ?_)
    rw [scores]
    split_ifs <;> rfl
  · simp only [scores]
    split_ifs <;> rfl

/-- After every pass the matched positions hold accepted scores and the others zero. Where, and only
where, the least score lies above zero, it is besides exactly the positions with a score other than
zero that are matched and listed, whatever the index answers. -/
theorem matchesNonzero_iff (sound : settings.IsSound) :
    AfterEveryPass settings (Marks settings) ∧
      (AfterEveryPass settings (MatchesNonzero settings) ↔ 0 < settings.minScore) := by
  have marks : AfterEveryPass settings (Marks settings) :=
    fun index reference referenceHash pass final map => marks_of_build sound
  refine ⟨marks, fun always => ?_, fun positive => ?_⟩
  · -- With the least score at zero, a neighbor that is not relevant at all matches its position.
    by_contra low
    obtain ⟨map, final, built, results, matched⟩ := result_build_farImage sound
    have same := (always irrelevantIndex [1] none farImage final map (by simp) (by decide)
      built).matched_eq
    rw [matched, if_neg low, results, nonzeroPositions_farImage] at same
    cases same
  · intro Item Key Hash _ _ _ index reference referenceHash pass final map features busy built
    exact (marks _ _ _ _ _ _ features busy built).matchesNonzero positive

/-- An index with a neighbor that is near and one that is not relevant at all. -/
def nearAndFarIndex : CaseIndex String Scalar String .binary64 :=
  fixedIndex [(.text "near", .finite (1 / 2)), (.text "far", 0)] (fun item => some (.text item))
    fun _ => .ok none

/-- The items of these neighbors, to be scored. -/
def nearAndFarImages : Pass String Scalar .binary64 where
  results := .ofItems ["far", "near"] 1

/-- In the standard settings the near image is matched with a score, and the image that is not
relevant at all is not matched. -/
theorem matchesNonzero_standard :
    ∃ map final, (build nearAndFarIndex (some [1]) none (.standard .binary64)).result
        nearAndFarImages = (.ok map, final) ∧
      MatchesNonzero (.standard .binary64) map.matched final.results ∧
      map.matched = [1] ∧ final.results.scores = [0, .finite 96] := by
  have sound := Settings.isSound_standard
  have positive : 0 < (Settings.standard .binary64).minScore := by decide +kernel
  have call : OrdinaryCall nearAndFarIndex nearAndFarImages [1] (.standard .binary64)
      [(.text "near", .finite (1 / 2)), (.text "far", 0)] (fun item => some (.text item)) :=
    ordinaryCall_fixedIndex (by decide) (by decide +kernel) (by decide) (by decide +kernel)
      (by decide)
  obtain ⟨seen, calls, built⟩ := result_build call sound none (fun _ => .ok none)
    fun _ _ => .inl rfl
  have scores : acceptedScores (.standard .binary64) [1] none (fun _ => .ok (none : Option String))
      [(Scalar.text "near", .finite (1 / 2)), (Scalar.text "far", 0)] =
        [(Scalar.text "near", .finite 96)] := by
    have ranked : Ranking.rank
        [(Scalar.text "near", (.finite (1 / 2) : Number .binary64)), (Scalar.text "far", 0)] =
          [(Scalar.text "near", .finite (1 / 2)), (Scalar.text "far", 0)] :=
      Ranking.rank_of_pairwise (by decide +kernel) (by decide +kernel)
    rw [acceptedScores, ranked]
    decide +kernel
  rw [scores] at built
  have always : AfterEveryPass (.standard .binary64) (MatchesNonzero _) :=
    (matchesNonzero_iff sound).2.mpr positive
  refine ⟨_, _, built,
    always nearAndFarIndex [1] none nearAndFarImages _ _ (by simp) (by decide) built, rfl,
    (scores_rescored _).trans (by decide +kernel)⟩

/-- With the least score zero the image is matched, though its score is zero. So what is matched
does not always have another score. -/
theorem zero_can_be_matched :
    ¬ ∀ settings : Settings .binary64, settings.IsSound →
      AfterEveryPass settings (MatchesNonzero settings) := by
  intro always
  let settings : Settings .binary64 := { Settings.standard .binary64 with minScore := 0 }
  have sound : settings.IsSound := { Settings.isSound_standard with minScore := by decide +kernel }
  obtain ⟨map, final, built, results, matched⟩ := result_build_farImage sound
  have marked : AfterEveryPass settings (MatchesNonzero settings) := always settings sound
  have same := (marked irrelevantIndex [1] none farImage final map (by simp) (by decide)
    built).matched_eq
  rw [matched, results, nonzeroPositions_farImage, if_neg Number.lt_irrefl] at same
  cases same

end Irrelevant

end ScoreMap

end Lookalike
