import Lookalike.Proofs.ScoreMap.Build

/-!
# The early exit

A scan stops at the first neighbor whose score is too low. Nothing is lost by it where scores fall
along the ranking: without a hash of the reference for all sound settings, and with one in the
standard settings, where whatever is near enough to zero to be compared is accepted anyway.

In other settings an exact duplicate can be lost: it is accepted exactly when the score of identical
items is high enough, and so is the score of each neighbor in front of it that is no duplicate.

## Main statements

* `ScoreMap.build_eq_filter`, that the early exit loses nothing
* `ScoreMap.lookup_identical_iff`, when an exact duplicate keeps its score
* `ScoreMap.duplicate_can_be_lost`
-/

namespace Lookalike.ScoreMap

variable {Item Key Hash : Type} [BEq Hash] {referenceHash : Option Hash}
  {hashOf : Key → Except Fault (Option Hash)}

section Monotone

variable {settings : Settings .binary64} {features : Int} {a b : Key × Number .binary64}

/-- Where scores fall along the ranking, or whatever is compared is accepted anyway, a neighbor is
accepted whenever a less relevant one is. -/
theorem minScore_le_neighborScore_of_le (positive : 0 < features)
    (finite : (Number.ofInt .binary64 features).isFinite) (sound : settings.IsSound)
    (mode : referenceHash = none ∨ settings = Settings.standard .binary64) (le : b.2 ≤ a.2)
    (reaches : settings.minScore ≤ neighborScore settings features referenceHash hashOf b) :
    settings.minScore ≤ neighborScore settings features referenceHash hashOf a := by
  have proper : Format.binary64.IsProper := (by decide : 1 ≤ 53)
  obtain ⟨c, atLeast, count⟩ := Relevance.exists_ofInt_eq positive finite
  have mono := Relevance.distanceScore_toDistance_mono proper sound
    (zero_lt_one.trans_le atLeast) le
  rw [neighborScore, Relevance.scoreOf, count] at reaches ⊢
  rcases mode with rfl | rfl
  · -- Without a hash of the reference every score is that of the distance.
    have noCopy : ∀ key, isCopy (none : Option Hash) (hashOf key) = false := fun _ => rfl
    simp only [noCopy, Bool.and_false, Bool.false_eq_true, if_false] at reaches ⊢
    exact Number.le_trans reaches mono
  · -- The score of identical items is not monotone, but what is near enough to be compared
    -- is accepted with either score.
    by_cases near : Relevance.isNearZero (Settings.standard .binary64) (Relevance.toDistance a.2)
    · split_ifs
      · decide +kernel
      · exact Relevance.minScore_le_distanceScore_standard atLeast
          (Relevance.isAmount_toDistance proper a.2) near
    · have far : ¬ Relevance.isNearZero (Settings.standard .binary64) (Relevance.toDistance b.2) :=
        mt (Relevance.isNearZero_of_le proper le) near
      simp only [near, far, Bool.false_and, Bool.false_eq_true, if_false] at reaches ⊢
      exact Number.le_trans reaches mono

end Monotone

section EarlyExit

variable [BEq Key] [TableKey Key] {index : CaseIndex Item Key Hash .binary64}
  {pass : Pass Item Key .binary64} {reference : FeatureVector .binary64}
  {settings : Settings .binary64} {neighbors : List (Key × Number .binary64)}
  {keyOf : Item → Option Key}

/-- The early exit loses nothing: the accepted scores are those of all neighbors that reach the
least score, every position holds the score of its item's key or zero, and the matched positions are
those of the former in increasing order. -/
theorem build_eq_filter [EquivBEq Key]
    (call : OrdinaryCall index pass reference settings neighbors keyOf) (sound : settings.IsSound)
    (mode : referenceHash = none ∨ settings = Settings.standard .binary64 ∧
      ∀ neighbor ∈ neighbors, Answered index neighbor.1 (hashOf neighbor.1)) :
    ∃ map pass', (build index (some reference) referenceHash settings).result pass =
        (.ok map, pass') ∧
      (∀ key score, (key, score) ∈ map.byKey ↔ ∃ relevance, (key, relevance) ∈ neighbors ∧
        Relevance.displayScore settings reference.length relevance
          (.ok (isCopy referenceHash (hashOf key)) : Except Fault Bool) = .ok score ∧
        settings.minScore ≤ score) ∧
      (map.byKey.Pairwise fun a b => (a.1 == b.1) = false) ∧
      pass'.results.candidates = pass.results.candidates.map (rescored map.byKey keyOf) ∧
      map.matched.Pairwise (· < ·) ∧
      ∀ position, position ∈ map.matched ↔ ∃ (k : ℕ) (item : Item),
        pass.results.items[k]? = some item ∧ (itemScore? map.byKey keyOf item).isSome ∧
          position = k := by
  have positive : 0 < (reference.length : Int) := by
    exact_mod_cast List.length_pos_of_ne_nil call.features
  obtain ⟨seen, calls, built⟩ := result_build call sound referenceHash hashOf
    fun neighbor member => mode.imp_right fun standard => standard.2 neighbor member
  -- What is accepted is a first part of the ranking, so it is all that reaches the least score.
  let reaches (neighbor : Key × Number .binary64) : Bool :=
    settings.minScore ≤ neighborScore settings reference.length referenceHash hashOf neighbor
  have inFront : (Ranking.rank neighbors).Pairwise fun a b => reaches b → reaches a :=
    (Ranking.pairwise_rank call.numbers).imp fun le reaches =>
      decide_eq_true (minScore_le_neighborScore_of_le positive call.countable sound
        (mode.imp_right And.left) le (of_decide_eq_true reaches))
  refine ⟨_, _, built, fun key score => ?_, ?_, rfl, pairwise_matchedFrom, fun position => ?_⟩
  · rw [acceptedScores, accepted, Ranking.takeWhile_eq_filter inFront]
    simp only [reaches, List.mem_map, List.mem_filter, (Ranking.rank_perm neighbors).mem_iff,
      decide_eq_true_eq, Prod.mk.injEq, Prod.exists,
      Relevance.displayScore_eq positive call.countable, Except.ok.injEq]
    constructor
    · rintro ⟨key', relevance, ⟨member, enough⟩, rfl, rfl⟩
      exact ⟨relevance, member, rfl, enough⟩
    · rintro ⟨relevance, member, rfl, enough⟩
      exact ⟨key, relevance, ⟨member, enough⟩, rfl, rfl⟩
  · rw [acceptedScores, accepted, List.pairwise_map]
    exact (List.pairwise_map.mp (distinct_rank call.distinct)).sublist (List.takeWhile_sublist _)
  · exact mem_matchedFrom_iff.trans (by simp only [Nat.zero_add])

/-- Three neighbors out of order. -/
def threeNeighbors : List (Scalar × Number .binary64) :=
  [(.text "far", .finite (1 / 1024)), (.text "near", .finite (1 / 2)), (.text "copy", 1)]

/-- The hash of the reference for the copy; other hashes cannot be fetched for the moment. -/
def transientHash (key : Scalar) : Except Fault (Option String) :=
  if key = Scalar.text "copy" then .ok (some "reference") else .error (.hashLookup "later")

/-- The copy is accepted, and so is a neighbor whose hash cannot be fetched for the moment. -/
theorem build_eq_filter_threeNeighbors :
    ∃ map pass', (build (fixedIndex threeNeighbors (fun item : String => some (Scalar.text item))
        transientHash) (some [1, 1]) (some "reference") (Settings.standard .binary64)).result
          ⟨.ofItems ["far", "copy"] 1, none, []⟩ = (.ok map, pass') ∧
      (Scalar.text "copy", .finite 1000) ∈ map.byKey ∧
      (Scalar.text "near", .finite 98) ∈ map.byKey ∧
      ∀ score, (Scalar.text "far", score) ∉ map.byKey := by
  have call : OrdinaryCall (fixedIndex threeNeighbors (fun item : String => some (Scalar.text item))
      transientHash) ⟨.ofItems ["far", "copy"] 1, none, []⟩ [1, 1] (Settings.standard .binary64)
      threeNeighbors fun item => some (Scalar.text item) :=
    ordinaryCall_fixedIndex (by decide +kernel) (by decide +kernel) (by decide) (by decide +kernel)
      (by decide)
  have told : ∀ key, (∃ hash, transientHash key = .ok hash) ∨
      ∃ detail, transientHash key = .error (.hashLookup detail) := by
    intro key
    unfold transientHash
    split_ifs
    · exact .inl ⟨_, rfl⟩
    · exact .inr ⟨_, rfl⟩
  have mode : some "reference" = none ∨ Settings.standard .binary64 = Settings.standard .binary64 ∧
      ∀ neighbor ∈ threeNeighbors, Answered (fixedIndex threeNeighbors
        (fun item : String => some (Scalar.text item)) transientHash) neighbor.1
        (transientHash neighbor.1) :=
    .inr ⟨rfl, fun neighbor _ => ⟨fun _ => rfl, told neighbor.1⟩⟩
  obtain ⟨map, pass', built, member, -⟩ := build_eq_filter call Settings.isSound_standard mode
  have scores : ∀ (relevance : Number .binary64) (isCopy : Bool),
      Relevance.displayScore (Settings.standard .binary64)
        (List.length ([1, 1] : FeatureVector .binary64)) relevance
        (.ok isCopy : Except Fault Bool) =
      .ok (Relevance.scoreOf (Settings.standard .binary64) (Number.ofInt .binary64 2) relevance
        isCopy) := Relevance.displayScore_eq (by decide) (by decide +kernel)
  simp only [scores, Except.ok.injEq] at member
  refine ⟨map, pass', built, ?_, ?_, ?_⟩
  · exact (member _ _).mpr ⟨1, by simp [threeNeighbors], by decide +kernel, by decide +kernel⟩
  · exact (member _ _).mpr
      ⟨.finite (1 / 2), by simp [threeNeighbors], by decide +kernel, by decide +kernel⟩
  · intro score accepted
    obtain ⟨relevance, present, rfl, reaches⟩ := (member _ _).mp accepted
    obtain rfl : relevance = .finite (1 / 1024) := by
      simpa [threeNeighbors] using present
    exact absurd reaches (by decide +kernel)

omit [BEq Hash] [TableKey Key] in
/-- A neighbor is found with its score exactly when the score is high enough, and so are those in
front of it. -/
theorem lookup_accepted_iff [ReflBEq Key] {score : Key × Number .binary64 → Number .binary64}
    {before after : List (Key × Number .binary64)} {key : Key} {relevance : Number .binary64}
    (distinct : ∀ other ∈ before, (key == other.1) = false) :
    (accepted settings score (before ++ (key, relevance) :: after)).lookup key =
        some (score (key, relevance)) ↔
      settings.minScore ≤ score (key, relevance) ∧
        ∀ other ∈ before, settings.minScore ≤ score other := by
  induction before with
  | nil =>
    by_cases reaches : settings.minScore ≤ score (key, relevance)
    · simp [accepted_cons_of_le reaches, reaches]
    · simp [accepted_cons_of_not_le reaches, reaches]
  | cons other before ih =>
    rw [List.forall_mem_cons] at distinct
    rw [List.cons_append, List.forall_mem_cons]
    -- A low score in front ends the scan, and another key does not hide this one.
    by_cases reaches : settings.minScore ≤ score other
    · rw [accepted_cons_of_le reaches, List.lookup_cons, distinct.1]
      simpa [reaches] using ih distinct.2
    · simp [accepted_cons_of_not_le reaches, reaches]

/-- An exact duplicate gets the score of identical items exactly when that is high enough, and so is
the score of each neighbor in front of it that is no duplicate. -/
theorem lookup_identical_iff [EquivBEq Key] {refHash : Hash} {hashes : Key → Option Hash}
    (call : OrdinaryCall index pass reference settings neighbors keyOf) (sound : settings.IsSound)
    (answers : ∀ calls, ∀ neighbor ∈ neighbors,
      index.hash calls neighbor.1 = .ok (hashes neighbor.1))
    {before after : List (Key × Number .binary64)} {key : Key} {relevance : Number .binary64}
    (ranked : Ranking.rank neighbors = before ++ (key, relevance) :: after)
    (near : Relevance.isNearZero settings (Relevance.toDistance relevance))
    (copy : isCopy (some refHash) (.ok (hashes key))) :
    ∃ map pass', (build index (some reference) (some refHash) settings).result pass =
        (.ok map, pass') ∧
      (map.byKey.lookup key = some settings.identicalScore ↔
        settings.minScore ≤ settings.identicalScore ∧
          ∀ other ∈ before, isCopy (some refHash) (.ok (hashes other.1)) = false →
            ∃ score, Relevance.formulaScore settings reference.length
                (Relevance.toDistance other.2) = .ok score ∧ settings.minScore ≤ score) := by
  obtain ⟨seen, calls, built⟩ := result_build call sound (some refHash)
    (fun key => .ok (hashes key)) fun neighbor member =>
      .inr ⟨fun calls => answers calls neighbor member, .inl ⟨_, rfl⟩⟩
  have proper : Format.binary64.IsProper := (by decide : 1 ≤ 53)
  have positive : 0 < (reference.length : Int) := by
    exact_mod_cast List.length_pos_of_ne_nil call.features
  have distinct := distinct_rank call.distinct
  have descending := Ranking.pairwise_rank call.numbers
  rw [ranked] at distinct descending
  rw [List.map_append, List.pairwise_append] at distinct
  have inFront := (List.pairwise_append.mp descending).2.2
  have different : ∀ other ∈ before, (key == other.1) = false := fun other member => by
    rw [BEq.comm]
    exact distinct.2.2 _ (List.mem_map_of_mem member) _ List.mem_cons_self
  let score := neighborScore settings reference.length (some refHash) fun key => .ok (hashes key)
  have identical : score (key, relevance) = settings.identicalScore := by
    simp only [score, neighborScore, Relevance.scoreOf, near, copy, Bool.and_self, if_true]
  have found : (accepted settings score (before ++ (key, relevance) :: after)).lookup key =
      some (score (key, relevance)) ↔ settings.minScore ≤ score (key, relevance) ∧
        ∀ other ∈ before, settings.minScore ≤ score other := lookup_accepted_iff different
  rw [identical] at found
  refine ⟨_, _, built, ?_⟩
  rw [acceptedScores, ranked, found]
  refine and_congr_right fun reaches => forall₂_congr fun other member => ?_
  -- Whoever stands in front is nearer still, so it is compared as well.
  have near' := Relevance.isNearZero_of_le proper (inFront other member _ List.mem_cons_self) near
  simp only [Relevance.formulaScore_eq positive call.countable, Except.ok.injEq, exists_eq_left',
    score, neighborScore, Relevance.scoreOf, near', Bool.true_and]
  cases isCopy (some refHash) (.ok (hashes other.1)) with
  | true => simpa using reaches
  | false => simp

/-- The hash of the reference for the copy, and another for every other key. -/
def hashOfCopy (key : Scalar) : Option String :=
  if key = Scalar.text "copy" then some "reference" else some "other"

/-- Settings in which the base score is not accepted. -/
def strictSettings : Settings .binary64 :=
  { Settings.standard .binary64 with minScore := .finite 150 }

theorem isSound_strictSettings : strictSettings.IsSound :=
  { Settings.isSound_standard with minScore := by decide +kernel }

/-- A copy and its twin, which are both as relevant as can be. -/
def copyAndTwin : List (Scalar × Number .binary64) := [(.text "copy", 1), (.text "twin", 1)]

private theorem ordinaryCall_copyAndTwin {neighbors : List (Scalar × Number .binary64)}
    (either : neighbors = copyAndTwin ∨ neighbors = copyAndTwin.reverse) :
    OrdinaryCall (fixedIndex neighbors (fun item : String => some (Scalar.text item))
      fun key => .ok (hashOfCopy key)) ⟨.ofItems ["copy"] 1, none, []⟩ [1, 1] strictSettings
      neighbors fun item => some (Scalar.text item) := by
  refine ordinaryCall_fixedIndex ?_ ?_ (by decide) (by decide +kernel) (by decide)
  all_goals rcases either with rfl | rfl <;> decide +kernel

/-- A copy in front of its twin keeps its score, though the score of the twin is too low. -/
theorem lookup_identical_iff_copyAndTwin :
    ∃ map pass', (build (fixedIndex copyAndTwin (fun item : String => some (Scalar.text item))
        fun key => .ok (hashOfCopy key)) (some [1, 1]) (some "reference") strictSettings).result
          ⟨.ofItems ["copy"] 1, none, []⟩ = (.ok map, pass') ∧
      map.byKey.lookup (Scalar.text "copy") = some (.finite 1000) := by
  have ranked : Ranking.rank copyAndTwin = [] ++ (Scalar.text "copy", 1) :: [(.text "twin", 1)] :=
    Ranking.rank_of_pairwise (by decide +kernel) (by decide +kernel)
  have identical : strictSettings.identicalScore = .finite 1000 := by decide +kernel
  obtain ⟨map, pass', built, agree⟩ := lookup_identical_iff (ordinaryCall_copyAndTwin (.inl rfl))
    isSound_strictSettings (fun _ _ _ => rfl) ranked (by decide +kernel)
    (by decide +kernel : isCopy (some "reference") (.ok (hashOfCopy (.text "copy"))))
  refine ⟨map, pass', built, identical ▸ agree.mpr ⟨by decide +kernel, ?_⟩⟩
  intro other member
  cases member

/-- Behind its twin the copy is lost. So an exact duplicate does not always keep its score. -/
theorem duplicate_can_be_lost :
    ¬ ∀ (index : CaseIndex String Scalar String .binary64) (pass : Pass String Scalar .binary64)
        (reference : FeatureVector .binary64) (settings : Settings .binary64)
        (neighbors : List (Scalar × Number .binary64)) (keyOf : String → Option Scalar)
        (refHash : String) (hashes : Scalar → Option String),
      OrdinaryCall index pass reference settings neighbors keyOf → settings.IsSound →
      (∀ calls, ∀ neighbor ∈ neighbors, index.hash calls neighbor.1 = .ok (hashes neighbor.1)) →
      ∀ neighbor ∈ neighbors, Relevance.isNearZero settings (Relevance.toDistance neighbor.2) →
        isCopy (some refHash) (.ok (hashes neighbor.1)) →
        ∃ map pass', (build index (some reference) (some refHash) settings).result pass =
            (.ok map, pass') ∧
          map.byKey.lookup neighbor.1 = some settings.identicalScore := by
  intro always
  have call := ordinaryCall_copyAndTwin (.inr rfl)
  obtain ⟨map, pass', found, lookup⟩ := always _ _ _ _ _ _ "reference" hashOfCopy call
    isSound_strictSettings (fun _ _ _ => rfl) (Scalar.text "copy", 1) (by simp [copyAndTwin])
    (by decide +kernel) (by decide +kernel)
  obtain ⟨seen, calls, built⟩ := result_build call isSound_strictSettings (some "reference")
    (fun key => .ok (hashOfCopy key)) fun neighbor member => .inr ⟨fun _ => rfl, .inl ⟨_, rfl⟩⟩
  -- The score of the twin is the base score, which is too low, so the scan accepts nothing.
  have nothing : acceptedScores strictSettings [1, 1] (some "reference")
      (fun key => .ok (hashOfCopy key)) copyAndTwin.reverse = [] := by
    rw [acceptedScores, Ranking.rank_of_pairwise (by decide +kernel) (by decide +kernel)]
    exact accepted_cons_of_not_le (by decide +kernel)
  rw [built, nothing] at found
  obtain rfl : _ = map := Except.ok.inj (congrArg Prod.fst found)
  cases lookup

end EarlyExit

end Lookalike.ScoreMap
