import Lookalike.Proofs.Relevance
import Lookalike.Proofs.Settings.Kept

/-!
# Bounds of scores

The extremes of settings and relevances meet in one formula: an infinite distance with a small
weight, the distance zero with an infinite weight, whose product is no number, and quotients and
products too great for the format. Whatever the settings are built from and whatever the relevance
is, the score of a distance is a number between zero and the base score, and it does not fall as the
relevance grows.

## Main statements

* `Relevance.distanceScore_le_baseScore`
* `Relevance.displayScore_bounds`
-/

namespace Lookalike

variable {F : Format}

theorem Number.zero_le_atLeastZero (x : Number F) : 0 ≤ x.atLeastZero := by
  unfold atLeastZero
  split_ifs with positive
  · exact Number.le_of_lt positive
  · exact Number.le_refl rfl

namespace Relevance

variable {settings : Settings F} {count distance relevance : Number F}

/-- The score of a distance does not exceed that of distance zero, the base score. -/
theorem distanceScore_le_baseScore (proper : F.IsProper) (sound : settings.IsSound)
    (kept : settings.baseScore.Kept) {c : ℚ} (positive : 0 < c) (amount : distance.IsAmount) :
    distanceScore settings (.finite c) distance ≤ settings.baseScore := by
  rcases Number.eq_posInf_or_finite_of_pos sound.distanceWeight with
    infinite | ⟨weight, weighs, finite⟩
  · rw [distanceScore_of_posInf sound infinite positive amount]
    exact Number.le_of_lt sound.baseScore
  · obtain ⟨base, above, baseScore⟩ := sound.exists_baseScore_eq
    rw [baseScore] at kept
    have nearest := distanceScore_zero weighs positive above.le finite baseScore kept
    rw [baseScore, ← nearest]
    exact distanceScore_antitone proper sound positive Number.isAmount_zero amount amount.nonneg

theorem scoreOf_false (settings : Settings F) (count relevance : Number F) :
    scoreOf settings count relevance false =
      distanceScore settings count (toDistance relevance) := by
  rw [scoreOf, Bool.and_false]
  rfl

theorem scoreOf_true (settings : Settings F) (count relevance : Number F) :
    scoreOf settings count relevance true =
      if toDistance relevance < settings.identicalEpsilon then settings.identicalScore
      else distanceScore settings count (toDistance relevance) := by
  rw [scoreOf, Bool.and_true, isNearZero]
  exact if_congr decide_eq_true_iff rfl rfl

/-- Only the score of identical items exceeds the base score. -/
theorem baseScore_lt_scoreOf_iff (sound : settings.IsSound)
    (bounded : distanceScore settings count (toDistance relevance) ≤ settings.baseScore)
    (isCopy : Bool) :
    settings.baseScore < scoreOf settings count relevance isCopy ↔
      isCopy = true ∧ toDistance relevance < settings.identicalEpsilon := by
  cases isCopy with
  | false =>
    rw [scoreOf_false]
    exact iff_of_false (Number.not_lt_of_le bounded) fun copy => Bool.false_ne_true copy.1
  | true =>
    rw [scoreOf_true]
    split_ifs with near
    · exact iff_of_true sound.baseScore_lt_identicalScore ⟨rfl, near⟩
    · exact iff_of_false (Number.not_lt_of_le bounded) fun copy => near copy.2

/-- Scores keep their bounds, whatever the settings are built from and whatever the relevance is. An
item that is not known as a duplicate has the score of its distance, a number between zero and the
base score, which does not fall as the relevance grows and the distance falls. A duplicate has the
score of identical items where it is near enough, and only this exceeds the base score. -/
theorem displayScore_bounds {given : List (String × Datum)} {settings : Settings .binary64}
    (built : Settings.ofFields .binary64 given = .sound settings) {features : Int}
    (positive : 0 < features) (finite : (Number.ofInt .binary64 features).isFinite) :
    let convert (relevance : Number .binary64) (isCopy : Bool) :=
      displayScore settings features relevance (.ok isCopy : Except Fault Bool)
    (∀ relevance, ∃ plain : Number .binary64,
      convert relevance false = .ok plain ∧ plain.isNaN = false ∧
      0 ≤ plain ∧ plain ≤ settings.baseScore ∧
      convert relevance true = .ok (if toDistance relevance < settings.identicalEpsilon
        then settings.identicalScore else plain)) ∧
    (∀ relevance isCopy, ∃ score, convert relevance isCopy = .ok score ∧
      (settings.baseScore < score ↔
        isCopy = true ∧ toDistance relevance < settings.identicalEpsilon)) ∧
    (∀ relevance relevance', relevance ≤ relevance' →
      toDistance relevance' ≤ toDistance relevance ∧
      ∃ score score', convert relevance false = .ok score ∧
        convert relevance' false = .ok score' ∧ score ≤ score') := by
  have proper : Format.binary64.IsProper := (by decide : 1 ≤ 53)
  have sound := Settings.isSound_of_ofFields built
  have kept := (Settings.isKept_of_ofFields built).baseScore
  obtain ⟨c, atLeast, counted⟩ := exists_ofInt_eq positive finite
  have above : 0 < c := zero_lt_one.trans_le atLeast
  intro convert
  have converted (relevance : Number .binary64) (isCopy : Bool) :
      convert relevance isCopy = .ok (scoreOf settings (.finite c) relevance isCopy) :=
    counted ▸ displayScore_eq positive finite relevance isCopy
  have bounded (relevance : Number .binary64) :
      distanceScore settings (.finite c) (toDistance relevance) ≤ settings.baseScore :=
    distanceScore_le_baseScore proper sound kept above (isAmount_toDistance proper relevance)
  refine ⟨fun relevance => ?bounds, fun relevance isCopy => ?exceeds,
    fun relevance relevance' le => ?rises⟩
  case bounds =>
    refine ⟨distanceScore settings (.finite c) (toDistance relevance), ?_,
      Number.isNaN_atLeastZero _, Number.zero_le_atLeastZero _, bounded relevance, ?_⟩
    · rw [converted, scoreOf_false]
    · rw [converted, scoreOf_true]
  case exceeds =>
    exact ⟨_, converted relevance isCopy, baseScore_lt_scoreOf_iff sound (bounded relevance) isCopy⟩
  case rises =>
    refine ⟨toDistance_antitone proper le, _, _, converted relevance false,
      converted relevance' false, ?_⟩
    rw [scoreOf_false, scoreOf_false]
    exact distanceScore_toDistance_mono proper sound above le

/-- Settings in which distances weigh infinitely much and every item at a finite distance is near
enough for a comparison. -/
def infiniteSettings : Settings .binary64 where
  distanceWeight := .posInf
  baseScore := .finite 100
  identicalScore := .posInf
  identicalEpsilon := .posInf
  minScore := .posInf
  maxResults := 100000
  maxTop := 2000
  rangeCheck := 100

/-- At distance zero the product with an infinite weight is no number, and the score is one all the
same. A duplicate has an infinite score. -/
theorem displayScore_bounds_infiniteSettings :
    ∃ plain : Number .binary64,
      displayScore infiniteSettings 3 1 (.ok false : Except Fault Bool) = .ok plain ∧
      plain.isNaN = false ∧ 0 ≤ plain ∧ plain ≤ .finite 100 ∧
      displayScore infiniteSettings 3 1 (.ok true : Except Fault Bool) = .ok .posInf := by
  have built : Settings.ofFields .binary64
      [("dist_to_score_mult", .scalar (.real .posInf)),
        ("identical_score", .scalar (.real .posInf)),
        ("identical_epsilon", .scalar (.text "inf")),
        ("min_score", .scalar (.text "Infinity"))] = .sound infiniteSettings := by
    decide +kernel
  have near : toDistance (1 : Number .binary64) < infiniteSettings.identicalEpsilon := by
    decide +kernel
  have countable : (Number.ofInt .binary64 3).isFinite := by decide +kernel
  obtain ⟨bounds, -, -⟩ := displayScore_bounds built three_pos countable
  obtain ⟨plain, converted, number, least, most, copied⟩ := bounds 1
  rw [if_pos near] at copied
  exact ⟨plain, converted, number, least, most, copied⟩

end Relevance

end Lookalike
