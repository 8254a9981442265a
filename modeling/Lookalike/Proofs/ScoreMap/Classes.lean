import Lookalike.Proofs.ScoreMap.Answers

/-!
# Classes of scores

Without rounding a scoring pass gives scores of three classes: the score reserved for identical
items, scores between the least one that is accepted and the base score, and zero. Which class a
position gets is decided in the scan: the first one for exact duplicates that the scan gets to.

## Main definitions

* `ScoreMap.IsMatchScore`, the scores of matched positions

## Main statements

* `ScoreMap.isMatchScore_of_matched`
* `ScoreMap.lookup_eq_identicalScore_iff`
-/

namespace Lookalike.ScoreMap

variable {Item Key Hash : Type}

section Entries

variable {F : Format} [BEq Key] {entries : List (Key × Number F)}

/-- Every value has been put by one of the entries. -/
theorem mem_of_mem_putAll {scores : List (Key × Number F)} {entry : Key × Number F}
    (member : entry ∈ putAll scores entries) :
    entry ∈ scores ∨ ∃ other ∈ entries, other.2 = entry.2 := by
  induction entries generalizing scores with
  | nil => exact .inl member
  | cons first rest ih =>
    rcases ih member with before | ⟨other, behind, same⟩
    · rcases mem_of_mem_putEntry before with earlier | put
      · exact .inl earlier
      · exact .inr ⟨first, List.mem_cons_self, put.symm⟩
    · exact .inr ⟨other, List.mem_cons_of_mem _ behind, same⟩

/-- Entries under distinct keys are put one behind the other. -/
theorem putAll_of_distinct [PartialEquivBEq Key] {scores : List (Key × Number F)}
    (distinct : ((scores ++ entries).map (·.1)).Pairwise fun a b => (a == b) = false) :
    putAll scores entries = scores ++ entries := by
  induction entries generalizing scores with
  | nil => exact (List.append_nil scores).symm
  | cons first rest ih =>
    have new : ∀ entry ∈ scores, (first.1 == entry.1) = false := by
      intro entry member
      rw [BEq.comm]
      rw [List.map_append, List.pairwise_append] at distinct
      exact distinct.2.2 _ (List.mem_map_of_mem member) _ List.mem_cons_self
    have distinct' : ((scores ++ [(first.1, first.2)] ++ rest).map (·.1)).Pairwise
        fun a b => (a == b) = false := by
      simpa using distinct
    change putAll (putEntry first.1 first.2 scores) rest = _
    rw [putEntry_of_forall_ne new, ih distinct', List.append_assoc]
    rfl

end Entries

section Score

variable {settings : Settings .exact} {score : Number .exact}

/-- The score of a matched position: the one of identical items, or one between the least that is
accepted and the base score. -/
inductive IsMatchScore (settings : Settings .exact) : Number .exact → Prop
  | identical (reaches : settings.minScore ≤ settings.identicalScore) :
      IsMatchScore settings settings.identicalScore
  | similar {q : ℚ} (reaches : settings.minScore ≤ .finite q)
      (bounded : .finite q ≤ settings.baseScore) : IsMatchScore settings (.finite q)

namespace IsMatchScore

theorem minScore_le (accepted : IsMatchScore settings score) : settings.minScore ≤ score := by
  cases accepted with
  | identical reaches => exact reaches
  | similar reaches _ => exact reaches

theorem isNaN (accepted : IsMatchScore settings score) : score.isNaN = false :=
  (Number.le_iff_place.mp accepted.minScore_le).2.1

theorem nonneg (sound : settings.IsSound) (accepted : IsMatchScore settings score) : 0 ≤ score :=
  Number.le_trans sound.minScore accepted.minScore_le

/-- Any other score than that of identical items is a rational up to the base score. -/
theorem exists_eq_finite (accepted : IsMatchScore settings score)
    (other : score ≠ settings.identicalScore) :
    ∃ q : ℚ, score = .finite q ∧ .finite q ≤ settings.baseScore := by
  cases accepted with
  | identical _ => contradiction
  | @similar q _ bounded => exact ⟨q, rfl, bounded⟩

end IsMatchScore

theorem ne_identicalScore_of_le_baseScore (sound : settings.IsSound)
    (bounded : score ≤ settings.baseScore) : score ≠ settings.identicalScore := by
  rintro rfl
  exact sound.exceeds bounded

variable [BEq Hash] {features : Int}

/-- A neighbor has the score of identical items when it is near enough and a copy, and otherwise a
score that is at most the base score. -/
theorem neighborScore_cases (sound : settings.IsSound) (positive : 0 < features)
    (referenceHash : Option Hash) (hashOf : Key → Except Fault (Option Hash))
    (neighbor : Key × Number .exact) :
    (Relevance.isNearZero settings (Relevance.toDistance neighbor.2) ∧
        isCopy referenceHash (hashOf neighbor.1)) ∧
      neighborScore settings features referenceHash hashOf neighbor = settings.identicalScore ∨
    ¬ (Relevance.isNearZero settings (Relevance.toDistance neighbor.2) ∧
        isCopy referenceHash (hashOf neighbor.1)) ∧
      ∃ q : ℚ, neighborScore settings features referenceHash hashOf neighbor = .finite q ∧
        .finite q ≤ settings.baseScore := by
  have proper : Format.exact.IsProper := trivial
  have counted : Number.ofInt .exact features = .finite features := rfl
  rw [neighborScore, Relevance.scoreOf, ← Bool.and_eq_true]
  split_ifs with identical
  · exact .inl ⟨identical, rfl⟩
  · rw [counted]
    exact .inr ⟨identical, Relevance.exists_distanceScore_eq sound (by exact_mod_cast positive)
      (Relevance.isAmount_toDistance proper neighbor.2)⟩

variable {referenceHash : Option Hash} {hashOf : Key → Except Fault (Option Hash)}
  {neighbor : Key × Number .exact}

/-- Only exact duplicates have the score of identical items. -/
theorem neighborScore_eq_identicalScore_iff (sound : settings.IsSound) (positive : 0 < features) :
    neighborScore settings features referenceHash hashOf neighbor = settings.identicalScore ↔
      Relevance.isNearZero settings (Relevance.toDistance neighbor.2) ∧
        isCopy referenceHash (hashOf neighbor.1) := by
  rcases neighborScore_cases sound positive referenceHash hashOf neighbor with
    ⟨identical, same⟩ | ⟨other, q, same, bounded⟩
  · exact iff_of_true same identical
  · exact iff_of_false (same ▸ ne_identicalScore_of_le_baseScore sound bounded) other

/-- What is accepted has the score of a match. -/
theorem isMatchScore_neighborScore (sound : settings.IsSound) (positive : 0 < features)
    (reaches : ¬ neighborScore settings features referenceHash hashOf neighbor <
      settings.minScore) :
    IsMatchScore settings (neighborScore settings features referenceHash hashOf neighbor) := by
  have least := (Number.le_iff_place.mp sound.minScore).2.1
  rcases neighborScore_cases sound positive referenceHash hashOf neighbor with
    ⟨-, same⟩ | ⟨-, q, same, bounded⟩
  · rw [same] at reaches ⊢
    exact .identical ((Number.not_lt (Number.lt_iff_place.mp sound.identicalScore).2.1 least).mp
      reaches)
  · rw [same] at reaches ⊢
    exact .similar ((Number.not_lt rfl least).mp reaches) bounded

end Score

section Scanned

variable [BEq Hash] {index : CaseIndex Item Key Hash .exact} {features : Int}
  {referenceHash : Option Hash} {settings : Settings .exact} {calls : List (IndexCall Item Key)}
  {neighbors : List (Key × Number .exact)} {kept seen : ℕ}

/-- A scan that has got to a copy near enough has accepted it, if the score of identical items is
accepted at all. -/
theorem Scanned.lt_kept (sound : settings.IsSound) (positive : 0 < features)
    (scanned : Scanned index features referenceHash settings calls neighbors kept seen)
    (reaches : settings.minScore ≤ settings.identicalScore) {i : ℕ} (examined : i < seen)
    {neighbor : Key × Number .exact} (found : neighbors[i]? = some neighbor)
    (near : Relevance.isNearZero settings (Relevance.toDistance neighbor.2))
    (copy : isCopy referenceHash (index.hash
      (callsBefore settings referenceHash calls neighbors i) neighbor.1)) : i < kept := by
  rcases scanned.stops with ⟨rfl, -⟩ | ⟨rfl, last, found_last, stops⟩
  · exact examined
  · by_contra beyond
    obtain rfl : i = kept := by omega
    obtain rfl : neighbor = last := Option.some.inj (found.symm.trans found_last)
    -- The scan stops neither at the score of a copy nor at a hash that is told.
    rcases stops with below | ⟨kind, detail, failed⟩
    · rw [(neighborScore_eq_identicalScore_iff sound positive).mpr ⟨near, copy⟩] at below
      exact Number.not_lt_of_le reaches below
    · rw [failed] at copy
      cases referenceHash <;> cases copy

theorem Scanned.kept_le
    (scanned : Scanned index features referenceHash settings calls neighbors kept seen) :
    kept ≤ seen := by
  rcases scanned.stops with ⟨all, -⟩ | ⟨more, -⟩ <;> omega

/-- What a scan accepts is one of the first neighbors with the score of its turn. -/
theorem exists_of_mem_take_scored {entry : Key × Number .exact}
    (member : entry ∈ (scored index features referenceHash settings calls neighbors).take kept) :
    ∃ i < kept, ∃ neighbor, neighbors[i]? = some neighbor ∧ entry.1 = neighbor.1 ∧
      entry.2 = neighborScore settings features referenceHash
        (index.hash (callsBefore settings referenceHash calls neighbors i)) neighbor := by
  obtain ⟨i, found⟩ := List.mem_iff_getElem?.mp member
  rw [List.getElem?_take, Option.ite_none_right_eq_some, scored, List.getElem?_mapIdx,
    Option.map_eq_some_iff] at found
  obtain ⟨within, neighbor, found, rfl⟩ := found
  exact ⟨i, within, neighbor, found, rfl, rfl⟩

theorem Scanned.isMatchScore (sound : settings.IsSound) (positive : 0 < features)
    (scanned : Scanned index features referenceHash settings calls neighbors kept seen)
    {entry : Key × Number .exact}
    (member : entry ∈ (scored index features referenceHash settings calls neighbors).take kept) :
    IsMatchScore settings entry.2 := by
  have reaches := scanned.reaches entry member
  obtain ⟨i, -, neighbor, -, -, same⟩ := exists_of_mem_take_scored member
  rw [same] at reaches ⊢
  exact isMatchScore_neighborScore sound positive reaches

variable [BEq Key]

/-- A matched position holds the score of a match. -/
theorem isMatchScore_of_matched (sound : settings.IsSound) (positive : 0 < features)
    (scanned : Scanned index features referenceHash settings calls neighbors kept seen)
    {keys : List (Option Key)} {matched : List Position} {results : ResultSet Item .exact}
    (projected : Projected (putAll []
      ((scored index features referenceHash settings calls neighbors).take kept)) keys matched
      results) {k : ℕ} (member : (k : Position) ∈ matched) :
    ∃ score, results.scores[k]? = some score ∧ IsMatchScore settings score := by
  obtain ⟨key, score, -, lookup, held⟩ := projected.mem_matched_iff.mp member
  obtain ⟨entry, listed, -, rfl⟩ := exists_of_lookup_eq_some lookup
  rcases mem_of_mem_putAll listed with none | ⟨other, accepted, same⟩
  · cases none
  · exact ⟨_, held, same ▸ scanned.isMatchScore sound positive accepted⟩

/-- With distinct keys, a key has the score of identical items exactly when the scan has got to an
equal key that is near enough and a copy, and that score is accepted. -/
theorem lookup_eq_identicalScore_iff [EquivBEq Key] (sound : settings.IsSound)
    (positive : 0 < features)
    (scanned : Scanned index features referenceHash settings calls neighbors kept seen)
    (distinct : (neighbors.map (·.1)).Pairwise fun a b => (a == b) = false) {key : Key} :
    (putAll [] ((scored index features referenceHash settings calls neighbors).take kept)).lookup
        key = some settings.identicalScore ↔
      settings.minScore ≤ settings.identicalScore ∧ ∃ i < seen, ∃ neighbor,
        neighbors[i]? = some neighbor ∧ key == neighbor.1 ∧
        Relevance.isNearZero settings (Relevance.toDistance neighbor.2) ∧
        isCopy referenceHash (index.hash
          (callsBefore settings referenceHash calls neighbors i) neighbor.1) := by
  have keys : (scored index features referenceHash settings calls neighbors).map (·.1) =
      neighbors.map (·.1) := by
    apply List.ext_getElem?
    intro k
    simp [scored, List.getElem?_mapIdx, Function.comp_def]
  have distinct' : (((scored index features referenceHash settings calls neighbors).take kept).map
      (·.1)).Pairwise fun a b => (a == b) = false := by
    rw [List.map_take, keys]
    exact distinct.sublist (List.take_sublist _ _)
  have put : putAll [] ((scored index features referenceHash settings calls neighbors).take kept) =
      (scored index features referenceHash settings calls neighbors).take kept :=
    putAll_of_distinct distinct'
  rw [put]
  constructor
  · intro found
    obtain ⟨entry, member, equal, same⟩ := exists_of_lookup_eq_some found
    have accepted := scanned.isMatchScore sound positive member
    obtain ⟨i, within, neighbor, found, key_eq, score_eq⟩ := exists_of_mem_take_scored member
    obtain ⟨near, copy⟩ := (neighborScore_eq_identicalScore_iff sound positive).mp
      (score_eq.symm.trans same)
    exact ⟨same ▸ accepted.minScore_le, i, within.trans_le scanned.kept_le, neighbor, found,
      key_eq ▸ equal, near, copy⟩
  · rintro ⟨reaches, i, examined, neighbor, found, equal, near, copy⟩
    have within := scanned.lt_kept sound positive reaches examined found near copy
    have identical : neighborScore settings features referenceHash
        (index.hash (callsBefore settings referenceHash calls neighbors i)) neighbor =
          settings.identicalScore :=
      (neighborScore_eq_identicalScore_iff sound positive).mpr ⟨near, copy⟩
    have member : (neighbor.1, settings.identicalScore) ∈
        (scored index features referenceHash settings calls neighbors).take kept := by
      rw [List.mem_iff_getElem?]
      refine ⟨i, ?_⟩
      rw [List.getElem?_take_of_lt within, scored, List.getElem?_mapIdx, found, ← identical]
      rfl
    exact lookup_of_beq (List.pairwise_map.mp distinct') member equal

end Scanned

end Lookalike.ScoreMap
