import Lookalike.Proofs.Scorer.Classes

/-!
# Higher score means earlier

Without rounding the scores at the end of a call fall along the top list, and no position outside
the list has a score above one in it, whether the list has been regrouped or not. The scores that
are spread along a regrouped tail stay above what was cut off behind it and below what stands in
front of it, so the list is what a selection by the new scores would make, as long as no two scores
of the scoring pass but those of identical items were equal.

## Main definitions

* `Scorer.cutOff`, the matched positions that a list has no room for
* `Scorer.DistinctScores`, that only identical items share a score
* `Scorer.FallsEvenly`, that the scores of a tail are an arithmetic sequence

## Main statements

* `Scorer.Returns.pairwise_held_final`, that scores fall along the list and what was cut off
* `Scorer.Returns.pairwise_before_final`, that the order is the one by score and place
* `Scorer.Returns.select_final`, that a selection by the last scores gives the list again
* `Scorer.higher_is_earlier`
-/

namespace Lookalike.Scorer

/-- A list whose middle is exchanged is ordered, if the new middle is ordered and stands right
between the two ends, and if what was in order among the ends still is. -/
theorem pairwise_of_exchanged {α : Type} {r R : α → α → Prop} {front middle middle' back : List α}
    (old : (front ++ (middle ++ back)).Pairwise r)
    (ends : ∀ p ∈ front ++ back, ∀ q ∈ front ++ back, r p q → R p q)
    (above : ∀ p ∈ front, ∀ q ∈ middle', R p q) (within : middle'.Pairwise R)
    (below : ∀ p ∈ middle', ∀ q ∈ back, R p q) : (front ++ (middle' ++ back)).Pairwise R := by
  obtain ⟨front_old, rest_old, across⟩ := List.pairwise_append.mp old
  obtain ⟨-, back_old, -⟩ := List.pairwise_append.mp rest_old
  refine List.pairwise_append.mpr ⟨?_, List.pairwise_append.mpr ⟨within, ?_, below⟩, ?_⟩
  · exact front_old.imp_of_mem fun member member' =>
      ends _ (List.mem_append_left _ member) _ (List.mem_append_left _ member')
  · exact back_old.imp_of_mem fun member member' =>
      ends _ (List.mem_append_right _ member) _ (List.mem_append_right _ member')
  · intro p member q member'
    rcases List.mem_append.mp member' with inside | behind
    · exact above p member q inside
    · exact ends p (List.mem_append_left _ member) q (List.mem_append_right _ behind)
        (across p member q (List.mem_append_right _ behind))

/-- What takes the place of the first part of a list, as long as that is, is the first part. -/
theorem take_append_drop_of_length {α : Type} {front items : List α} {n : ℕ}
    (long : front.length = (items.take n).length) : (front ++ items.drop n).take n = front := by
  rw [List.length_take] at long
  rcases le_total items.length n with short | more
  · rw [List.drop_eq_nil_of_le short, List.append_nil, List.take_of_length_le (by omega)]
  · rw [List.take_left' (by omega)]

variable {Item Key Hash : Type} [BEq Key] [TableKey Key] [BEq Hash] {scorer : Scorer Hash .exact}
  {index : CaseIndex Item Key Hash .exact} {pass primary final : Pass Item Key .exact}
  {reference : FeatureVector .exact} {map : ScoreMap Key .exact} {chosen top : TopList}

/-- The matched positions that a list has no room for, by descending score. -/
def cutOff (settings : Settings .exact) (results : ResultSet Item .exact)
    (matched : List Position) : List Position :=
  (TopList.ranked results.held matched).drop settings.maxTop

section Returned

variable (returned : Returns scorer index pass reference map primary chosen top final)

include returned

/-- The list and what it has no room for make up the ranking of the scoring pass. -/
theorem Returns.ranked_eq :
    chosen.anchors ++ (chosen.tail ++ cutOff scorer.settings primary.results map.matched) =
      TopList.ranked primary.results.held map.matched := by
  rw [← List.append_assoc, TopList.anchors_append_tail, returned.chosen_eq.1]
  exact List.take_append_drop _ _

/-- The anchors stand in front of what is returned of the tail. -/
theorem Returns.positions_append (rest : List Position) :
    top.positions ++ rest = chosen.anchors ++ (top.tail ++ rest) := by
  rw [← TopList.anchors_append_tail top, returned.parts.2.1, List.append_assoc]

/-- What is ranked is matched. -/
theorem Returns.mem_matched {position : Position}
    (member : position ∈ chosen.anchors ++ (chosen.tail ++
      cutOff scorer.settings primary.results map.matched)) : position ∈ map.matched := by
  rw [returned.ranked_eq] at member
  exact (TopList.ranked_perm _ _).mem_iff.mp member

/-- The list that is returned and what it has no room for are the matched positions. -/
theorem Returns.perm_matched :
    (top.positions ++ cutOff scorer.settings primary.results map.matched).Perm map.matched := by
  refine List.Perm.trans ?_ (TopList.ranked_perm primary.results.held map.matched)
  rw [returned.positions_append, ← returned.ranked_eq]
  exact (returned.parts.2.2.append_right _).append_left _

theorem Returns.length_positions : top.positions.length =
    ((TopList.ranked primary.results.held map.matched).take scorer.settings.maxTop).length := by
  have same := congrArg (fun list : TopList => list.positions.length) returned.chosen_eq.1
  refine Eq.trans ?_ same
  rw [← TopList.anchors_append_tail top, ← TopList.anchors_append_tail chosen,
    returned.parts.2.1, List.length_append, List.length_append, returned.parts.2.2.length_eq]

/-- The scores of matched positions can be read. -/
theorem Returns.scoreAt_of_matched {position : Position} (matched : position ∈ map.matched) :
    primary.results.scoreAt position = .ok (primary.results.held position) ∧
      final.results.scoreAt position = .ok (final.results.held position) := by
  obtain ⟨k, within, rfl⟩ := returned.exists_eq_natCast matched
  obtain ⟨primary_size, final_size⟩ := returned.size_eq
  exact ⟨ResultSet.scoreAt_eq_held (primary_size ▸ within),
    ResultSet.scoreAt_eq_held (final_size ▸ within)⟩

/-- Outside the tail scores stay as they are. -/
theorem Returns.held_eq_of_ends {position : Position}
    (member : position ∈ chosen.anchors ++ cutOff scorer.settings primary.results map.matched) :
    final.results.held position = primary.results.held position := by
  obtain ⟨_, projected⟩ := returned.exists_projected
  have distinct : (chosen.anchors ++ (chosen.tail ++
      cutOff scorer.settings primary.results map.matched)).Nodup := by
    rw [returned.ranked_eq, (TopList.ranked_perm _ _).nodup_iff]
    exact projected.pairwise_matched.imp fun below => ne_of_lt below
  rw [(List.perm_append_comm_assoc _ _ _).nodup_iff] at distinct
  have matched : position ∈ map.matched := returned.mem_matched <|
    (List.perm_append_comm_assoc _ _ _).mem_iff.mpr (List.mem_append_right _ member)
  obtain ⟨k, within, rfl⟩ := returned.exists_eq_natCast matched
  exact returned.held_eq_of_notMem within fun inside =>
    List.disjoint_of_nodup_append distinct inside member

end Returned

section Falling

variable (sound : scorer.settings.IsSound)
  (returned : Returns scorer index pass reference map primary chosen top final)

include sound returned

theorem Returns.pairwise_before :
    (chosen.anchors ++ (chosen.tail ++
      cutOff scorer.settings primary.results map.matched)).Pairwise
        (TopList.Before primary.results.held) := by
  obtain ⟨_, projected⟩ := returned.exists_projected
  rw [returned.ranked_eq]
  exact TopList.pairwise_before_ranked
    (fun _ matched => (returned.isMatchScore sound matched).isNaN) projected.pairwise_matched

/-- No score of the tail is that of identical items. -/
theorem Returns.held_ne_of_mem_tail {position : Position} (member : position ∈ chosen.tail) :
    primary.results.held position ≠ scorer.settings.identicalScore := by
  obtain ⟨q, held, -, bounded⟩ := returned.exists_held_of_tail sound member
  exact held ▸ ScoreMap.ne_identicalScore_of_le_baseScore sound bounded

/-- Scores fall along the tail. -/
theorem Returns.pairwise_held_tail :
    top.tail.Pairwise fun p q => final.results.held q ≤ final.results.held p := by
  rcases returned.ended with ⟨-, rfl, same⟩ | ⟨⟨long, -⟩, regrouping⟩
  · rw [same]
    exact (returned.pairwise_held sound).sublist (List.drop_sublist _ _)
  · obtain ⟨_, _, _, _, M, m, ordered, -, -, -, spread⟩ :=
      returned.exists_bounds sound long regrouping
    have length := returned.chosen_eq.2.length_tail
    refine List.pairwise_iff_getElem.mpr fun i j within within' before => ?_
    rw [spread i _ (List.getElem?_eq_getElem within), spread j _ (List.getElem?_eq_getElem within'),
      Number.finite_le_finite]
    exact Chain.evenly_le ordered (by omega) before.le

/-- Scores fall along the list and what it has no room for. -/
theorem Returns.pairwise_held_final :
    (top.positions ++ cutOff scorer.settings primary.results map.matched).Pairwise fun p q =>
      final.results.held q ≤ final.results.held p := by
  have old := returned.pairwise_before sound
  obtain ⟨-, rest, across⟩ := List.pairwise_append.mp old
  obtain ⟨-, -, across'⟩ := List.pairwise_append.mp rest
  rw [returned.positions_append]
  refine pairwise_of_exchanged old ?_ ?_ (returned.pairwise_held_tail sound) ?_
  · intro p member q member' before
    rw [returned.held_eq_of_ends member, returned.held_eq_of_ends member']
    exact before.1
  · intro p member q member'
    obtain ⟨_, held, first, inside, _, -, highest, -⟩ := returned.exists_between sound member'
    rw [returned.held_eq_of_ends (List.mem_append_left _ member), held]
    exact Number.le_trans highest (across p member first (List.mem_append_left _ inside)).1
  · intro p member q member'
    obtain ⟨_, held, _, -, last, inside, -, lowest⟩ := returned.exists_between sound member
    rw [returned.held_eq_of_ends (List.mem_append_right _ member'), held]
    exact Number.le_trans (across' last inside q member').1 lowest

/-- A matched position ends with a score that is accepted. -/
theorem Returns.minScore_le_held {position : Position} (matched : position ∈ map.matched) :
    scorer.settings.minScore ≤ final.results.held position := by
  obtain ⟨k, within, rfl⟩ := returned.exists_eq_natCast matched
  rcases returned.held_cases sound within with same | ⟨-, q, held, reaches, -⟩
  · rw [same]
    exact (returned.isMatchScore sound matched).minScore_le
  · rwa [held]

/-- No position outside the list has a score above one in it. -/
theorem Returns.held_le_of_notMem {k : ℕ} (within : k < pass.results.size)
    (outside : (k : Position) ∉ top.positions) {listed : Position}
    (member : listed ∈ top.positions) :
    final.results.held (k : Position) ≤ final.results.held listed := by
  have falling := returned.pairwise_held_final sound
  have kept := returned.perm_matched
  by_cases matched : (k : Position) ∈ map.matched
  · have behind := (List.mem_append.mp (kept.mem_iff.mpr matched)).resolve_left outside
    exact (List.pairwise_append.mp falling).2.2 listed member k behind
  · have tail : (k : Position) ∉ chosen.tail := fun inside =>
      matched (returned.mem_matched_of_mem (List.mem_of_mem_drop inside))
    have accepted : listed ∈ map.matched :=
      kept.mem_iff.mp (List.mem_append_left _ member)
    rw [returned.held_eq_of_notMem within tail, returned.held_eq_zero within matched]
    exact Number.le_trans sound.minScore (returned.minScore_le_held sound accepted)

/-- A list with a tail is split where a selection by its last scores would split it. -/
theorem Returns.tailStart_eq (long : 2 < chosen.tailSize) :
    top.tailStart = (TopList.anchorCount final.results.held scorer.settings.identicalScore
      top.positions : ℕ) := by
  obtain ⟨chosen_eq, fits⟩ := returned.chosen_eq
  obtain ⟨tailStart, anchors, -⟩ := returned.parts
  have anchors_eq := TopList.anchors_ofScores primary.results.held scorer.settings map.matched
  rw [← chosen_eq] at anchors_eq
  have start : chosen.tailStart = (chosen.anchors.length : ℕ) := by
    rw [anchors_eq, List.length_take, min_eq_left (TopList.anchorCount_le _), chosen_eq]
    rfl
  have several : chosen.anchors ≠ [] := by
    intro none
    have split := fits.one_le_tailStart long
    rw [start, none] at split
    exact absurd split (by decide)
  have identical : ∀ position ∈ chosen.anchors.tail,
      ¬ final.results.held position < scorer.settings.identicalScore := by
    intro position member
    rw [returned.held_eq_of_ends (List.mem_append_left _ (List.mem_of_mem_tail member))]
    rw [anchors_eq] at member
    exact TopList.not_lt_of_mem_tail_take_anchorCount member
  have similar : ∀ position ∈ top.tail.head?,
      final.results.held position < scorer.settings.identicalScore := by
    intro position head
    obtain ⟨_, held, first, inside, _, -, highest, -⟩ :=
      returned.exists_between sound (List.mem_of_head? head)
    obtain ⟨_, first_held, -, bounded⟩ := returned.exists_held_of_tail sound inside
    rw [held]
    exact Number.lt_of_le_of_lt (Number.le_trans highest (first_held ▸ bounded))
      sound.baseScore_lt_identicalScore
  rw [tailStart, start, ← TopList.anchors_append_tail top, anchors,
    TopList.anchorCount_append several identical similar]

end Falling

/-- No two positions but those of identical items have equal scores. -/
def DistinctScores (settings : Settings .exact) (results : ResultSet Item .exact)
    (matched : List Position) : Prop :=
  ∀ p ∈ matched, ∀ q ∈ matched, ∀ score, results.scoreAt p = .ok score →
    results.scoreAt q = .ok score → score ≠ settings.identicalScore → p = q

section Distinct

variable (sound : scorer.settings.IsSound)
  (returned : Returns scorer index pass reference map primary chosen top final)
  (distinct : DistinctScores scorer.settings primary.results map.matched)

include sound returned distinct

/-- Where scores are distinct they fall strictly towards all but those of identical items. -/
theorem Returns.lt_of_before {p q : Position} (matched : p ∈ map.matched)
    (matched' : q ∈ map.matched) (before : TopList.Before primary.results.held p q)
    (other : primary.results.held q ≠ scorer.settings.identicalScore) :
    primary.results.held q < primary.results.held p := by
  obtain ⟨r, lower, bounded⟩ := (returned.isMatchScore sound matched').exists_eq_finite other
  by_cases identical : primary.results.held p = scorer.settings.identicalScore
  · rw [identical, lower]
    exact Number.lt_of_le_of_lt bounded sound.baseScore_lt_identicalScore
  obtain ⟨r', higher, -⟩ := (returned.isMatchScore sound matched).exists_eq_finite identical
  rw [TopList.Before, lower, higher, Number.finite_le_finite, Number.finite_le_finite] at before
  rw [lower, higher, Number.finite_lt_finite]
  refine before.1.lt_of_ne fun same => ?_
  have one : q = p := distinct q matched' p matched _ (returned.scoreAt_of_matched matched').1
    (by rw [(returned.scoreAt_of_matched matched).1, lower, higher, same]) other
  exact absurd (before.2 same.ge) (one ▸ lt_irrefl _)

theorem Returns.pairwise_lt :
    (chosen.anchors ++ (chosen.tail ++
      cutOff scorer.settings primary.results map.matched)).Pairwise fun p q =>
        primary.results.held q ≠ scorer.settings.identicalScore →
          primary.results.held q < primary.results.held p :=
  (returned.pairwise_before sound).imp_of_mem fun member member' before =>
    returned.lt_of_before sound distinct (returned.mem_matched member)
      (returned.mem_matched member') before

variable (long : 2 < chosen.tailSize)
  (regrouping : IsRegrouping primary.results chosen top final.results)

include long regrouping

/-- Where scores are distinct they fall strictly along a regrouped tail. -/
theorem Returns.pairwise_lt_tail :
    top.tail.Pairwise fun p q => final.results.held q < final.results.held p := by
  obtain ⟨_, _, _, _, M, m, -, -, -, between, spread⟩ :=
    returned.exists_bounds sound long regrouping
  have length := returned.chosen_eq.2.length_tail
  have several : 2 ≤ chosen.tail.length := by omega
  -- The first two scores of the tail differ, so its highest score is not its lowest.
  have apart : m < M := by
    obtain ⟨-, rest, -⟩ := List.pairwise_append.mp (returned.pairwise_lt sound distinct)
    obtain ⟨falling, -, -⟩ := List.pairwise_append.mp rest
    have strict := List.pairwise_iff_getElem.mp falling 0 1 (by omega) (by omega) Nat.zero_lt_one
    have second_mem : chosen.tail[1] ∈ chosen.tail := List.getElem_mem _
    obtain ⟨q, first_held, -, highest⟩ := between chosen.tail[0] (List.getElem_mem _)
    obtain ⟨r, second_held, lowest, -⟩ := between chosen.tail[1] second_mem
    have lt := strict (returned.held_ne_of_mem_tail sound second_mem)
    rw [first_held, second_held, Number.finite_lt_finite] at lt
    exact lowest.trans_lt (lt.trans_le highest)
  refine List.pairwise_iff_getElem.mpr fun i j within within' before => ?_
  rw [spread i _ (List.getElem?_eq_getElem within), spread j _ (List.getElem?_eq_getElem within'),
    Number.finite_lt_finite]
  exact Chain.evenly_lt apart several before

/-- Where scores are distinct, a regrouped list is in the order of its new scores. -/
theorem Returns.pairwise_before_final :
    (top.positions ++ cutOff scorer.settings primary.results map.matched).Pairwise
      (TopList.Before final.results.held) := by
  have old := (returned.pairwise_before sound).and (returned.pairwise_lt sound distinct)
  obtain ⟨-, rest, across⟩ := List.pairwise_append.mp old
  obtain ⟨-, -, across'⟩ := List.pairwise_append.mp rest
  rw [returned.positions_append]
  refine pairwise_of_exchanged old ?_ ?_ ?_ ?_
  · intro p member q member' before
    rw [TopList.Before, returned.held_eq_of_ends member, returned.held_eq_of_ends member']
    exact before.1
  · intro p member q member'
    obtain ⟨_, held, first, inside, _, -, highest, -⟩ := returned.exists_between sound member'
    have above := (across p member first (List.mem_append_left _ inside)).2
      (returned.held_ne_of_mem_tail sound inside)
    rw [← returned.held_eq_of_ends (List.mem_append_left _ member)] at above
    exact .of_lt (Number.lt_of_le_of_lt (held ▸ highest) above)
  · exact (returned.pairwise_lt_tail sound distinct long regrouping).imp .of_lt
  · intro p member q member'
    obtain ⟨_, held, _, -, last, inside, -, lowest⟩ := returned.exists_between sound member
    obtain ⟨_, last_held, -, bounded⟩ := returned.exists_held_of_tail sound inside
    have behind := across' last inside q member'
    -- What is cut off behind the tail is no identical match either.
    have below := behind.2 <| ScoreMap.ne_identicalScore_of_le_baseScore sound <|
      Number.le_trans behind.1.1 (last_held ▸ bounded)
    rw [← returned.held_eq_of_ends (List.mem_append_right _ member')] at below
    exact .of_lt (Number.lt_of_lt_of_le below (held ▸ lowest))

/-- Where scores are distinct, a regrouped list is the ranking of the new scores. -/
theorem Returns.ranked_final :
    TopList.ranked final.results.held map.matched =
      top.positions ++ cutOff scorer.settings primary.results map.matched := by
  obtain ⟨_, projected⟩ := returned.exists_projected
  refine TopList.ranked_eq_of_pairwise (fun position matched => ?_) projected.pairwise_matched
    returned.perm_matched (returned.pairwise_before_final sound distinct long regrouping)
  exact (Number.le_iff_place.mp (returned.minScore_le_held sound matched)).2.1

/-- Where scores are distinct, a selection by the new scores gives a regrouped list again. -/
theorem Returns.select_final :
    TopList.select final.results scorer.settings map.matched = .ok top := by
  have listed : (TopList.ranked final.results.held map.matched).take scorer.settings.maxTop =
      top.positions := by
    rw [returned.ranked_final sound distinct long regrouping, cutOff]
    exact take_append_drop_of_length returned.length_positions
  rw [TopList.select_eq_ofScores fun _ matched => (returned.scoreAt_of_matched matched).2,
    TopList.ofScores, listed, ← returned.tailStart_eq sound long]

end Distinct

/-- The scores of a regrouped tail are an arithmetic sequence, from the highest score that the tail
had to the lowest one. -/
def FallsEvenly (primary : ResultSet Item .exact) (chosen top : TopList)
    (final : ResultSet Item .exact) : Prop :=
  ∃ M m : ℚ,
    (∃ p ∈ chosen.tail, primary.scoreAt p = .ok (.finite M)) ∧
    (∃ p ∈ chosen.tail, primary.scoreAt p = .ok (.finite m)) ∧
    (∀ p ∈ chosen.tail, ∃ q : ℚ, primary.scoreAt p = .ok (.finite q) ∧ m ≤ q ∧ q ≤ M) ∧
    ∀ (k : ℕ) (p : Position), top.tail[k]? = some p →
      final.scoreAt p = .ok (.finite (M - k * (M - m) / (top.tail.length - 1)))

theorem Returns.fallsEvenly (sound : scorer.settings.IsSound)
    (returned : Returns scorer index pass reference map primary chosen top final)
    (long : 2 < chosen.tailSize)
    (regrouping : IsRegrouping primary.results chosen top final.results) :
    FallsEvenly primary.results chosen top final.results := by
  obtain ⟨first, first_mem, last, last_mem, M, m, -, first_held, last_held, between, spread⟩ :=
    returned.exists_bounds sound long regrouping
  have matched : ∀ position ∈ chosen.tail, position ∈ map.matched := fun _ inside =>
    returned.mem_matched_of_mem (List.mem_of_mem_drop inside)
  refine ⟨M, m, ⟨first, first_mem, ?_⟩, ⟨last, last_mem, ?_⟩, ?_, ?_⟩
  · rw [(returned.scoreAt_of_matched (matched first first_mem)).1, first_held]
  · rw [(returned.scoreAt_of_matched (matched last last_mem)).1, last_held]
  · intro p inside
    obtain ⟨q, held, bounds⟩ := between p inside
    exact ⟨q, held ▸ (returned.scoreAt_of_matched (matched p inside)).1, bounds⟩
  · intro k p found
    have inside := regrouping.tail.mem_iff.mp (List.mem_of_getElem? found)
    rw [(returned.scoreAt_of_matched (matched p inside)).2, spread k p found,
      regrouping.tail.length_eq]
    rfl

/-- Whether a regrouping is made or not, scores fall along the list that a call returns, and no
position outside the list has a score above one in it. A regrouping leaves an arithmetic sequence
of scores along the tail. If no two matched positions but those of identical items had the same
score after the scoring pass, a selection by the last scores gives the list again. -/
theorem higher_is_earlier (sound : scorer.settings.IsSound)
    (run : (scorer.score index).result pass = (.ok (some top), final)) :
    ∃ reference map primary chosen,
      Returns scorer index pass reference map primary chosen top final ∧
      (∃ scores, top.positions.mapM final.results.scoreAt = .ok scores ∧
        scores.Pairwise (fun a b => b ≤ a) ∧
        ∀ k < final.results.size, (k : Position) ∉ top.positions →
          ∃ score, final.results.scoreAt (k : Position) = .ok score ∧
            ∀ listed ∈ scores, score ≤ listed) ∧
      (¬ Regroups index { primary with top := some chosen } chosen →
        top = chosen ∧ final.results = primary.results) ∧
      (Regroups index { primary with top := some chosen } chosen →
        FallsEvenly primary.results chosen top final.results) ∧
      (DistinctScores scorer.settings primary.results map.matched →
        TopList.select final.results scorer.settings map.matched = .ok top) := by
  obtain ⟨reference, map, primary, chosen, returned⟩ := exists_returns run
  have falling := returned.pairwise_held_final sound
  have kept := returned.perm_matched
  refine ⟨reference, map, primary, chosen, returned, ?_, ?_, ?_, ?_⟩
  · refine ⟨_, mapM_eq_ok fun p member => (returned.scoreAt_of_matched
      (kept.mem_iff.mp (List.mem_append_left _ member))).2, ?_, ?_⟩
    · exact List.pairwise_map.mpr (List.pairwise_append.mp falling).1
    · intro k within outside
      refine ⟨_, ResultSet.scoreAt_eq_held within, List.forall_mem_map.mpr fun p member => ?_⟩
      exact returned.held_le_of_notMem sound (returned.size_eq.2 ▸ within) outside member
  · intro idle
    rcases returned.ended with ⟨-, alone⟩ | ⟨regroups, -⟩
    · exact alone
    · exact absurd regroups idle
  · intro regroups
    rcases returned.ended with ⟨idle, -⟩ | ⟨⟨long, -⟩, regrouping⟩
    · exact absurd regroups idle
    · exact returned.fallsEvenly sound long regrouping
  · intro distinct
    rcases returned.ended with ⟨-, rfl, same⟩ | ⟨⟨long, -⟩, regrouping⟩
    · rw [same, returned.selected]
    · exact returned.select_final sound distinct long regrouping

/-- The five images have five scores, and the list of the best four is in the order of its scores
before and after its regrouping. -/
theorem higher_is_earlier_fiveImages :
    DistinctScores imageScorer.settings scoredImages.results imageMap.matched ∧
      TopList.select regroupedImages.results imageScorer.settings imageMap.matched =
        .ok ⟨[0, 1, 3, 2], 1⟩ := by
  have differ : ∀ p ∈ imageMap.matched, ∀ q ∈ imageMap.matched,
      scoredImages.results.held p = scoredImages.results.held q → p = q := by decide
  have distinct : DistinctScores imageScorer.settings scoredImages.results imageMap.matched := by
    intro p member q member' score known known' _
    refine differ p member q member' ?_
    rw [ResultSet.held_of_scoreAt known, ResultSet.held_of_scoreAt known']
  obtain ⟨reference, map, primary, _, returned, -, -, -, again⟩ :=
    higher_is_earlier isSound_imageScorer result_score_images
  obtain rfl : [0] = reference := Option.some.inj returned.known
  cases returned.built.symm.trans result_build_images
  exact ⟨distinct, again distinct⟩

end Lookalike.Scorer
