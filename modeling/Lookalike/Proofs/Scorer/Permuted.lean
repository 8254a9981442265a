import Lookalike.Proofs.Scorer.Named

/-!
# Permuted result sets

The order of a result set makes no difference to a call with a stateless index, as long as the
scoring pass gives no two matched positions one score. Both calls come to the same scores by key, so
their matched positions have the same items, and distinct scores leave one way to rank these. From
there on the two lists are alike but for the places of what they list: the same vectors are fetched,
the tails are regrouped alike or not at all, and the same scores are spread along them.

## Main statements

* `Scorer.regroups_of_alike`
* `Scorer.Returns.alike_chosen`, `Scorer.Returns.alike_top`
* `Scorer.IsRegrouping.getElem?_scores_of_alike`
* `Scorer.score_of_permuted`
-/

namespace Lookalike.Scorer

open TopList (Alike)

variable {Item Key Hash : Type} [BEq Key] {F : Format} {index : CaseIndex Item Key Hash F}
  {items items' : List Item} {chosen chosen' top top' : TopList}

/-- Of two like lists, neither or both are regrouped. -/
theorem regroups_of_alike (stateless : index.Stateless) {pass pass' : Pass Item Key F}
    (tells : Tells index pass.results items) (tells' : Tells index pass'.results items')
    (fits : chosen.Fits pass.results) (fits' : chosen'.Fits pass'.results)
    (alike : Alike (itemIn items) (itemIn items') chosen chosen')
    (regroups : Regroups index pass chosen) : Regroups index pass' chosen' := by
  obtain ⟨long, vectors, fetches⟩ := regroups
  obtain ⟨vectorAt, known, fetched⟩ := fetches.exists_vectorsOf stateless tells fits
  have needed := map_neededFor alike
  rw [← needed] at known
  refine ⟨alike.tailSize.symm ▸ long, exists_fetchesAll stateless tells' fits' known ?_⟩
  intro position member
  have listed : itemIn items' position ∈ (neededFor chosen).map (itemIn items) :=
    needed ▸ List.mem_map_of_mem member
  obtain ⟨other, member', same⟩ := List.mem_map.mp listed
  obtain ⟨vector, at_item, -⟩ := fetched other member'
  rw [← same, at_item]
  rfl

section Scores

variable {scores : List (Key × Number F)} {keyOf : Item → Option Key}
  {matched matched' : List Position} {primary primary' final final' : ResultSet Item F}

open ScoreMap (Projected)

/-- Matched positions of one item have one score. -/
theorem score_eq_of_itemIn (projected : Projected scores (items.map keyOf) matched primary)
    (projected' : Projected scores (items'.map keyOf) matched' primary') {p p' : Position}
    (member : p ∈ matched) (member' : p' ∈ matched') (same : itemIn items' p' = itemIn items p)
    {score score' : Number F} (known : primary.scoreAt p = .ok score)
    (known' : primary'.scoreAt p' = .ok score') : score' = score := by
  rw [← ResultSet.held_of_scoreAt known, ← ResultSet.held_of_scoreAt known',
    projected.held_eq member, projected'.held_eq member', same]

/-- Regroupings of like lists into like lists give each item the same score. -/
theorem IsRegrouping.getElem?_scores_of_alike
    (projected : Projected scores (items.map keyOf) matched primary)
    (projected' : Projected scores (items'.map keyOf) matched' primary')
    (distinct : (matched.map primary.held).Nodup) (distinct' : (matched'.map primary'.held).Nodup)
    (listed : ∀ p ∈ chosen.tail, p ∈ matched) (listed' : ∀ p ∈ chosen'.tail, p ∈ matched')
    (alike : Alike (itemIn items) (itemIn items') chosen chosen')
    (regrouped : Alike (itemIn items) (itemIn items') top top')
    (regrouping : IsRegrouping primary chosen top final)
    (regrouping' : IsRegrouping primary' chosen' top' final') {i j : ℕ}
    (same : items'[j]? = items[i]?) : final'.scores[j]? = final.scores[i]? := by
  refine regrouping.getElem?_scores_of_names regrouping' alike regrouped ?_ same ?_ ?_ ?_
  · exact fun p member p' member' item score score' known known' => score_eq_of_itemIn projected
      projected' (listed p member) (listed' p' member') item known known'
  · exact fun p member item => projected.eq_of_itemIn distinct (listed p member) item
  · exact fun p' member item => projected'.eq_of_itemIn distinct' (listed' p' member) item
  · rw [projected.getElem?_scores_eq, projected'.getElem?_scores_eq, same]

end Scores

section Calls

variable [TableKey Key] [BEq Hash] {scorer : Scorer Hash F} {reference : FeatureVector F}
  {map map' : ScoreMap Key F} {pass pass' primary primary' final final' : Pass Item Key F}
  (stateless : index.Stateless) (sound : scorer.settings.IsSound)
  (returned : Returns scorer index pass reference map primary chosen top final)

include stateless sound returned

variable (permuted : pass'.results.items.Perm pass.results.items)
  (returned' : Returns scorer index pass' reference map' primary' chosen' top' final')
  (distinct : (map.matched.map primary.results.held).Nodup)

include permuted returned'

/-- The matched positions of a permuted result set have the same items. -/
theorem Returns.map_matched_perm :
    (map'.matched.map (itemIn pass'.results.items)).Perm
      (map.matched.map (itemIn pass.results.items)) := by
  rw [(returned.projected stateless.steady sound).map_itemIn,
    (returned.projected_of_returns stateless.steady sound returned').map_itemIn]
  exact (permuted.filter _).map some

omit permuted in
theorem Returns.held_eq_scoreOf {position : Position} (matched : position ∈ map'.matched) :
    primary'.results.held position =
      ScoreMap.scoreOf map.byKey index.keyOf (itemIn pass'.results.items position) := by
  rw [(returned.projected_of_returns stateless.steady sound returned').held_eq matched]

include distinct

/-- The matched positions of a permuted result set have distinct scores, too. -/
theorem Returns.nodup_held : (map'.matched.map primary'.results.held).Nodup := by
  have same := TopList.map_score_perm
    (fun _ matched => (returned.projected stateless.steady sound).held_eq matched)
    (fun _ matched => returned.held_eq_scoreOf stateless sound returned' matched)
    (returned.map_matched_perm stateless sound permuted returned')
  exact same.nodup_iff.mpr distinct

/-- Permuted result sets have like lists. -/
theorem Returns.alike_chosen :
    Alike (itemIn pass.results.items) (itemIn pass'.results.items) chosen chosen' := by
  rw [returned.chosen_eq.1, returned'.chosen_eq.1]
  exact TopList.alike_ofScores
    (fun _ matched => (returned.projected stateless.steady sound).held_eq matched)
    (fun _ matched => returned.held_eq_scoreOf stateless sound returned' matched)
    (returned.map_matched_perm stateless sound permuted returned')
    (fun _ matched => returned.isPlain_held stateless.steady sound matched) distinct

/-- A reordering is made for both result sets or for neither. -/
theorem Returns.regroups_iff :
    Regroups index { primary' with top := some chosen' } chosen' ↔
      Regroups index { primary with top := some chosen } chosen := by
  have alike := returned.alike_chosen stateless sound permuted returned' distinct
  have tells := returned.tells stateless.steady sound
  have tells' := returned'.tells stateless.steady sound
  have fits := returned.chosen_eq.2
  have fits' := returned'.chosen_eq.2
  exact ⟨regroups_of_alike stateless tells' tells fits' fits alike.symm,
    regroups_of_alike stateless tells tells' fits fits' alike⟩

variable (run : (scorer.score index).result pass = (.ok (some top), final))
  (run' : (scorer.score index).result pass' = (.ok (some top'), final'))

include run run'

/-- Permuted result sets have like lists in the end. -/
theorem Returns.alike_top :
    Alike (itemIn pass.results.items) (itemIn pass'.results.items) top top' := by
  have alike := returned.alike_chosen stateless sound permuted returned' distinct
  rcases returned.ended_both returned'
    (returned.regroups_iff stateless sound permuted returned' distinct) with
    ⟨⟨rfl, -⟩, rfl, -⟩ | ⟨⟨regroups, regrouping⟩, regroups', regrouping'⟩
  · exact alike
  · have tells := returned.tells stateless.steady sound
    have tells' := returned'.tells stateless.steady sound
    -- The vectors of the items that need one are known alike in both calls.
    obtain ⟨vectors, fetches⟩ := regroups.2
    obtain ⟨vectorAt, known, -⟩ := fetches.exists_vectorsOf stateless tells returned.chosen_eq.2
    have known' := known
    rw [← map_neededFor alike] at known'
    refine ⟨?_, ?_⟩
    · rw [returned.map_positions_eq stateless run tells regroups known,
        returned'.map_positions_eq stateless run' tells' regroups' known',
        alike.positions, alike.tailStart]
    · rw [regrouping.tailStart, regrouping'.tailStart, alike.tailStart]

/-- An item has the same score at the end of both calls. -/
theorem Returns.getElem?_scores_eq {i j : ℕ}
    (same : pass'.results.items[j]? = pass.results.items[i]?) :
    final'.results.scores[j]? = final.results.scores[i]? := by
  have projected := returned.projected stateless.steady sound
  have projected' := returned.projected_of_returns stateless.steady sound returned'
  rcases returned.ended_both returned'
    (returned.regroups_iff stateless sound permuted returned' distinct) with
    ⟨⟨-, kept⟩, -, kept'⟩ | ⟨⟨-, regrouping⟩, -, regrouping'⟩
  · rw [kept, kept', projected.getElem?_scores_eq, projected'.getElem?_scores_eq, same]
  · exact regrouping.getElem?_scores_of_alike projected projected' distinct
      (returned.nodup_held stateless sound permuted returned' distinct)
      (fun _ member => returned.mem_matched_of_mem (List.mem_of_mem_drop member))
      (fun _ member => returned'.mem_matched_of_mem (List.mem_of_mem_drop member))
      (returned.alike_chosen stateless sound permuted returned' distinct)
      (returned.alike_top stateless sound permuted returned' distinct run run')
      regrouping' same

end Calls

section Permuted

variable [TableKey Key] [BEq Hash] {scorer : Scorer Hash F} {reference : FeatureVector F}
  {map : ScoreMap Key F} {pass pass' primary final final' : Pass Item Key F}

/-- With an index whose answers are functions of the questions, the order of the result set makes no
difference where the scoring pass gives no two matched positions one score. If the calls for a
result set and a permutation of it both return a list, each item has the same score at the end of
both, the same candidates are listed in the same order and split at one place, and the reordering is
skipped for a short tail, is abandoned, or is made in both calls. -/
theorem score_of_permuted (stateless : index.Stateless) (sound : scorer.settings.IsSound)
    (permuted : pass'.results.items.Perm pass.results.items)
    (known : scorer.reference = some reference)
    (built : (ScoreMap.build index (some reference) scorer.referenceHash scorer.settings).result
      pass = (.ok map, primary))
    (distinct : (map.matched.map primary.results.held).Nodup)
    (run : (scorer.score index).result pass = (.ok (some top), final))
    (run' : (scorer.score index).result pass' = (.ok (some top'), final')) :
    (final.results.items = pass.results.items ∧ final'.results.items = pass'.results.items ∧
      ∀ (i j : ℕ) (item : Item), pass.results.items[i]? = some item →
        pass'.results.items[j]? = some item → ∃ score, final.results.scoreAt (i : Position) =
          .ok score ∧ final'.results.scoreAt (j : Position) = .ok score) ∧
    (∃ listed, candidates final = .ok listed ∧ candidates final' = .ok listed) ∧
    top'.tailStart = top.tailStart ∧
    ∃ map' primary' chosen chosen',
      Returns scorer index pass reference map primary chosen top final ∧
      Returns scorer index pass' reference map' primary' chosen' top' final' ∧
      (2 < chosen'.tailSize ↔ 2 < chosen.tailSize) ∧
      (Regroups index { primary' with top := some chosen' } chosen' ↔
        Regroups index { primary with top := some chosen } chosen) := by
  obtain ⟨chosen, returned⟩ := exists_returns_of_built known built run
  obtain ⟨map', primary', chosen', returned'⟩ := exists_returns_of_known known run'
  have alike := returned.alike_top stateless sound permuted returned' distinct run run'
  have scores : ∀ i j : ℕ, pass'.results.items[j]? = pass.results.items[i]? →
      final'.results.scores[j]? = final.results.scores[i]? := fun i j same =>
    returned.getElem?_scores_eq stateless sound permuted returned' distinct run run' same
  have items := returned.items_eq.2
  have items' := returned'.items_eq.2
  refine ⟨⟨items, items', fun i j item found found' => ?_⟩, ?_, alike.tailStart,
    map', primary', chosen, chosen', returned, returned', ?_, ?_⟩
  · have within : i < final.results.scores.length := by
      rw [ResultSet.length_scores, ← ResultSet.length_items, items]
      exact (List.getElem?_eq_some_iff.mp found).1
    have score := List.getElem?_eq_getElem within
    refine ⟨final.results.scores[i], ResultSet.scoreAt_eq_ok_iff.mpr score,
      ResultSet.scoreAt_eq_ok_iff.mpr ?_⟩
    rw [scores i j (found'.trans found.symm), score]
  · obtain ⟨-, listed⟩ := returned.result_organize run
    obtain ⟨-, listed'⟩ := returned'.result_organize run'
    rw [← items, ← items'] at alike scores
    refine exists_candidates_of_alike alike listed listed' (fun _ => returned.within_final) ?_
    intro p member p' member' item
    obtain ⟨i, -, rfl⟩ := returned.within_final member
    obtain ⟨j, -, rfl⟩ := returned'.within_final member'
    exact ResultSet.candidateAt_congr item (scores i j item)
  · rw [(returned.alike_chosen stateless sound permuted returned' distinct).tailSize]
  · exact returned.regroups_iff stateless sound permuted returned' distinct

end Permuted

section Images

/-- The images in another order, before they are scored. -/
def shuffledImages : Pass String Scalar .exact where
  results := .ofItems ["", "right", "copy", "far", "left", "near"] 1

theorem stateless_imageIndex : imageIndex.Stateless where
  nearest _ _ _ _ := rfl
  key _ _ _ := rfl
  hash _ _ _ := rfl
  vectors _ _ _ _ _ := rfl

theorem result_score_shuffledImages :
    ((imageScorer.score imageIndex).result shuffledImages).1 =
      .ok (some ⟨[2, 5, 1, 4], 1⟩) := by
  simp only [score, ScoreMap.build, ScoreMap.buildCounting, ScoreMap.queryNeighbors,
    TopList.select, organize, fetchFeatures, Ranking.rank_eq_insertionSort,
    List.mergeSort_eq_insertionSort]
  decide +kernel

/-- The images are listed alike, though they are found in another order, and the one on the right
has one score in the end. -/
theorem score_of_permuted_images :
    let final' := ((imageScorer.score imageIndex).result shuffledImages).2
    (∃ listed, candidates regroupedImages = .ok listed ∧ candidates final' = .ok listed) ∧
      ∃ score, regroupedImages.results.scoreAt 3 = .ok score ∧
        final'.results.scoreAt 1 = .ok score := by
  intro final'
  have permuted : shuffledImages.results.items.Perm unscoredImages.results.items := by decide
  have distinct : (imageMap.matched.map scoredImages.results.held).Nodup := by decide
  obtain ⟨⟨-, -, scores⟩, listed, -⟩ := score_of_permuted stateless_imageIndex isSound_imageScorer
    permuted rfl result_build_images distinct result_score_images
    (Prod.ext result_score_shuffledImages rfl)
  exact ⟨listed, scores 3 1 "right" rfl rfl⟩

end Images

end Lookalike.Scorer
