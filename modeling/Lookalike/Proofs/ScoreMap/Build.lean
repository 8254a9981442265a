import Lookalike.Proofs.ScoreMap.Projection

/-!
# A scoring pass as a whole

In an ordinary call nothing that is asked of the index fails. The pass then accepts the first of the
ranked neighbors, up to one whose score is too low, and writes their scores to the result set.

## Main definitions

* `ScoreMap.OrdinaryCall`, what is expected of the index and the result set
* `ScoreMap.fixedIndex`, an index whose answers are given

## Main statements

* `ScoreMap.result_build`
-/

namespace Lookalike.ScoreMap

variable {Item Key Hash : Type} {F : Format} [BEq Key] [TableKey Key]

/-- A call in which the index finds neighbors under distinct keys and knows the key of every item,
if it has one. All relevances are numbers, all keys can be looked up, the features can be counted,
and there is something to score. -/
structure OrdinaryCall (index : CaseIndex Item Key Hash F) (pass : Pass Item Key F)
    (reference : FeatureVector F) (settings : Settings F) (neighbors : List (Key × Number F))
    (keyOf : Item → Option Key) : Prop where
  found : index.nearest pass.calls reference settings.maxResults = .ok neighbors
  distinct : neighbors.Pairwise fun a b => (a.1 == b.1) = false
  numbers : ∀ neighbor ∈ neighbors, neighbor.2.isNaN = false
  hashable : ∀ neighbor ∈ neighbors, TableKey.isKey neighbor.1
  keys : ∀ calls, ∀ item ∈ pass.results.items, index.key calls item = .ok (keyOf item)
  hashableKeys : ∀ item ∈ pass.results.items, ∀ key, keyOf item = some key → TableKey.isKey key
  features : reference ≠ []
  countable : (Number.ofInt F reference.length).isFinite
  results : pass.results.size ≠ 0

/-- An index whose answers are given. -/
def fixedIndex (neighbors : List (Key × Number F))
    (keyOf : Item → Option Key) (hashOf : Key → Except Fault (Option Hash)) :
    CaseIndex Item Key Hash F where
  nearest _ _ _ := .ok neighbors
  vectors _ _ := .ok []
  key _ item := .ok (keyOf item)
  hash _ key := hashOf key

/-- A call to an index with given answers is an ordinary one. -/
theorem ordinaryCall_fixedIndex {neighbors : List (Scalar × Number .binary64)}
    {keyOf : Item → Option Scalar} {hashOf : Scalar → Except Fault (Option Hash)}
    {results : ResultSet Item .binary64} {reference : FeatureVector .binary64}
    {settings : Settings .binary64}
    (distinct : neighbors.Pairwise fun a b => (a.1 == b.1) = false)
    (numbers : ∀ neighbor ∈ neighbors, neighbor.2.isNaN = false) (features : reference ≠ [])
    (countable : (Number.ofInt .binary64 reference.length).isFinite) (some : results.size ≠ 0) :
    OrdinaryCall (fixedIndex neighbors keyOf hashOf) ⟨results, none, []⟩ reference settings
      neighbors keyOf where
  found := rfl
  distinct := distinct
  numbers := numbers
  hashable _ _ := rfl
  keys _ _ _ := rfl
  hashableKeys _ _ _ _ := rfl
  features := features
  countable := countable
  results := some

variable [BEq Hash] {index : CaseIndex Item Key Hash F} {pass : Pass Item Key F}
  {reference : FeatureVector F} {settings : Settings F} {neighbors : List (Key × Number F)}
  {keyOf : Item → Option Key}

/-- The scores that an ordinary call accepts. -/
def acceptedScores (settings : Settings F) (reference : FeatureVector F)
    (referenceHash : Option Hash) (hashOf : Key → Except Fault (Option Hash))
    (neighbors : List (Key × Number F)) : List (Key × Number F) :=
  accepted settings (neighborScore settings reference.length referenceHash hashOf)
    (Ranking.rank neighbors)

omit [TableKey Key] [BEq Hash] in
/-- Ranking keeps keys distinct. -/
theorem distinct_rank [PartialEquivBEq Key]
    (distinct : neighbors.Pairwise fun a b => (a.1 == b.1) = false) :
    ((Ranking.rank neighbors).map (·.1)).Pairwise fun a b => (a == b) = false := by
  rw [List.pairwise_map]
  refine ((Ranking.rank_perm neighbors).pairwise_iff ?_).mpr distinct
  intro a b different
  rw [BEq.comm]
  exact different

omit [BEq Key] [TableKey Key] [BEq Hash] in
/-- The neighbors that the index finds are ranked. -/
theorem result_queryNeighbors
    (found : index.nearest pass.calls reference settings.maxResults = .ok neighbors) :
    (queryNeighbors index reference settings).result pass =
      (.ok (Ranking.rank neighbors),
        { pass with calls := .nearest settings.maxResults :: pass.calls }) := by
  have asked : (index.askNearest reference settings.maxResults).result pass =
      (.ok neighbors, { pass with calls := .nearest settings.maxResults :: pass.calls }) := by
    rw [CaseIndex.askNearest, CaseIndex.result_ask, found]
  rw [queryNeighbors, Attempt.result_bind_ok (Attempt.result_outcome _ _), asked]
  rfl

/-- An ordinary call succeeds, accepts scores and writes them to the result set. -/
theorem result_build [PartialEquivBEq Key]
    (call : OrdinaryCall index pass reference settings neighbors keyOf) (sound : settings.IsSound)
    (referenceHash : Option Hash) (hashOf : Key → Except Fault (Option Hash))
    (answered : ∀ neighbor ∈ neighbors,
      referenceHash = none ∨ Answered index neighbor.1 (hashOf neighbor.1)) :
    let scores := acceptedScores settings reference referenceHash hashOf neighbors
    ∃ seen calls, (build index (some reference) referenceHash settings).result pass =
      (.ok ⟨scores, matchedFrom scores keyOf 0 pass.results.items, seen⟩,
        { pass with
          results := ⟨pass.results.candidates.map (rescored scores keyOf)⟩
          calls }) := by
  intro scores
  have positive : 0 < reference.length := List.length_pos_of_ne_nil call.features
  have ranked : ∀ {neighbor}, neighbor ∈ Ranking.rank neighbors → neighbor ∈ neighbors :=
    fun member => (Ranking.rank_perm neighbors).mem_iff.mp member
  -- The state in which the scan starts: only the neighbors have been asked for.
  let asked : Pass Item Key F := { pass with calls := .nearest settings.maxResults :: pass.calls }
  have queried := result_queryNeighbors call.found
  obtain ⟨seen, calls, scanned⟩ : ∃ seen calls, (scan index reference.length referenceHash settings
      (Ranking.rank neighbors)).result asked = (.ok (scores, seen), { pass with calls }) :=
    result_scanFrom (by omega) call.countable (Number.le_iff_place.mp sound.minScore).2.1
      (fun neighbor member => answered neighbor (ranked member))
      (fun neighbor _ => Relevance.isNaN_scoreOf sound _ _ _)
      (fun neighbor member => call.hashable neighbor (ranked member))
      (distinct_rank call.distinct) 0 asked
  have mapped : (pass.results.candidates.toList.map (rescored scores keyOf)).toArray =
      pass.results.candidates.map (rescored scores keyOf) :=
    Array.toList_inj.mp Array.toList_map.symm
  obtain ⟨calls', projected⟩ : ∃ calls', (project index scores).result { pass with calls } =
      (.ok (matchedFrom scores keyOf 0 pass.results.items),
        { pass with
          results := ⟨pass.results.candidates.map (rescored scores keyOf)⟩
          calls := calls' }) := by
    rw [project, Attempt.result_bind_ok (Attempt.result_get _), ← mapped]
    exact result_projectFrom [] { pass with calls }
      (fun calls candidate member => call.keys calls _ (List.mem_map_of_mem member))
      (fun candidate member => call.hashableKeys _ (List.mem_map_of_mem member)) rfl
  have busy : (reference.length == 0 || pass.results.size == 0) = false := by
    simp [call.features, call.results]
  refine ⟨seen, calls', ?_⟩
  -- Query, scan and projection follow one another, each in the state of the one before.
  change (buildCounting index reference.length reference referenceHash settings).result pass = _
  rw [buildCounting, Attempt.result_bind_ok (Attempt.result_get pass)]
  simp only [busy, Bool.false_eq_true, if_false]
  rw [Attempt.result_bind_ok queried, Attempt.result_bind_ok scanned,
    Attempt.result_bind_ok projected]
  rfl

end Lookalike.ScoreMap
