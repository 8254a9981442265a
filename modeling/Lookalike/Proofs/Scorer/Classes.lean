import Lookalike.Proofs.ScoreMap.Build
import Lookalike.Proofs.ScoreMap.Classes
import Lookalike.Proofs.ScoreMap.Gather
import Lookalike.Proofs.Scorer.Regrouping

/-!
# Classes of scores through a whole call

Without rounding the classes of scores that the scan decides stay apart to the end of a call. The
tail of the top list lies below the score of identical items, since scores fall along the list, and
what is spread along it stays between its lowest and its highest score.

## Main definitions

* `Scorer.DistinctNeighbors`, that the keys of the neighbors are distinct
* `Scorer.FindsCopy`, that a scan has got to a copy under some key

## Main statements

* `Scorer.Returns.exists_held_of_tail`, the scores of a tail
* `Scorer.Returns.exists_bounds`, the scores of a regrouped tail
* `Scorer.Returns.exists_between`, `Scorer.Returns.held_cases`, the scores at the end of a call
* `Scorer.score_classes`
-/

namespace Lookalike.Scorer

variable {Item Key Hash : Type} [BEq Key] [TableKey Key] [BEq Hash]

section Returns

variable {F : Format} {scorer : Scorer Hash F} {index : CaseIndex Item Key Hash F}
  {pass primary final : Pass Item Key F} {reference : FeatureVector F} {map : ScoreMap Key F}
  {chosen top : TopList}

theorem Returns.exists_projected
    (returned : Returns scorer index pass reference map primary chosen top final) :
    ∃ keys, ScoreMap.Projected map.byKey keys map.matched primary.results := by
  obtain ⟨_, _, keys, -, -, -, -, projected⟩ :=
    ScoreMap.build_eq_ok returned.features returned.busy returned.built
  exact ⟨keys, projected⟩

/-- The list is made of the matched positions by the scores of the scoring pass. -/
theorem Returns.chosen_eq
    (returned : Returns scorer index pass reference map primary chosen top final) :
    chosen = TopList.ofScores primary.results.held scorer.settings map.matched ∧
      chosen.Fits primary.results := by
  obtain ⟨keys, projected⟩ := returned.exists_projected
  obtain ⟨selected, fits⟩ := select_of_projected projected scorer.settings
  obtain rfl := Except.ok.inj (returned.selected.symm.trans selected)
  exact ⟨rfl, fits⟩

/-- A regrouping keeps the anchors and what belongs to the tail. -/
theorem Returns.parts
    (returned : Returns scorer index pass reference map primary chosen top final) :
    top.tailStart = chosen.tailStart ∧ top.anchors = chosen.anchors ∧
      top.tail.Perm chosen.tail := by
  rcases returned.ended with ⟨-, rfl, -⟩ | ⟨-, regrouping⟩
  · exact ⟨rfl, rfl, List.Perm.refl _⟩
  · exact ⟨regrouping.tailStart, regrouping.anchors, regrouping.tail⟩

/-- A listed position is matched. -/
theorem Returns.mem_matched_of_mem
    (returned : Returns scorer index pass reference map primary chosen top final)
    {position : Position} (listed : position ∈ chosen.positions) : position ∈ map.matched := by
  rw [returned.chosen_eq.1] at listed
  exact TopList.mem_of_mem_ofScores listed

/-- Scores are written, and items are left as they are. -/
theorem Returns.items_eq
    (returned : Returns scorer index pass reference map primary chosen top final) :
    primary.results.items = pass.results.items ∧ final.results.items = pass.results.items := by
  obtain ⟨_, scanned, _, -, scan, -, items, -⟩ :=
    ScoreMap.build_eq_ok returned.features returned.busy returned.built
  obtain ⟨calls, same⟩ := (ScoreMap.consults_scan index _ scorer.referenceHash scorer.settings
    _).onlyAsks { pass with calls := .nearest scorer.settings.maxResults :: pass.calls }
  rw [scan] at same
  obtain rfl : scanned = { pass with calls } := same
  refine ⟨items, ?_⟩
  rcases returned.ended with ⟨-, -, same⟩ | ⟨-, regrouping⟩
  · rw [same, items]
  · rw [regrouping.items, items]

theorem Returns.size_eq
    (returned : Returns scorer index pass reference map primary chosen top final) :
    primary.results.size = pass.results.size ∧ final.results.size = pass.results.size := by
  simp only [← ResultSet.length_items, returned.items_eq, and_self]

/-- Matched positions are counted from the front. -/
theorem Returns.exists_eq_natCast
    (returned : Returns scorer index pass reference map primary chosen top final)
    {position : Position} (matched : position ∈ map.matched) :
    ∃ k < pass.results.size, position = (k : ℕ) := by
  obtain ⟨_, projected⟩ := returned.exists_projected
  rw [← returned.size_eq.1]
  exact projected.exists_eq_natCast matched

/-- A position that is not matched holds zero after the scoring pass. -/
theorem Returns.held_eq_zero
    (returned : Returns scorer index pass reference map primary chosen top final) {k : ℕ}
    (within : k < pass.results.size) (unmatched : (k : Position) ∉ map.matched) :
    primary.results.held k = 0 := by
  obtain ⟨_, projected⟩ := returned.exists_projected
  exact ResultSet.held_of_scoreAt (ResultSet.scoreAt_eq_ok_iff.mpr
    (projected.getElem?_scores_of_unmatched unmatched (returned.size_eq.1 ▸ within)))

/-- A position outside the tail keeps the score of the scoring pass. -/
theorem Returns.held_eq_of_notMem
    (returned : Returns scorer index pass reference map primary chosen top final) {k : ℕ}
    (within : k < pass.results.size) (outside : (k : Position) ∉ chosen.tail) :
    final.results.held k = primary.results.held k := by
  obtain ⟨primary_size, final_size⟩ := returned.size_eq
  rcases returned.ended with ⟨-, -, same⟩ | ⟨-, regrouping⟩
  · rw [same]
  · have same := regrouping.outside k outside
    have known := ResultSet.scoreAt_eq_held (final_size ▸ within)
    have known' := ResultSet.scoreAt_eq_held (primary_size ▸ within)
    rw [ResultSet.scoreAt_eq_ok_iff] at known known'
    exact Option.some.inj (known.symm.trans (same.trans known'))

/-- A position that is returned is matched. -/
theorem Returns.mem_matched_of_mem_top
    (returned : Returns scorer index pass reference map primary chosen top final)
    {position : Position} (listed : position ∈ top.positions) : position ∈ map.matched := by
  obtain ⟨-, anchors, tail⟩ := returned.parts
  apply returned.mem_matched_of_mem
  rw [← TopList.anchors_append_tail chosen, List.mem_append]
  rw [← TopList.anchors_append_tail top, List.mem_append, anchors, tail.mem_iff] at listed
  exact listed

/-- The positions that are returned lie within the result set. -/
theorem Returns.within_final
    (returned : Returns scorer index pass reference map primary chosen top final)
    {position : Position} (listed : position ∈ top.positions) :
    ∃ k < final.results.size, position = (k : ℕ) := by
  obtain ⟨k, within, rfl⟩ := returned.exists_eq_natCast (returned.mem_matched_of_mem_top listed)
  exact ⟨k, returned.size_eq.2 ▸ within, rfl⟩

/-- A matched position has the score of an entry that the scan has accepted. -/
theorem Returns.exists_entry
    (returned : Returns scorer index pass reference map primary chosen top final)
    {position : Position} (matched : position ∈ map.matched) :
    ∃ entry ∈ map.byKey, primary.results.held position = entry.2 := by
  obtain ⟨keys, projected⟩ := returned.exists_projected
  obtain ⟨k, -, rfl⟩ := projected.exists_eq_natCast matched
  obtain ⟨key, score, -, known, found⟩ := projected.mem_matched_iff.mp matched
  obtain ⟨entry, member, -, rfl⟩ := exists_of_lookup_eq_some known
  exact ⟨entry, member, ResultSet.held_of_scoreAt (ResultSet.scoreAt_eq_ok_iff.mpr found)⟩

end Returns

section Exact

variable {scorer : Scorer Hash .exact} {index : CaseIndex Item Key Hash .exact}
  {pass primary final : Pass Item Key .exact} {reference : FeatureVector .exact}
  {map : ScoreMap Key .exact} {chosen top : TopList}

open ScoreMap (IsMatchScore callsBefore)

/-- The scan and the projection behind a call that returns a top list. -/
theorem Returns.exists_scanned
    (returned : Returns scorer index pass reference map primary chosen top final) :
    let asked := .nearest scorer.settings.maxResults :: pass.calls
    ∃ neighbors kept keys,
      index.nearest pass.calls reference scorer.settings.maxResults = .ok neighbors ∧
      ScoreMap.Scanned index reference.length scorer.referenceHash scorer.settings asked
        (Ranking.rank neighbors) kept map.seen ∧
      map.byKey = ScoreMap.putAll [] ((ScoreMap.scored index reference.length scorer.referenceHash
        scorer.settings asked (Ranking.rank neighbors)).take kept) ∧
      ScoreMap.toldKeys index (callsBefore scorer.settings scorer.referenceHash asked
        (Ranking.rank neighbors) map.seen) pass.results.items = .ok keys ∧
      primary.results.items = pass.results.items ∧
      ScoreMap.Projected map.byKey keys map.matched primary.results :=
  ScoreMap.build_eq_scanned returned.features returned.busy rfl returned.built

/-- A matched position holds the score of a match after the scoring pass. -/
theorem Returns.isMatchScore (sound : scorer.settings.IsSound)
    (returned : Returns scorer index pass reference map primary chosen top final)
    {position : Position} (matched : position ∈ map.matched) :
    IsMatchScore scorer.settings (primary.results.held position) := by
  obtain ⟨neighbors, kept, keys, -, scanned, byKey, -, -, projected⟩ := returned.exists_scanned
  have positive : 0 < (reference.length : Int) := by
    exact_mod_cast List.length_pos_of_ne_nil returned.features
  obtain ⟨k, within, rfl⟩ := projected.exists_eq_natCast matched
  rw [byKey] at projected
  obtain ⟨score, held, accepted⟩ :=
    ScoreMap.isMatchScore_of_matched sound positive scanned projected matched
  rwa [ResultSet.held_of_scoreAt (ResultSet.scoreAt_eq_ok_iff.mpr held)]

/-- Scores fall along the list. -/
theorem Returns.pairwise_held (sound : scorer.settings.IsSound)
    (returned : Returns scorer index pass reference map primary chosen top final) :
    chosen.positions.Pairwise fun p q => primary.results.held q ≤ primary.results.held p := by
  rw [returned.chosen_eq.1]
  exact (TopList.pairwise_ranked fun position matched =>
    (returned.isMatchScore sound matched).isNaN).sublist (List.take_sublist _ _)

/-- The tail lies between the least score that is accepted and the base score. -/
theorem Returns.exists_held_of_tail (sound : scorer.settings.IsSound)
    (returned : Returns scorer index pass reference map primary chosen top final)
    {position : Position} (member : position ∈ chosen.tail) :
    ∃ q : ℚ, primary.results.held position = .finite q ∧
      scorer.settings.minScore ≤ .finite q ∧ .finite q ≤ scorer.settings.baseScore := by
  have descending := returned.pairwise_held sound
  have listed : position ∈ chosen.positions := List.mem_of_mem_drop member
  have tail := TopList.tail_ofScores primary.results.held scorer.settings map.matched
  rw [← returned.chosen_eq.1] at tail
  rw [tail] at member
  have below := TopList.lt_of_mem_drop_anchorCount descending member
  have accepted := returned.isMatchScore sound (returned.mem_matched_of_mem listed)
  obtain ⟨q, held, bounded⟩ := accepted.exists_eq_finite fun same => by
    rw [same] at below
    exact Number.lt_irrefl below
  exact ⟨q, held, held ▸ accepted.minScore_le, bounded⟩

/-- The scores of a regrouped tail are an arithmetic sequence between its first and its last score,
which are the highest and the lowest of the tail. -/
theorem Returns.exists_bounds (sound : scorer.settings.IsSound)
    (returned : Returns scorer index pass reference map primary chosen top final)
    (long : 2 < chosen.tailSize)
    (regrouping : IsRegrouping primary.results chosen top final.results) :
    ∃ first ∈ chosen.tail, ∃ last ∈ chosen.tail, ∃ M m : ℚ, m ≤ M ∧
      primary.results.held first = .finite M ∧ primary.results.held last = .finite m ∧
      (∀ position ∈ chosen.tail, ∃ q : ℚ, primary.results.held position = .finite q ∧
        m ≤ q ∧ q ≤ M) ∧
      ∀ k position, top.tail[k]? = some position → final.results.held position =
        .finite (Chain.evenly M m chosen.tail.length k) := by
  obtain ⟨first, last, highest, lowest, head, high, bottom, low, -, inside⟩ := regrouping.inside
  have first_mem := List.mem_of_head? head
  have last_mem := List.mem_of_getLast? bottom
  have length := returned.chosen_eq.2.length_tail
  have descending : chosen.tail.Pairwise fun p q =>
      primary.results.held q ≤ primary.results.held p :=
    (returned.pairwise_held sound).sublist (List.drop_sublist _ _)
  obtain ⟨M, first_held, -, -⟩ := returned.exists_held_of_tail sound first_mem
  obtain ⟨m, last_held, -, -⟩ := returned.exists_held_of_tail sound last_mem
  have bounds : ∀ position ∈ chosen.tail, ∃ q : ℚ,
      primary.results.held position = .finite q ∧ m ≤ q ∧ q ≤ M := by
    intro position member
    obtain ⟨q, held, -, -⟩ := returned.exists_held_of_tail sound member
    refine ⟨q, held, ?_, ?_⟩
    · have lowest := TopList.le_of_getLast? descending bottom member (last_held ▸ rfl)
      rwa [held, last_held, Number.finite_le_finite] at lowest
    · have highest := TopList.le_of_head? descending head member (first_held ▸ rfl)
      rwa [held, first_held, Number.finite_le_finite] at highest
  obtain ⟨q, held, above, -⟩ := bounds first first_mem
  have ordered : m ≤ M := by
    rw [held, Number.finite.injEq] at first_held
    rwa [first_held] at above
  refine ⟨first, first_mem, last, last_mem, M, m, ordered, first_held, last_held, bounds, ?_⟩
  intro k position found
  rw [ResultSet.held_of_scoreAt (inside k position found),
    ← ResultSet.held_of_scoreAt high, ← ResultSet.held_of_scoreAt low, first_held, last_held]
  exact Chain.evenScore_exact ordered (by omega) k

/-- The scores of a tail end between two of the scores that it had. -/
theorem Returns.exists_between (sound : scorer.settings.IsSound)
    (returned : Returns scorer index pass reference map primary chosen top final)
    {position : Position} (member : position ∈ top.tail) :
    ∃ q : ℚ, final.results.held position = .finite q ∧
      ∃ first ∈ chosen.tail, ∃ last ∈ chosen.tail,
        .finite q ≤ primary.results.held first ∧ primary.results.held last ≤ .finite q := by
  rcases returned.ended with ⟨-, rfl, same⟩ | ⟨⟨long, -⟩, regrouping⟩
  · obtain ⟨q, held, -, -⟩ := returned.exists_held_of_tail sound member
    have within : (.finite q : Number .exact) ≤ .finite q := Number.le_refl rfl
    exact ⟨q, by rw [same, held], position, member, position, member, held ▸ within,
      held ▸ within⟩
  · obtain ⟨first, first_mem, last, last_mem, M, m, ordered, first_held, last_held, -, spread⟩ :=
      returned.exists_bounds sound long regrouping
    obtain ⟨k, found⟩ := List.mem_iff_getElem?.mp member
    have inside : k < chosen.tail.length :=
      regrouping.tail.length_eq ▸ (List.getElem?_eq_some_iff.mp found).1
    have length := returned.chosen_eq.2.length_tail
    obtain ⟨above, below⟩ := Chain.evenly_bounds ordered (by omega) inside
    refine ⟨_, spread k position found, first, first_mem, last, last_mem, ?_, ?_⟩
    · rwa [first_held, Number.finite_le_finite]
    · rwa [last_held, Number.finite_le_finite]

/-- A position keeps the score of the scoring pass, or it belongs to a regrouped tail and its score
stays between the least one that is accepted and the base score. -/
theorem Returns.held_cases (sound : scorer.settings.IsSound)
    (returned : Returns scorer index pass reference map primary chosen top final) {k : ℕ}
    (within : k < pass.results.size) :
    final.results.held k = primary.results.held k ∨
      (k : Position) ∈ chosen.tail ∧ ∃ q : ℚ, final.results.held k = .finite q ∧
        scorer.settings.minScore ≤ .finite q ∧ .finite q ≤ scorer.settings.baseScore := by
  by_cases member : (k : Position) ∈ chosen.tail
  · obtain ⟨q, held, first, first_mem, last, last_mem, highest, lowest⟩ :=
      returned.exists_between sound (returned.parts.2.2.mem_iff.mpr member)
    -- The two scores in between are accepted scores of the tail themselves.
    obtain ⟨_, first_held, -, bounded⟩ := returned.exists_held_of_tail sound first_mem
    obtain ⟨_, last_held, reaches, -⟩ := returned.exists_held_of_tail sound last_mem
    rw [first_held] at highest
    rw [last_held] at lowest
    exact .inr ⟨member, q, held, Number.le_trans reaches lowest, Number.le_trans highest bounded⟩
  · exact .inl (returned.held_eq_of_notMem within member)

/-- The keys of the neighbors that a call asks for are pairwise distinct. -/
def DistinctNeighbors (scorer : Scorer Hash .exact) (index : CaseIndex Item Key Hash .exact)
    (pass : Pass Item Key .exact) : Prop :=
  ∀ reference neighbors, scorer.reference = some reference →
    index.nearest pass.calls reference scorer.settings.maxResults = .ok neighbors →
    neighbors.Pairwise fun a b => (a.1 == b.1) = false

/-- The scan of ranked neighbors has got to a key that is near enough to the reference and whose
content hash is that of the reference. The hash is the one told at the turn of the key. -/
def FindsCopy (scorer : Scorer Hash .exact) (index : CaseIndex Item Key Hash .exact)
    (asked : List (IndexCall Item Key)) (ranked : List (Key × Number .exact)) (seen : ℕ)
    (key : Key) : Prop :=
  ∃ i < seen, ∃ neighbor relevance, ranked[i]? = some (neighbor, relevance) ∧ key == neighbor ∧
    Relevance.toDistance relevance < scorer.settings.identicalEpsilon ∧
    ∃ referenceHash hash, scorer.referenceHash = some referenceHash ∧
      index.hash (callsBefore scorer.settings scorer.referenceHash asked ranked i) neighbor =
        .ok (some hash) ∧
      hash == referenceHash

/-- After the scoring pass a position has the score of identical items exactly when the scan has got
to a copy under its key. -/
theorem Returns.held_eq_identicalScore_iff [EquivBEq Key] (sound : scorer.settings.IsSound)
    (distinct : DistinctNeighbors scorer index pass)
    (returned : Returns scorer index pass reference map primary chosen top final) :
    ∃ neighbors keys,
      index.nearest pass.calls reference scorer.settings.maxResults = .ok neighbors ∧
      ScoreMap.toldKeys index (callsBefore scorer.settings scorer.referenceHash
        (.nearest scorer.settings.maxResults :: pass.calls) (Ranking.rank neighbors) map.seen)
        pass.results.items = .ok keys ∧
      ∀ k < pass.results.size, primary.results.held k = scorer.settings.identicalScore ↔
        scorer.settings.minScore ≤ scorer.settings.identicalScore ∧
        ∃ key, keys[k]? = some (some key) ∧ FindsCopy scorer index
          (.nearest scorer.settings.maxResults :: pass.calls) (Ranking.rank neighbors) map.seen
          key := by
  obtain ⟨neighbors, kept, keys, found, scanned, byKey, told, -, projected⟩ :=
    returned.exists_scanned
  have positive : 0 < (reference.length : Int) := by
    exact_mod_cast List.length_pos_of_ne_nil returned.features
  have different := ScoreMap.distinct_rank (distinct reference neighbors returned.known found)
  refine ⟨neighbors, keys, found, told, fun k within => ?_⟩
  -- The key that is told for the item decides, by the score that the scan has put under it.
  have decides : ∀ key, map.byKey.lookup key = some scorer.settings.identicalScore ↔
      scorer.settings.minScore ≤ scorer.settings.identicalScore ∧ FindsCopy scorer index
        (.nearest scorer.settings.maxResults :: pass.calls) (Ranking.rank neighbors) map.seen
        key := by
    intro key
    rw [byKey, ScoreMap.lookup_eq_identicalScore_iff sound positive scanned different]
    refine and_congr_right fun _ => exists_congr fun i => and_congr_right fun _ => ?_
    simp only [Prod.exists, ScoreMap.isCopy_iff, Relevance.isNearZero, decide_eq_true_eq]
  have inside : k < primary.results.size := returned.size_eq.1 ▸ within
  have known := ResultSet.scoreAt_eq_ok_iff.mp (ResultSet.scoreAt_eq_held inside)
  constructor
  · intro identical
    by_cases matched : (k : Position) ∈ map.matched
    · obtain ⟨key, score, told, lookup, held⟩ := projected.mem_matched_iff.mp matched
      obtain rfl := Option.some.inj (held.symm.trans known)
      obtain ⟨reaches, copy⟩ := (decides key).mp (lookup.trans (congrArg _ identical))
      exact ⟨reaches, key, told, copy⟩
    · rw [returned.held_eq_zero within matched] at identical
      exact absurd (identical ▸ sound.identicalScore) Number.lt_irrefl
  · rintro ⟨reaches, key, told, copy⟩
    have lookup := (decides key).mpr ⟨reaches, copy⟩
    have held := projected.getElem?_scores k
    rw [known, told, Option.map_some, Option.some.injEq] at held
    simpa [ScoreMap.itemScore?, lookup] using held

/-- The classes of scores stay apart through a whole call that returns a top list. Every position
ends with zero, with a score between the least one that is accepted and the base score, or with the
score of identical items. It ends with the last one exactly when the key that is told for its item
is that of a copy that the scan has got to, and that score is accepted; a position that is not
matched ends with zero. What is spread along the tail leaves identical matches alone, makes none and
keeps to the least score. -/
theorem score_classes [EquivBEq Key] (sound : scorer.settings.IsSound)
    (distinct : DistinctNeighbors scorer index pass)
    (run : (scorer.score index).result pass = (.ok (some top), final)) :
    ∃ reference map primary chosen neighbors keys,
      Returns scorer index pass reference map primary chosen top final ∧
      index.nearest pass.calls reference scorer.settings.maxResults = .ok neighbors ∧
      ScoreMap.toldKeys index (callsBefore scorer.settings scorer.referenceHash
        (.nearest scorer.settings.maxResults :: pass.calls) (Ranking.rank neighbors) map.seen)
        pass.results.items = .ok keys ∧
      final.results.size = pass.results.size ∧
      ∀ k < pass.results.size, ∃ score before,
        final.results.scoreAt (k : Position) = .ok score ∧
        primary.results.scoreAt (k : Position) = .ok before ∧
        (score = 0 ∨ scorer.settings.minScore ≤ score ∧ score ≤ scorer.settings.baseScore ∨
          score = scorer.settings.identicalScore) ∧
        (score = scorer.settings.identicalScore ↔
          scorer.settings.minScore ≤ scorer.settings.identicalScore ∧
          ∃ key, keys[k]? = some (some key) ∧ FindsCopy scorer index
            (.nearest scorer.settings.maxResults :: pass.calls) (Ranking.rank neighbors) map.seen
            key) ∧
        ((k : Position) ∉ map.matched → score = 0) ∧
        ((k : Position) ∈ map.matched → scorer.settings.minScore ≤ score) ∧
        (score = scorer.settings.identicalScore ↔ before = scorer.settings.identicalScore) := by
  obtain ⟨reference, map, primary, chosen, returned⟩ := exists_returns run
  obtain ⟨neighbors, keys, found, told, identical_iff⟩ :=
    returned.held_eq_identicalScore_iff sound distinct
  obtain ⟨primary_size, final_size⟩ := returned.size_eq
  refine ⟨reference, map, primary, chosen, neighbors, keys, returned, found, told, final_size, ?_⟩
  intro k within
  refine ⟨_, _, ResultSet.scoreAt_eq_held (final_size ▸ within),
    ResultSet.scoreAt_eq_held (primary_size ▸ within), ?_⟩
  rw [← identical_iff k within]
  rcases returned.held_cases sound within with same | ⟨member, q, held, reaches, bounded⟩
  · rw [same]
    by_cases matched : (k : Position) ∈ map.matched
    · have accepted := returned.isMatchScore sound matched
      refine ⟨?_, Iff.rfl, fun none => absurd matched none, fun _ => accepted.minScore_le, Iff.rfl⟩
      by_cases identical : primary.results.held k = scorer.settings.identicalScore
      · exact .inr (.inr identical)
      · obtain ⟨q, held, bounded⟩ := accepted.exists_eq_finite identical
        exact .inr (.inl ⟨accepted.minScore_le, held ▸ bounded⟩)
    · have zero := returned.held_eq_zero within matched
      exact ⟨.inl zero, Iff.rfl, fun _ => zero, fun member => absurd member matched, Iff.rfl⟩
  · -- A position of the tail is no identical match, neither before nor after.
    obtain ⟨r, before, -, bounded'⟩ := returned.exists_held_of_tail sound member
    have after_ne := ScoreMap.ne_identicalScore_of_le_baseScore sound bounded
    have before_ne := ScoreMap.ne_identicalScore_of_le_baseScore sound bounded'
    have matched := returned.mem_matched_of_mem (List.mem_of_mem_drop member)
    rw [held, before]
    exact ⟨.inr (.inl ⟨reaches, bounded⟩), iff_of_false after_ne before_ne,
      fun none => absurd matched none, fun _ => reaches, iff_of_false after_ne before_ne⟩

end Exact

theorem distinctNeighbors_images :
    DistinctNeighbors imageScorer imageIndex unscoredImages := by
  intro reference neighbors _ found
  cases found
  decide

/-- The five images have different keys, and together with the item without a name they end in the
three classes. -/
theorem score_classes_fiveImages :
    DistinctNeighbors imageScorer imageIndex unscoredImages ∧
      ∀ k < 6, ∃ score, regroupedImages.results.scoreAt (k : ℕ) = .ok score ∧
        (score = 0 ∨ .finite 1 ≤ score ∧ score ≤ .finite 100 ∨ score = .finite 1000) := by
  obtain ⟨_, _, _, _, _, _, -, -, -, -, classes⟩ :=
    score_classes isSound_imageScorer distinctNeighbors_images result_score_images
  refine ⟨distinctNeighbors_images, fun k within => ?_⟩
  obtain ⟨score, _, held, -, known, -⟩ := classes k within
  exact ⟨score, held, known⟩

end Lookalike.Scorer
