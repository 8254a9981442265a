import Mathlib.Data.List.Sort
import Lookalike.Proofs.Scorer.Named

/-!
# Extended result sets

Items that have no score do not get in the way of the others. Where such items are put in between
those of a result set, every position moves to a later one, and nothing else becomes of a call: the
matched positions, their ranking, the questions for features, the vectors, the regrouped tail and
its scores are those of the shorter result set, at the moved positions. Ties are no exception, since
positions move in order.

## Main definitions

* `Position.moved`, where a position goes
* `ScoreMap.Extends`, that items without a score have been put in between

## Main statements

* `ScoreMap.Extends.matched_eq`
* `Scorer.fetchFeatures_moved`
* `Scorer.Returns.alike_moved`, `Scorer.Returns.getElem?_scores_moved`
* `Scorer.score_of_extended`
-/

namespace Lookalike

variable {Item Key Hash : Type} {F : Format}

/-- Where a position goes when what stands at each place goes to another one. -/
def Position.moved (place : ℕ ↪o ℕ) : Position → Position
  | .ofNat k => (place k : ℕ)
  | .negSucc k => .negSucc k

@[simp] theorem Position.moved_natCast (place : ℕ ↪o ℕ) (k : ℕ) :
    Position.moved place (k : Position) = (place k : ℕ) := rfl

/-- Positions keep their order. -/
theorem Position.moved_lt_moved (place : ℕ ↪o ℕ) {p q : Position} (below : p < q) :
    Position.moved place p < Position.moved place q := by
  cases p with
  | ofNat k =>
    cases q with
    | ofNat j => exact Int.ofNat_lt.mpr (place.strictMono (Int.ofNat_lt.mp below))
    | negSucc j =>
      have front : (0 : Int) ≤ Int.ofNat k := Int.natCast_nonneg k
      exact absurd below (Int.not_lt.mpr ((Int.negSucc_lt_zero j).le.trans front))
  | negSucc k =>
    cases q with
    | ofNat j => exact (Int.negSucc_lt_zero k).trans_le (Int.natCast_nonneg _)
    | negSucc j => exact below

theorem Position.moved_le_moved_iff_le (place : ℕ ↪o ℕ) {p q : Position} :
    Position.moved place p ≤ Position.moved place q ↔ p ≤ q :=
  StrictMono.le_iff_le fun _ _ => Position.moved_lt_moved place

theorem Position.moved_injective (place : ℕ ↪o ℕ) : Function.Injective (Position.moved place) :=
  StrictMono.injective fun _ _ => Position.moved_lt_moved place

/-- What stands under keys that move to others is found there. -/
theorem lookup_map {Key' Value : Type} [BEq Key] [LawfulBEq Key] [BEq Key'] [LawfulBEq Key']
    {move : Key → Key'} (injective : Function.Injective move) (entries : List (Key × Value))
    (key : Key) : (entries.map (Prod.map move id)).lookup (move key) = entries.lookup key := by
  induction entries with
  | nil => rfl
  | cons entry rest ih =>
    -- Moved keys are told apart as the keys are.
    have same : (move key == move entry.1) = (key == entry.1) := by
      rw [Bool.eq_iff_iff, beq_iff_eq, beq_iff_eq]
      exact injective.eq_iff
    rw [List.map_cons, List.lookup_cons, List.lookup_cons, ih]
    exact congrArg (fun found => bif found then some entry.2 else rest.lookup key) same

namespace ScoreMap

variable [BEq Key] {scores : List (Key × Number F)} {keyOf : Item → Option Key}
  {place : ℕ ↪o ℕ} {items items' : List Item} {matched matched' : List Position}
  {results results' : ResultSet Item F}

/-- Items without a score have been put in between those of a list: each of the latter stands in the
longer list, in order, and whatever stands elsewhere has no key or a key without a score. There are
such places for every list that has the shorter one as a sublist, see
`List.sublist_iff_exists_orderEmbedding_getElem?_eq`. -/
structure Extends (scores : List (Key × Number F)) (keyOf : Item → Option Key) (place : ℕ ↪o ℕ)
    (items items' : List Item) : Prop where
  kept : ∀ k, items'[place k]? = items[k]?
  unscored : ∀ j item, items'[j]? = some item → (∀ k, place k ≠ j) →
    ∀ key, keyOf item = some key → scores.lookup key = none

namespace Extends

variable (extended : Extends scores keyOf place items items')
  (projected : Projected scores (items.map keyOf) matched results)
  (projected' : Projected scores (items'.map keyOf) matched' results')

include extended

theorem itemIn_moved (k : ℕ) :
    itemIn items' (Position.moved place k) = itemIn items (k : Position) := extended.kept k

include projected projected'

/-- A place keeps its score. -/
theorem getElem?_scores_eq (k : ℕ) : results'.scores[place k]? = results.scores[k]? := by
  rw [projected'.getElem?_scores_eq, projected.getElem?_scores_eq, extended.kept]

/-- What is matched are the same items, at the positions to which they have moved. -/
theorem matched_eq : matched' = matched.map (Position.moved place) := by
  have moved : (matched.map (Position.moved place)).Pairwise (· < ·) :=
    List.pairwise_map.mpr (projected.pairwise_matched.imp fun below =>
      Position.moved_lt_moved place below)
  refine projected'.pairwise_matched.eq_of_mem_iff moved fun position => ?_
  constructor
  · intro member
    obtain ⟨j, -, rfl⟩ := projected'.exists_eq_natCast member
    obtain ⟨key, score, told, known, held⟩ := projected'.mem_matched_iff.mp member
    rw [List.getElem?_map] at told
    obtain ⟨item, found, has⟩ := Option.map_eq_some_iff.mp told
    -- An item that has been put in between has no score.
    obtain ⟨k, rfl⟩ : ∃ k, place k = j := by
      by_contra none
      have unscored := extended.unscored j item found (not_exists.mp none) key has
      rw [known] at unscored
      cases unscored
    rw [extended.getElem?_scores_eq projected projected'] at held
    rw [extended.kept] at found
    refine List.mem_map.mpr ⟨(k : Position), projected.mem_matched_iff.mpr ?_, rfl⟩
    exact ⟨key, score, by rw [List.getElem?_map, found, Option.map_some, has], known, held⟩
  · intro member
    obtain ⟨given, member', rfl⟩ := List.mem_map.mp member
    obtain ⟨k, -, rfl⟩ := projected.exists_eq_natCast member'
    obtain ⟨key, score, told, known, held⟩ := projected.mem_matched_iff.mp member'
    rw [Position.moved_natCast]
    rw [List.getElem?_map, ← extended.kept, ← List.getElem?_map] at told
    rw [← extended.getElem?_scores_eq projected projected'] at held
    exact projected'.mem_matched_iff.mpr ⟨key, score, told, known, held⟩

/-- Matched positions hold the scores that they have brought along. -/
theorem held_moved {position : Position} (member : position ∈ matched) :
    results'.held (Position.moved place position) = results.held position := by
  have member' : Position.moved place position ∈ matched' :=
    extended.matched_eq projected projected' ▸ List.mem_map_of_mem member
  obtain ⟨k, -, rfl⟩ := projected.exists_eq_natCast member
  rw [projected'.held_eq member', projected.held_eq member, extended.itemIn_moved]

end Extends

end ScoreMap

namespace Scorer

open TopList (Alike)
open ScoreMap (Extends)

variable [BEq Key] {index : CaseIndex Item Key Hash F} {place : ℕ ↪o ℕ}
  {items items' : List Item} {chosen chosen' top top' : TopList}

section Fetch

variable {pass pass' : Pass Item Key F}

omit [BEq Key] in
/-- Moved positions get the keys of the positions from which they have moved. -/
theorem keyed_map {keyAt keyAt' : Position → Option Key} {move : Position → Position}
    {positions : List Position} (same : ∀ p ∈ positions, keyAt' (move p) = keyAt p) :
    keyed keyAt' (positions.map move) = (keyed keyAt positions).map (Prod.map move id) := by
  rw [keyed, keyed, List.filterMap_map, List.map_filterMap]
  refine List.filterMap_congr fun p member => ?_
  rw [Function.comp_apply, same p member]
  cases keyAt p <;> rfl

/-- Moved positions get the vectors of their keys. -/
theorem vectorsOf_map (stored : List (Key × Option (Features F))) (move : Position → Position)
    (keys : List (Position × Key)) :
    vectorsOf stored (keys.map (Prod.map move id)) =
      (vectorsOf stored keys).map (List.map (Prod.map move id)) := by
  induction keys with
  | nil => rfl
  | cons entry rest ih =>
    obtain ⟨position, key⟩ := entry
    rw [List.map_cons, Prod.map_apply, vectorsOf, vectorsOf, ih]
    dsimp only [id]
    cases (stored.lookup key).join with
    | none => rfl
    | some features =>
      cases cast : features.toVector with
      | error fault => simp only [cast]; rfl
      | ok vector =>
        simp only [cast]
        cases vectorsOf stored rest <;> rfl

/-- The same features are fetched for moved positions. -/
theorem fetchFeatures_moved (memoryless : index.Memoryless)
    (tells : Tells index pass.results items) (tells' : Tells index pass'.results items')
    (fits : chosen.Fits pass.results) (fits' : chosen'.Fits pass'.results)
    (alike : Alike (Position.moved place) id chosen chosen')
    (kept : ∀ k, items'[place k]? = items[k]?) :
    ((fetchFeatures index (neededFor chosen')).result pass').1 =
      ((fetchFeatures index (neededFor chosen)).result pass).1.map
        (List.map (Prod.map (Position.moved place) id)) := by
  have distinct : (neededFor chosen).Nodup := fits.distinct.sublist (List.drop_sublist _ _)
  have distinct' : (neededFor chosen').Nodup := fits'.distinct.sublist (List.drop_sublist _ _)
  obtain ⟨asked, -, run⟩ := result_fetchFeatures distinct
    (told_of_mem_neededFor fits tells.items_eq tells.keys)
  obtain ⟨asked', -, run'⟩ := result_fetchFeatures distinct'
    (told_of_mem_neededFor fits' tells'.items_eq tells'.keys)
  have needed : neededFor chosen' = (neededFor chosen).map (Position.moved place) :=
    (List.map_id _).symm.trans (map_neededFor alike)
  -- The needed positions are sorted alike, since they have moved in order.
  have sorted := List.map_mergeSort (f := Position.moved place) (l := neededFor chosen)
    (r := fun a b => decide (a ≤ b)) (s := fun a b => decide (a ≤ b)) fun p _ q _ => by
      simp only [Position.moved_le_moved_iff_le]
  have keys : keyed (fun p => (itemIn items' p).bind index.keyOf)
      (((neededFor chosen).mergeSort fun a b => decide (a ≤ b)).map (Position.moved place)) =
        (keyed (fun p => (itemIn items p).bind index.keyOf)
          ((neededFor chosen).mergeSort fun a b => decide (a ≤ b))).map
            (Prod.map (Position.moved place) id) := keyed_map fun p member => by
    obtain ⟨k, -, rfl⟩ := fits.within p (List.mem_of_mem_drop (List.mem_mergeSort.mp member))
    simp only [Position.moved_natCast, itemIn_natCast, kept]
  rw [run, run', needed, ← sorted, keys, List.map_map, memoryless.vectors asked' asked]
  dsimp only
  have same : (Prod.snd ∘ Prod.map (Position.moved place) id : Position × Key → Key) = Prod.snd :=
    rfl
  rw [same]
  cases index.vectors asked _ with
  | error fault => rfl
  | ok stored => exact vectorsOf_map stored _ _

end Fetch

section Calls

variable [TableKey Key] [BEq Hash] {scorer : Scorer Hash F} {reference : FeatureVector F}
  {map map' : ScoreMap Key F} {pass pass' primary primary' final final' : Pass Item Key F}
  (memoryless : index.Memoryless) (sound : scorer.settings.IsSound)
  (returned : Returns scorer index pass reference map primary chosen top final)
  (returned' : Returns scorer index pass' reference map' primary' chosen' top' final')
  (extended : Extends map.byKey index.keyOf place pass.results.items pass'.results.items)

include memoryless sound returned returned' extended

/-- What is matched moves along. -/
theorem Returns.matched_eq : map'.matched = map.matched.map (Position.moved place) :=
  extended.matched_eq (returned.projected memoryless.toSteady sound)
    (returned.projected_of_returns memoryless.toSteady sound returned')

/-- Each place has the score of the scoring pass where it has moved. -/
theorem Returns.primary_scores_moved (k : ℕ) :
    primary'.results.scores[place k]? = primary.results.scores[k]? :=
  extended.getElem?_scores_eq (returned.projected memoryless.toSteady sound)
    (returned.projected_of_returns memoryless.toSteady sound returned') k

/-- The list of an extended result set has the same entries at their new positions. -/
theorem Returns.alike_chosen_moved : Alike (Position.moved place) id chosen chosen' := by
  have projected := returned.projected memoryless.toSteady sound
  have projected' := returned.projected_of_returns memoryless.toSteady sound returned'
  rw [returned.chosen_eq.1, returned'.chosen_eq.1,
    returned.matched_eq memoryless sound returned' extended]
  exact TopList.alike_ofScores_map
    (fun _ matched => (returned.isPlain_held memoryless.toSteady sound matched).isNaN)
    (fun _ matched => extended.held_moved projected projected' matched)

/-- The vectors for the longer result set are those for the shorter one, at the new positions. -/
theorem Returns.fetchesAll_moved_iff {vectors' : List (Position × FeatureVector F)} :
    FetchesAll index { primary' with top := some chosen' } chosen' vectors' ↔
      ∃ vectors, FetchesAll index { primary with top := some chosen } chosen vectors ∧
        vectors' = vectors.map (Prod.map (Position.moved place) id) := by
  have alike := returned.alike_chosen_moved memoryless sound returned' extended
  have tells := returned.tells memoryless.toSteady sound
  have tells' := returned'.tells memoryless.toSteady sound
  have fetched : ((fetchFeatures index (neededFor chosen')).result
      { primary' with top := some chosen' }).1 =
        ((fetchFeatures index (neededFor chosen)).result { primary with top := some chosen }).1.map
          (List.map (Prod.map (Position.moved place) id)) :=
    fetchFeatures_moved memoryless tells tells' returned.chosen_eq.2 returned'.chosen_eq.2 alike
      extended.kept
  have needed : (neededFor chosen').length = (neededFor chosen).length := by
    simpa using congrArg List.length (map_neededFor alike)
  rw [FetchesAll, fetched, needed]
  constructor
  · rintro ⟨answered, complete⟩
    obtain ⟨vectors, known, rfl⟩ := exists_of_map_eq_ok answered
    exact ⟨vectors, ⟨known, by simpa using complete⟩, rfl⟩
  · rintro ⟨vectors, ⟨known, complete⟩, rfl⟩
    exact ⟨by rw [known]; rfl, by simpa using complete⟩

/-- A reordering is made for both result sets or for neither. -/
theorem Returns.regroups_moved_iff :
    Regroups index { primary' with top := some chosen' } chosen' ↔
      Regroups index { primary with top := some chosen } chosen := by
  have alike := returned.alike_chosen_moved memoryless sound returned' extended
  rw [Regroups, Regroups, alike.tailSize]
  refine and_congr_right fun _ => ⟨?_, ?_⟩
  · rintro ⟨vectors', fetches'⟩
    obtain ⟨vectors, fetches, -⟩ :=
      (returned.fetchesAll_moved_iff memoryless sound returned' extended).mp fetches'
    exact ⟨vectors, fetches⟩
  · rintro ⟨vectors, fetches⟩
    exact ⟨_, (returned.fetchesAll_moved_iff memoryless sound returned' extended).mpr
      ⟨vectors, fetches, rfl⟩⟩

/-- What stands where nothing has moved to has no score. -/
theorem Returns.scoreAt_of_inserted {j : ℕ} (within : j < pass'.results.size)
    (inserted : ∀ k, place k ≠ j) : final'.results.scoreAt (j : Position) = .ok 0 := by
  have unmatched : (j : Position) ∉ map'.matched := by
    rw [returned.matched_eq memoryless sound returned' extended]
    intro member
    obtain ⟨position, member', moved⟩ := List.mem_map.mp member
    obtain ⟨k, -, rfl⟩ := returned.exists_eq_natCast member'
    exact inserted k (Int.ofNat_inj.mp moved)
  -- So it holds zero after the scoring pass, and no regrouping writes there.
  have outside : (j : Position) ∉ chosen'.tail := fun member =>
    unmatched (returned'.mem_matched_of_mem (List.mem_of_mem_drop member))
  rw [ResultSet.scoreAt_eq_held (returned'.size_eq.2 ▸ within),
    returned'.held_eq_of_notMem within outside, returned'.held_eq_zero within unmatched]

variable (run : (scorer.score index).result pass = (.ok (some top), final))
  (run' : (scorer.score index).result pass' = (.ok (some top'), final'))

include run run'

/-- In the end, too, the list of an extended result set has the same entries at their new
positions. -/
theorem Returns.alike_moved : Alike (Position.moved place) id top top' := by
  have alike := returned.alike_chosen_moved memoryless sound returned' extended
  rcases returned.ended_both returned'
      (returned.regroups_moved_iff memoryless sound returned' extended) with
    ⟨⟨rfl, -⟩, rfl, -⟩ | ⟨⟨⟨long, -⟩, regrouping⟩, ⟨long', vectors', fetches'⟩, regrouping'⟩
  · exact alike
  · obtain ⟨vectors, fetches, rfl⟩ :=
      (returned.fetchesAll_moved_iff memoryless sound returned' extended).mp fetches'
    -- Both tails are arranged by the vectors that are known at the new positions.
    let vectorAt (position : Position) : Option (FeatureVector F) :=
      List.lookup position (vectors.map (Prod.map (Position.moved place) id))
    have arranged := returned.map_positions_eq_of_fetches (Position.moved place) vectorAt run long
      fetches fun p _ => lookup_map (Position.moved_injective place) vectors p
    have arranged' := returned'.map_positions_eq_of_fetches id vectorAt run' long' fetches'
      fun _ _ => rfl
    refine ⟨?_, ?_⟩
    · rw [arranged, arranged', alike.positions, alike.tailStart]
    · rw [regrouping.tailStart, regrouping'.tailStart, alike.tailStart]

/-- Each place has its score in the end where it has moved. -/
theorem Returns.getElem?_scores_moved (k : ℕ) :
    final'.results.scores[place k]? = final.results.scores[k]? := by
  have before := returned.primary_scores_moved memoryless sound returned' extended
  have injective := Position.moved_injective place
  rcases returned.ended_both returned'
      (returned.regroups_moved_iff memoryless sound returned' extended) with
    ⟨⟨-, kept⟩, -, kept'⟩ | ⟨⟨-, regrouping⟩, -, regrouping'⟩
  · rw [kept, kept', before]
  · refine regrouping.getElem?_scores_of_names regrouping'
      (returned.alike_chosen_moved memoryless sound returned' extended)
      (returned.alike_moved memoryless sound returned' extended run run') ?_ rfl
      (fun p _ same => injective same) (fun p' _ same => same) (before k)
    rintro p member _ - rfl score score' known known'
    obtain ⟨j, -, rfl⟩ := returned.exists_eq_natCast
      (returned.mem_matched_of_mem (List.mem_of_mem_drop member))
    rw [Position.moved_natCast] at known'
    rw [ResultSet.scoreAt_eq_ok_iff] at known known'
    rw [before, known] at known'
    exact (Option.some.inj known').symm

end Calls

section Extended

variable [TableKey Key] [BEq Hash] {scorer : Scorer Hash F} {reference : FeatureVector F}
  {map : ScoreMap Key F} {pass pass' primary final final' : Pass Item Key F}

/-- With an index whose answers are functions of the questions, items that have no key, or whose key
has no score, make no difference to the others wherever they are put in between. If the calls for a
result set and for such an extension of it both return a list, the inserted items have score zero at
the end, each of the others has the same score at the end of both calls, the lists have the same
entries up to the places to which these have moved, and the same candidates are listed in the same
order and split at one place. -/
theorem score_of_extended (memoryless : index.Memoryless) (sound : scorer.settings.IsSound)
    (known : scorer.reference = some reference)
    (built : (ScoreMap.build index (some reference) scorer.referenceHash scorer.settings).result
      pass = (.ok map, primary))
    (extended : Extends map.byKey index.keyOf place pass.results.items pass'.results.items)
    (run : (scorer.score index).result pass = (.ok (some top), final))
    (run' : (scorer.score index).result pass' = (.ok (some top'), final')) :
    (final.results.items = pass.results.items ∧ final'.results.items = pass'.results.items) ∧
    (∀ j < pass'.results.size, (∀ k, place k ≠ j) →
      final'.results.scoreAt (j : Position) = .ok 0) ∧
    (∀ k < pass.results.size, ∃ score, final.results.scoreAt (k : Position) = .ok score ∧
      final'.results.scoreAt (place k : ℕ) = .ok score) ∧
    (∃ listed, candidates final = .ok listed ∧ candidates final' = .ok listed) ∧
    top'.positions = top.positions.map (Position.moved place) ∧
    top'.tailStart = top.tailStart := by
  obtain ⟨chosen, returned⟩ := exists_returns_of_built known built run
  obtain ⟨map', primary', chosen', returned'⟩ := exists_returns_of_known known run'
  have alike := returned.alike_moved memoryless sound returned' extended run run'
  have scores := returned.getElem?_scores_moved memoryless sound returned' extended run run'
  have items := returned.items_eq.2
  have items' := returned'.items_eq.2
  refine ⟨⟨items, items'⟩, fun j within inserted => ?_, fun k within => ?_, ?_,
    (List.map_id _).symm.trans alike.positions, alike.tailStart⟩
  · exact returned.scoreAt_of_inserted memoryless sound returned' extended within inserted
  · have inside : k < final.results.scores.length := by
      rwa [ResultSet.length_scores, returned.size_eq.2]
    have score := List.getElem?_eq_getElem inside
    refine ⟨final.results.scores[k], ResultSet.scoreAt_eq_ok_iff.mpr score,
      ResultSet.scoreAt_eq_ok_iff.mpr ?_⟩
    rw [scores k, score]
  · obtain ⟨-, listed⟩ := returned.result_organize run
    obtain ⟨-, listed'⟩ := returned'.result_organize run'
    refine exists_candidates_of_alike alike listed listed' (fun _ => returned.within_final) ?_
    rintro p member _ - rfl
    obtain ⟨k, -, rfl⟩ := returned.within_final member
    exact ResultSet.candidateAt_congr (by rw [items, items', extended.kept]) (scores k)

end Extended

section Images

/-- The images with an item without a name in front of them and an unknown one in between. -/
def extendedImages : Pass String Scalar .exact where
  results := .ofItems ["", "copy", "unknown", "near", "left", "right", "far", ""] 1

/-- The images stand one place behind, and two from the second one on. -/
def imagePlace : ℕ ↪o ℕ :=
  .ofStrictMono (fun k => if k = 0 then 1 else k + 2) fun i j below => by
    dsimp only
    split_ifs <;> omega

theorem extends_images : Extends imageMap.byKey imageIndex.keyOf imagePlace
    unscoredImages.results.items extendedImages.results.items where
  kept
    | 0 | 1 | 2 | 3 | 4 | 5 => rfl
    | _ + 6 => rfl
  unscored
    | 0, _, rfl, _, _, key => by cases key
    | 1, _, _, moved, _, _ => absurd rfl (moved 0)
    | 2, _, rfl, _, _, rfl => by decide
    | j + 3, _, _, moved, _, _ => absurd rfl (moved (j + 1))

theorem result_score_extendedImages :
    ((imageScorer.score imageIndex).result extendedImages).1 =
      .ok (some ⟨[1, 3, 5, 4], 1⟩) := by
  simp only [score, ScoreMap.build, ScoreMap.buildCounting, ScoreMap.queryNeighbors,
    TopList.select, organize, fetchFeatures, Ranking.rank_eq_insertionSort,
    List.mergeSort_eq_insertionSort]
  decide +kernel

/-- The images are listed alike with the other items in between, the unknown item has no score, and
the image on the right has the score that it has without them. -/
theorem score_of_extended_images :
    let final' := ((imageScorer.score imageIndex).result extendedImages).2
    final'.results.scoreAt 2 = .ok 0 ∧
      (∃ score, regroupedImages.results.scoreAt 3 = .ok score ∧
        final'.results.scoreAt 5 = .ok score) ∧
      ∃ listed, candidates regroupedImages = .ok listed ∧ candidates final' = .ok listed := by
  intro final'
  obtain ⟨-, inserted, kept, listed, -⟩ := score_of_extended memoryless_imageIndex
    isSound_imageScorer rfl result_build_images extends_images result_score_images
    (Prod.ext result_score_extendedImages rfl)
  have unmoved : ∀ k, imagePlace k ≠ 2
    | 0 => by decide
    | k + 1 => fun moved => by
      have same : k + 1 + 2 = 2 := moved
      omega
  exact ⟨inserted 2 (by decide) unmoved, kept 3 (by decide), listed⟩

end Images

end Scorer

end Lookalike
