import Lookalike.Proofs.Scorer.Named

/-!
# Repeated calls

A call that returns a top list overwrites all scores before it reads any. With an index whose
answers are functions of the questions it comes to the same scores and to the same list from
whatever scores it starts, so it can be repeated without a change, and of several calls only the
last one counts.

## Main definitions

* `Scorer.EndsAlike`, that two calls return the same and leave the same behind

## Main statements

* `Scorer.oblivious_organize`
* `ScoreMap.build_of_items_eq`
* `Scorer.score_overwrites`
-/

namespace Lookalike

variable {Item Key Hash : Type} [BEq Key] {F : Format} {index : CaseIndex Item Key Hash F}

namespace ScoreMap

variable [TableKey Key] {scores : List (Key × Number F)}

/-- A projection of some items succeeds or fails for the same reason in all states, so it succeeds
in one where it does in another. The induction is on the items to come. -/
theorem exists_projectFrom_eq_ok (steady : index.Steady) {position : ℕ} {items : List Item}
    {matched : List Position} {pass pass' passed : Pass Item Key F}
    (rest : position + items.length = pass.results.size)
    (size : pass'.results.size = pass.results.size)
    (run : (projectFrom index scores position items).result pass = (.ok matched, passed)) :
    ∃ passed', (projectFrom index scores position items).result pass' = (.ok matched, passed') := by
  induction items generalizing position matched pass pass' with
  | nil =>
    cases run
    exact ⟨pass', rfl⟩
  | cons item others ih =>
    rw [List.length_cons] at rest
    have within : position < pass.results.size := by omega
    obtain ⟨key, score, results, matched', told, found, items, -, ran, rfl⟩ :=
      projectFrom_cons_eq_ok within run
    have told' : index.key pass'.calls item = .ok key := (steady.key _ _ item).trans told
    obtain ⟨results', items', -, step⟩ :=
      exists_result_projectFrom_cons others (size ▸ within) told' found
    have sizes : results.size = pass.results.size ∧ results'.size = pass'.results.size := by
      simp only [← ResultSet.length_items, items, items', and_self]
    have rest' : position + 1 + others.length = results.size := by omega
    have size' : results'.size = results.size := by omega
    obtain ⟨passed', ended⟩ := @ih _ _ { pass with results, calls := .key item :: pass.calls }
      { pass' with results := results', calls := .key item :: pass'.calls } rest' size' ran
    refine ⟨passed', ?_⟩
    rw [step, ended]
    rfl

/-- A projection overwrites all scores before it reads any. -/
theorem project_of_items_eq (steady : index.Steady) {matched : List Position}
    {pass pass' passed : Pass Item Key F} (same : pass'.results.items = pass.results.items)
    (run : (project index scores).result pass = (.ok matched, passed)) :
    ∃ passed', (project index scores).result pass' = (.ok matched, passed') ∧
      passed'.results = passed.results := by
  have size : pass'.results.size = pass.results.size := by
    simp only [← ResultSet.length_items, same]
  have whole : 0 + pass.results.items.length = pass.results.size := by
    rw [ResultSet.length_items, Nat.zero_add]
  rw [project, Attempt.result_bind_ok (Attempt.result_get _)] at run
  obtain ⟨passed', run'⟩ := exists_projectFrom_eq_ok steady whole size run
  obtain ⟨keys, told, -, items, scores_eq⟩ := projectFrom_eq_ok whole run
  obtain ⟨keys', told', -, items', scores_eq'⟩ := projectFrom_eq_ok (whole.trans size.symm) run'
  obtain rfl : keys = keys' :=
    (toldKeys_eq_ok steady told).1.trans (toldKeys_eq_ok steady told').1.symm
  refine ⟨passed', ?_, ResultSet.eq_of_items_of_scores ?_ ?_⟩
  · rw [project, Attempt.result_bind_ok (Attempt.result_get _), same, run']
  · rw [items', items, same]
  · rw [scores_eq', scores_eq, List.take_zero, List.take_zero]

variable [BEq Hash] {reference : FeatureVector F} {referenceHash : Option Hash}
  {settings : Settings F} {map : ScoreMap Key F} {pass pass' primary : Pass Item Key F}

/-- With a steady index a scoring pass comes to the same scores for all result sets of the same
items. -/
theorem build_of_items_eq (steady : index.Steady) (features : reference ≠ [])
    (busy : pass.results.size ≠ 0) (same : pass'.results.items = pass.results.items)
    (built : (build index (some reference) referenceHash settings).result pass =
      (.ok map, primary)) :
    ∃ primary', (build index (some reference) referenceHash settings).result pass' =
      (.ok map, primary') ∧ primary'.results = primary.results := by
  have size : pass'.results.size = pass.results.size := by
    simp only [← ResultSet.length_items, same]
  rw [build_eq_gather features busy] at built
  obtain ⟨⟨byKey, seen⟩, passed, gathered, built⟩ := Attempt.bind_eq_ok built
  obtain ⟨matched, projected, run, done⟩ := Attempt.bind_eq_ok built
  cases done
  -- What is gathered is the same, and it leaves both result sets to the projection.
  have consults := consults_gather index reference referenceHash settings
  obtain ⟨calls, left⟩ := consults.onlyAsks pass
  rw [gathered] at left
  obtain rfl : passed = { pass with calls } := left
  obtain ⟨calls', left'⟩ := consults.onlyAsks pass'
  have gathered' : (gather index reference referenceHash settings).result pass' =
      (.ok (byKey, seen), { pass' with calls := calls' }) := by
    refine Prod.ext ?_ left'
    rw [consults.outcome_eq steady pass' pass, gathered]
  have same' : ({ pass' with calls := calls' } : Pass Item Key F).results.items =
      ({ pass with calls } : Pass Item Key F).results.items := same
  obtain ⟨projected', run', results⟩ := project_of_items_eq steady same' run
  refine ⟨projected', ?_, results⟩
  rw [build_eq_gather features (size ▸ busy), Attempt.result_bind_ok gathered',
    Attempt.result_bind_ok run']
  rfl

end ScoreMap

namespace Scorer

open Scoring

section Oblivious

omit [BEq Key] in
theorem oblivious_keysFrom (memoryless : index.Memoryless) (positions : List Position) :
    ∀ keys, Oblivious (keysFrom (F := F) index keys positions) := by
  induction positions with
  | nil => exact fun keys => .pure keys
  | cons position rest ih =>
    intro keys
    refine .get_bind (fun pass => .bind (.ofExcept _) fun item =>
      .bind (.ask _ fun calls calls' => memoryless.key calls calls' item) fun key => ?_)
      fun _ _ => rfl
    cases key with
    | none => exact ih keys
    | some key => exact ih _

theorem oblivious_fetchFeatures (memoryless : index.Memoryless) (positions : List Position) :
    Oblivious (fetchFeatures index positions) :=
  .bind (oblivious_keysFrom memoryless _ []) fun _ =>
    .bind (.ask _ fun calls calls' => memoryless.vectors calls calls' _) fun _ => .ofExcept _

variable (scorer : Scorer Hash F) (reference : FeatureVector F) (top : TopList)

omit [BEq Key] in
theorem oblivious_regroup (vectors : List (Position × FeatureVector F)) :
    Oblivious (regroup scorer reference top vectors : Scoring Item Key F Unit) := by
  refine .get_bind (fun pass => .bind (.ofExcept _) fun bounds => ?_) fun _ _ => rfl
  refine .bind (fun _ calls => ⟨calls, rfl⟩) fun _ => ?_
  split
  · exact .throw _
  · exact .within _

/-- With an index whose answers are functions of the questions a list is regrouped alike, whatever
has been asked before. -/
theorem oblivious_organize (memoryless : index.Memoryless) :
    Oblivious (organize scorer index reference top) := by
  rw [organize_eq]
  split_ifs
  · exact .pure ()
  · refine .bind (.outcome (oblivious_fetchFeatures memoryless _)) fun fetched => ?_
    rcases fetched with fault | vectors
    · cases fault with
      | storage kind detail => exact .pure ()
      | _ => exact .throw _
    · dsimp only
      split_ifs
      · exact .pure ()
      · exact oblivious_regroup scorer reference top vectors

end Oblivious

/-- Two calls end alike: they return the same, and they leave the same items, scores, top list and
candidates. -/
structure EndsAlike (ended ended' : Except Fault (Option TopList) × Pass Item Key F) : Prop where
  outcome : ended'.1 = ended.1
  results : ended'.2.results = ended.2.results
  top : ended'.2.top = ended.2.top
  candidates : candidates ended'.2 = candidates ended.2

variable [TableKey Key] [BEq Hash] {scorer : Scorer Hash F} {pass pass' final : Pass Item Key F}
  {top : TopList}

/-- A call that returns a top list ends alike for all result sets of the same items. -/
theorem endsAlike_of_items_eq (memoryless : index.Memoryless)
    (same : pass'.results.items = pass.results.items)
    (run : (scorer.score index).result pass = (.ok (some top), final)) :
    EndsAlike ((scorer.score index).result pass) ((scorer.score index).result pass') := by
  obtain ⟨reference, map, primary, chosen, returned⟩ := exists_returns run
  obtain ⟨organized, -⟩ := returned.result_organize run
  obtain ⟨primary', built', results⟩ := ScoreMap.build_of_items_eq memoryless.toSteady
    returned.features returned.busy same returned.built
  have busy' : pass'.results.size ≠ 0 := by
    rw [← ResultSet.length_items, same, ResultSet.length_items]
    exact returned.busy
  have selected' : TopList.select primary'.results scorer.settings map.matched = .ok chosen := by
    rw [results]
    exact returned.selected
  -- The list is chosen anew, so nothing but the questions is left of what was there before.
  obtain ⟨calls, organized'⟩ := oblivious_organize scorer reference chosen memoryless
    { primary with top := some chosen } primary'.calls
  rw [organized] at organized'
  have left : ({ primary' with top := some chosen } : Pass Item Key F) =
      { primary with top := some chosen, calls := primary'.calls } := by
    rw [results]
  rw [← left] at organized'
  have run' := result_score returned.known returned.features busy' built' selected' organized'
  have run := result_score returned.known returned.features returned.busy returned.built
    returned.selected organized
  rw [run, run']
  exact ⟨rfl, rfl, rfl, rfl⟩

omit [BEq Key] [TableKey Key] [BEq Hash] in
theorem EndsAlike.symm {ended ended' : Except Fault (Option TopList) × Pass Item Key F}
    (alike : EndsAlike ended ended') : EndsAlike ended' ended :=
  ⟨alike.outcome.symm, alike.results.symm, alike.top.symm, alike.candidates.symm⟩

/-- A call that returns a top list keeps the items, and what it returns can be listed. -/
theorem items_eq_of_score_eq_ok
    (run : (scorer.score index).result pass = (.ok (some top), final)) :
    final.results.items = pass.results.items ∧ ∃ listed, candidates final = .ok listed := by
  obtain ⟨reference, map, primary, chosen, returned⟩ := exists_returns run
  obtain ⟨-, found⟩ := returned.result_organize run
  refine ⟨returned.items_eq.2, ?_⟩
  rw [candidates, found]
  apply exists_mapM_eq_ok
  intro position listed
  obtain ⟨k, within, rfl⟩ := returned.within_final listed
  exact ResultSet.exists_candidateAt_eq_ok within

/-- With an index whose answers are functions of the questions nothing is left of earlier scores. If
a call returns a top list, it ends alike for all result sets of the same items, whatever they hold
before. So it changes nothing when it is repeated, and after a call that returned a list, with any
scorer and any index, it ends as it does on its own. -/
theorem score_overwrites (memoryless : index.Memoryless) (scorer : Scorer Hash F) :
    let run (pass : Pass Item Key F) := (scorer.score index).result pass
    (∀ pass pass' top, pass'.results.items = pass.results.items → (run pass).1 = .ok (some top) →
      EndsAlike (run pass) (run pass') ∧ ∃ listed, candidates (run pass).2 = .ok listed) ∧
    (∀ pass top, (run pass).1 = .ok (some top) → EndsAlike (run pass) (run (run pass).2)) ∧
    ∀ (first : Scorer Hash F) (other : CaseIndex Item Key Hash F) pass top₁ top,
      ((first.score other).result pass).1 = .ok (some top₁) →
        (run ((first.score other).result pass).2).1 = .ok (some top) →
          EndsAlike (run pass) (run ((first.score other).result pass).2) := by
  intro run
  refine ⟨fun pass pass' top same returns => ?_, fun pass top returns => ?_,
    fun first other pass top₁ top returns₁ returns => ?_⟩
  · have ended : run pass = (.ok (some top), (run pass).2) := Prod.ext returns rfl
    exact ⟨endsAlike_of_items_eq memoryless same ended, (items_eq_of_score_eq_ok ended).2⟩
  · have ended : run pass = (.ok (some top), (run pass).2) := Prod.ext returns rfl
    exact endsAlike_of_items_eq memoryless (items_eq_of_score_eq_ok ended).1 ended
  · have ended₁ : (first.score other).result pass =
        (.ok (some top₁), ((first.score other).result pass).2) := Prod.ext returns₁ rfl
    have ended : run ((first.score other).result pass).2 =
        (.ok (some top), (run ((first.score other).result pass).2).2) := Prod.ext returns rfl
    exact (endsAlike_of_items_eq memoryless (items_eq_of_score_eq_ok ended₁).1.symm ended).symm

section Images

/-- A scorer that compares no hashes, against an image between the others. -/
def otherScorer : Scorer String .exact := ⟨some [1], none, .standard .exact⟩

/-- The images after a call with the other scorer. -/
def otherwiseScoredImages : Pass String Scalar .exact :=
  ((otherScorer.score imageIndex).result unscoredImages).2

private theorem result_score_otherScorer :
    (otherScorer.score imageIndex).result unscoredImages =
      (.ok (some ⟨[0, 1, 3, 4, 2], 1⟩), otherwiseScoredImages) := by
  refine Prod.ext ?_ rfl
  simp only [score, ScoreMap.build, ScoreMap.buildCounting, ScoreMap.queryNeighbors,
    TopList.select, organize, fetchFeatures, Ranking.rank_eq_insertionSort,
    List.mergeSort_eq_insertionSort]
  decide +kernel

/-- The images end alike from other scores, when the call is repeated, and after another scorer has
scored them. -/
theorem score_overwrites_images :
    let run (pass : Pass String Scalar .exact) := (imageScorer.score imageIndex).result pass
    EndsAlike (run unscoredImages) (run scoredImages) ∧
      EndsAlike (run unscoredImages) (run (run unscoredImages).2) ∧
      EndsAlike (run unscoredImages) (run otherwiseScoredImages) := by
  intro run
  obtain ⟨anew, again, after⟩ := score_overwrites memoryless_imageIndex imageScorer
  have returns : (run unscoredImages).1 = .ok (some ⟨[0, 1, 3, 2], 1⟩) :=
    congrArg Prod.fst result_score_images
  have items := (items_eq_of_score_eq_ok result_score_otherScorer).1
  have returns' := (anew unscoredImages otherwiseScoredImages _ items returns).1.outcome
  exact ⟨(anew unscoredImages scoredImages _ rfl returns).1, again unscoredImages _ returns,
    after otherScorer imageIndex unscoredImages _ _ (congrArg Prod.fst result_score_otherScorer)
      (returns'.trans returns)⟩

end Images

end Scorer

end Lookalike
