import Lookalike.CaseIndex.Tables
import Lookalike.Proofs.ScoreMap.Answers
import Lookalike.Proofs.ScoreMap.Build
import Lookalike.Proofs.ScoreMap.Gather
import Lookalike.Proofs.Settings
import Lookalike.Scorer

/-!
# Scoring passes that fail

A pass that fails while the neighbors are queried or scanned has written nothing. The projection
asks for the key of an item right before it writes the score of that item's position, so a pass that
fails there has written the scores of all positions in front, and these stand.

## Main definitions

* `ScoreMap.Refuses`, when the projection fails at an item
* `ScoreMap.Interrupted`, what a projection that fails has written

## Main statements

* `ScoreMap.projectFrom_cons_eq_error`, `ScoreMap.projectFrom_eq_error`
* `Scorer.failed_build`, what a failed pass leaves behind
* `Scorer.front_is_overwritten`
-/

namespace Lookalike

variable {Item Key Hash : Type} {F : Format} {index : CaseIndex Item Key Hash F}

namespace ScoreMap

section Project

variable [BEq Key] [TableKey Key] {scores : List (Key × Number F)}

/-- The score that is written for a told key. -/
def written (scores : List (Key × Number F)) (key : Option Key) : Number F :=
  (itemScore? scores id key).getD 0

/-- The projection fails at an item: its key cannot be told, or cannot be looked up. -/
def Refuses (index : CaseIndex Item Key Hash F) (calls : List (IndexCall Item Key)) (item : Item)
    (fault : Fault) : Prop :=
  index.key calls item = .error fault ∨ fault = .wrongKind ∧
    ∃ key, index.key calls item = .ok (some key) ∧ TableKey.isKey key = false

theorem exists_of_scoreFor_eq_error {calls : List (IndexCall Item Key)} {item : Item}
    {key : Option Key} {fault : Fault} (told : index.key calls item = .ok key)
    (failed : scoreFor scores key = .error fault) :
    fault = .wrongKind ∧ ∃ key, index.key calls item = .ok (some key) ∧
      TableKey.isKey key = false := by
  cases key with
  | none => cases failed
  | some key =>
    rw [scoreFor] at failed
    split_ifs at failed with usable
    cases failed
    exact ⟨rfl, key, told, by simpa using usable⟩

/-- A projection that fails has refused the first item before anything was written at its position,
or has written the score of that item and has failed later. -/
theorem projectFrom_cons_eq_error {item : Item} {others : List Item} {position : ℕ} {fault : Fault}
    {pass pass' : Pass Item Key F} (within : position < pass.results.size)
    (run : (projectFrom index scores position (item :: others)).result pass =
      (.error fault, pass')) :
    let asked := { pass with calls := .key item :: pass.calls }
    Refuses index pass.calls item fault ∧ pass' = asked ∨
    ∃ key results, index.key pass.calls item = .ok key ∧
      results.items = pass.results.items ∧
      results.scores = pass.results.scores.set position (written scores key) ∧
      (projectFrom index scores (position + 1) others).result { asked with results } =
        (.error fault, pass') := by
  intro asked
  have ask : (index.askKey item).result pass = (index.key pass.calls item, asked) := by
    rw [CaseIndex.askKey, CaseIndex.result_ask]
  have ended := run
  rw [projectFrom] at run
  rcases Attempt.bind_eq_error run with failed | ⟨key, state, answered, run⟩
  · obtain ⟨told, rfl⟩ := Prod.mk.inj (ask.symm.trans failed)
    exact .inl ⟨.inl told, rfl⟩
  obtain ⟨told, rfl⟩ := Prod.mk.inj (ask.symm.trans answered)
  rcases Attempt.bind_eq_error run with failed | ⟨score, state, found, run⟩
  · rw [Attempt.result_ofExcept, Prod.mk.injEq] at failed
    obtain ⟨failed, rfl⟩ := failed
    exact .inl ⟨.inr (exists_of_scoreFor_eq_error told failed), rfl⟩
  rw [Attempt.result_ofExcept, Prod.mk.injEq] at found
  obtain ⟨found, rfl⟩ := found
  obtain ⟨results, items, scores_eq, step⟩ :=
    exists_result_projectFrom_cons others within told found
  refine .inr ⟨key, results, told, items, ?_, ?_⟩
  · rw [scores_eq, written, scoreFor_eq_ok found]
  · rw [step] at ended
    obtain ⟨outcome, rfl⟩ := Prod.mk.inj ended
    exact Prod.ext (eq_error_of_map_eq_error outcome) rfl

/-- What has been asked when the keys of some items have been told. -/
def askedKeys (calls : List (IndexCall Item Key)) (items : List Item) :
    List (IndexCall Item Key) :=
  items.foldl (fun calls item => .key item :: calls) calls

/-- A projection that fails has reached an item of those to come, has been told the keys of the ones
in front of it and has written their scores. The induction is on the items to come. -/
theorem projectFrom_eq_error {position : ℕ} {items : List Item} {fault : Fault}
    {pass pass' : Pass Item Key F} (rest : position + items.length = pass.results.size)
    (run : (projectFrom index scores position items).result pass = (.error fault, pass')) :
    ∃ keys : List (Option Key), toldKeys index pass.calls (items.take keys.length) = .ok keys ∧
      (∃ item, items[keys.length]? = some item ∧
        Refuses index (askedKeys pass.calls (items.take keys.length)) item fault) ∧
      pass'.top = pass.top ∧ pass'.results.items = pass.results.items ∧
      pass'.results.scores = pass.results.scores.take position ++ keys.map (written scores) ++
        pass.results.scores.drop (position + keys.length) := by
  induction items generalizing position pass with
  | nil => cases run
  | cons item others ih =>
    rw [List.length_cons] at rest
    have within : position < pass.results.size := by omega
    rcases projectFrom_cons_eq_error within run with
      ⟨refuses, rfl⟩ | ⟨key, results, told, items, scores_eq, run⟩
    · exact ⟨[], rfl, ⟨item, rfl, refuses⟩, rfl, rfl, by simp⟩
    · have size : results.size = pass.results.size := by
        rw [← ResultSet.length_items, items, ResultSet.length_items]
      have rest' : position + 1 + others.length = results.size := by omega
      obtain ⟨keys, told', ⟨last, found, refuses⟩, top, items', scores'⟩ := ih rest' run
      refine ⟨key :: keys, ?_, ⟨last, found, refuses⟩, top, items'.trans items, ?_⟩
      · rw [List.length_cons, List.take_succ_cons, toldKeys, told, told']
        rfl
      · rw [scores', scores_eq, take_succ_set (by simpa using within),
          List.drop_set_of_lt (by omega), List.length_cons, List.map_cons]
        simp [Nat.add_assoc, Nat.add_comm 1]

/-- What a failed projection leaves behind: the keys of the items in front of one have been told, at
that one it has failed, and the scores of the positions in front have been written. -/
structure Interrupted (index : CaseIndex Item Key Hash F) (scores : List (Key × Number F))
    (start : Pass Item Key F) (fault : Fault) (keys : List (Option Key)) (final : Pass Item Key F) :
    Prop where
  told : toldKeys index start.calls (start.results.items.take keys.length) = .ok keys
  refuses : ∃ item, start.results.items[keys.length]? = some item ∧
    Refuses index (askedKeys start.calls (start.results.items.take keys.length)) item fault
  top : final.top = start.top
  items : final.results.items = start.results.items
  scores_eq : final.results.scores =
    keys.map (written scores) ++ start.results.scores.drop keys.length

theorem exists_interrupted {fault : Fault} {start final : Pass Item Key F}
    (run : (project index scores).result start = (.error fault, final)) :
    ∃ keys, Interrupted index scores start fault keys final := by
  rw [project, Attempt.result_bind_ok (Attempt.result_get _)] at run
  obtain ⟨keys, told, refuses, top, items, scores_eq⟩ :=
    projectFrom_eq_error (by rw [ResultSet.length_items, Nat.zero_add]) run
  exact ⟨keys, told, refuses, top, items, by simpa using scores_eq⟩

namespace Interrupted

variable {fault : Fault} {keys : List (Option Key)} {start final : Pass Item Key F}

theorem length_le (interrupted : Interrupted index scores start fault keys final) :
    keys.length ≤ start.results.scores.length := by
  obtain ⟨item, found, -⟩ := interrupted.refuses
  rw [ResultSet.length_scores, ← ResultSet.length_items]
  exact (List.getElem?_eq_some_iff.mp found).1.le

/-- A failed projection leaves the scores alone exactly where the positions in front of the item at
which it failed held what was written to them. -/
theorem scores_eq_iff (interrupted : Interrupted index scores start fault keys final) :
    final.results.scores = start.results.scores ↔
      keys.map (written scores) = start.results.scores.take keys.length := by
  rw [interrupted.scores_eq]
  conv_lhs => rhs; rw [← List.take_append_drop keys.length start.results.scores]
  exact List.append_left_inj _

end Interrupted

end Project

section Build

variable [BEq Key] [TableKey Key] [BEq Hash] {reference : FeatureVector F}
  {referenceHash : Option Hash} {settings : Settings F} {fault : Fault}
  {pass final : Pass Item Key F}

/-- A pass that fails has something to score, and fails while it gathers scores or while it projects
them. -/
theorem build_eq_error
    (failed : (build index (some reference) referenceHash settings).result pass =
      (.error fault, final)) :
    (reference ≠ [] ∧ pass.results.size ≠ 0) ∧
      ((gather index reference referenceHash settings).result pass = (.error fault, final) ∨
        ∃ scores seen calls, (gather index reference referenceHash settings).result pass =
            (.ok (scores, seen), { pass with calls }) ∧
          (project index scores).result { pass with calls } = (.error fault, final)) := by
  -- A pass that has nothing to score ends well.
  have something : reference ≠ [] ∧ pass.results.size ≠ 0 := by
    by_contra nothing
    have idle : (reference.length == 0 || pass.results.size == 0) = true := by
      rw [Classical.not_and_iff_not_or_not, not_not, not_not] at nothing
      simpa using nothing
    change (buildCounting index reference.length reference referenceHash settings).result pass = _
      at failed
    rw [buildCounting, Attempt.result_bind_ok (Attempt.result_get pass), if_pos idle] at failed
    cases failed
  refine ⟨something, ?_⟩
  rw [build_eq_gather something.1 something.2] at failed
  rcases Attempt.bind_eq_error failed with failed | ⟨⟨scores, seen⟩, passed, gathered, failed⟩
  · exact .inl failed
  · obtain ⟨calls, same⟩ := (consults_gather index reference referenceHash settings).onlyAsks pass
    rw [gathered] at same
    obtain rfl : passed = { pass with calls } := same
    rcases Attempt.bind_eq_error failed with failed | ⟨_, _, -, done⟩
    · exact .inr ⟨scores, seen, calls, gathered, failed⟩
    · cases done

end Build

end ScoreMap

namespace Scorer

open ScoreMap

section Failed

variable [BEq Key] [TableKey Key] [BEq Hash] {scorer : Scorer Hash F} {reference : FeatureVector F}
  {fault : Fault} {pass final : Pass Item Key F}

/-- A call whose scoring pass fails ends as the pass does. -/
theorem result_score_of_failed (known : scorer.reference = some reference)
    (features : reference ≠ []) (busy : pass.results.size ≠ 0)
    (failed : (build index (some reference) scorer.referenceHash scorer.settings).result pass =
      (.error fault, final)) :
    (scorer.score index).result pass = (.error fault, final) := by
  have busy' : (reference.isEmpty || pass.results.size == 0) = false := by
    simp [features, busy]
  rw [score, Attempt.result_bind_ok (Attempt.result_get pass)]
  simp only [known, busy', Bool.false_eq_true, if_false]
  exact Attempt.result_bind_error failed

/-- A call whose scoring pass fails ends as the pass does and keeps the items and the top list. No
score is written by a pass that fails before the projection. A pass that fails in the projection has
written the scores of the positions in front of the item at which it failed, so the scores are left
as they were exactly where these positions held them already. -/
theorem failed_build (known : scorer.reference = some reference)
    (failed : (build index (some reference) scorer.referenceHash scorer.settings).result pass =
      (.error fault, final)) :
    let gathering := (gather index reference scorer.referenceHash scorer.settings).result pass
    (scorer.score index).result pass = (.error fault, final) ∧
    final.top = pass.top ∧ final.results.items = pass.results.items ∧
    (gathering = (.error fault, final) ∧ final.results = pass.results ∨
      ∃ scores seen calls keys, gathering = (.ok (scores, seen), { pass with calls }) ∧
        Interrupted index scores { pass with calls } fault keys final ∧
        (final.results.scores = pass.results.scores ↔
          keys.map (written scores) = pass.results.scores.take keys.length)) := by
  intro gathering
  obtain ⟨⟨features, busy⟩, cases⟩ := build_eq_error failed
  have run := result_score_of_failed known features busy failed
  rcases cases with gathered | ⟨scores, seen, calls, gathered, projected⟩
  · obtain ⟨calls, same⟩ :=
      (consults_gather index reference scorer.referenceHash scorer.settings).onlyAsks pass
    rw [gathered] at same
    obtain rfl : final = { pass with calls } := same
    exact ⟨run, rfl, rfl, .inl ⟨gathered, rfl⟩⟩
  · obtain ⟨keys, interrupted⟩ := exists_interrupted projected
    exact ⟨run, interrupted.top, interrupted.items,
      .inr ⟨scores, seen, calls, keys, gathered, interrupted, interrupted.scores_eq_iff⟩⟩

end Failed

section Images

/-- The neighbors of two images, the most relevant first. -/
def twoNeighbors : List (Datum × Number .binary64) :=
  [(.scalar (.text "ka"), 1), (.scalar (.text "kb"), .finite (1 / 2))]

/-- An index of the two images, in which only scalars can be looked up. -/
def twoImages : CaseIndex Datum Datum ContentHash .binary64 :=
  IndexTables.index
    { neighbors := twoNeighbors
      keys := [(.text "a", .scalar (.text "ka")), (.text "b", .scalar (.text "kb"))] }

/-- A scorer in the standard settings that compares no hashes. -/
def plainScorer : Scorer ContentHash .binary64 :=
  ⟨some [1, .finite 2], none, .standard .binary64⟩

/-- The two images with a list between them, which cannot be looked up, before they are scored. -/
def spoiledImages : Pass Datum Datum .binary64 where
  results := .ofItems [.scalar (.text "a"), .list [.scalar (.text "x")], .scalar (.text "b")]
    (.finite 7)

/-- The scores of the two images by key. -/
def twoScores : List (Datum × Number .binary64) :=
  [(.scalar (.text "ka"), .finite 100), (.scalar (.text "kb"), .finite 98)]

/-- The images after the call: the score of the first one has been written. -/
def halfScoredImages (calls : List (IndexCall Datum Datum)) : Pass Datum Datum .binary64 where
  results := ⟨#[⟨.scalar (.text "a"), .finite 100⟩, ⟨.list [.scalar (.text "x")], .finite 7⟩,
    ⟨.scalar (.text "b"), .finite 7⟩]⟩
  calls := .key (.list [.scalar (.text "x")]) :: .key (.scalar (.text "a")) :: calls

/-- No hash is compared. -/
private def noHash (_ : Datum) : Except Fault (Option ContentHash) := .ok none

private theorem accepted_twoNeighbors :
    accepted plainScorer.settings (neighborScore plainScorer.settings 2 none noHash) twoNeighbors =
      twoScores := by
  decide +kernel

private theorem result_gather_spoiledImages :
    ∃ seen calls, (gather twoImages [1, .finite 2] plainScorer.referenceHash
        plainScorer.settings).result spoiledImages =
      (.ok (twoScores, seen), { spoiledImages with calls }) := by
  have found : twoImages.nearest spoiledImages.calls [1, .finite 2]
      plainScorer.settings.maxResults = .ok twoNeighbors := by rfl
  have ranked : Ranking.rank twoNeighbors = twoNeighbors :=
    Ranking.rank_of_pairwise (by decide +kernel) (by decide +kernel)
  rw [gather, Attempt.result_bind_ok (result_queryNeighbors found), ranked, ← accepted_twoNeighbors]
  exact result_scanFrom (by decide) (by decide +kernel) (by decide +kernel) (fun _ _ => .inl rfl)
    (fun _ _ => Relevance.isNaN_scoreOf Settings.isSound_standard _ _ _) (by decide +kernel)
    (by decide +kernel) 0 _

private theorem exists_failed_spoiledImages :
    ∃ seen calls,
      (gather twoImages [1, .finite 2] plainScorer.referenceHash plainScorer.settings).result
        spoiledImages = (.ok (twoScores, seen), { spoiledImages with calls }) ∧
      (project twoImages twoScores).result { spoiledImages with calls } =
        (.error .wrongKind, halfScoredImages calls) ∧
      (build twoImages (some [1, .finite 2]) plainScorer.referenceHash
        plainScorer.settings).result spoiledImages =
        (.error .wrongKind, halfScoredImages calls) := by
  obtain ⟨seen, calls, gathered⟩ := result_gather_spoiledImages
  have projected : (project twoImages twoScores).result { spoiledImages with calls } =
      (.error .wrongKind, halfScoredImages calls) := by rfl
  refine ⟨seen, calls, gathered, projected, ?_⟩
  rw [build_eq_gather (by simp) (by decide), Attempt.result_bind_ok gathered,
    Attempt.result_bind_error projected]

private theorem scores_halfScoredImages (calls : List (IndexCall Datum Datum)) :
    (halfScoredImages calls).results.scores ≠ spoiledImages.results.scores := by
  change [Number.finite 100, .finite 7, .finite 7] ≠ [Number.finite 7, .finite 7, .finite 7]
  decide +kernel

/-- The call fails at the list, after the score of the image in front of it has been written. -/
theorem failed_build_spoiledImages :
    ∃ scores calls keys final,
      (plainScorer.score twoImages).result spoiledImages = (.error .wrongKind, final) ∧
      Interrupted twoImages scores { spoiledImages with calls } .wrongKind keys final ∧
      keys.map (written scores) ≠ spoiledImages.results.scores.take keys.length := by
  obtain ⟨seen, calls, -, -, failed⟩ := exists_failed_spoiledImages
  obtain ⟨run, -, -, ⟨-, same⟩ | ⟨scores, seen, calls', keys, -, interrupted, kept⟩⟩ :=
    failed_build rfl failed
  · exact absurd (congrArg ResultSet.scores same) (scores_halfScoredImages calls)
  · exact ⟨scores, calls', keys, _, run, interrupted, mt kept.mpr (scores_halfScoredImages calls)⟩

/-- So a pass that fails in the projection does not always leave the scores alone. -/
theorem front_is_overwritten :
    ¬ ∀ (index : CaseIndex Datum Datum ContentHash .binary64)
        (scorer : Scorer ContentHash .binary64) (reference : FeatureVector .binary64)
        (pass gathered final : Pass Datum Datum .binary64)
        (scores : List (Datum × Number .binary64)) (seen : ℕ) (fault : Fault),
      scorer.reference = some reference →
      (gather index reference scorer.referenceHash scorer.settings).result pass =
        (.ok (scores, seen), gathered) →
      (project index scores).result gathered = (.error fault, final) →
      (build index (some reference) scorer.referenceHash scorer.settings).result pass =
        (.error fault, final) →
      final.results.scores = pass.results.scores := by
  intro always
  obtain ⟨seen, calls, gathered, projected, failed⟩ := exists_failed_spoiledImages
  exact scores_halfScoredImages calls
    (always _ plainScorer _ _ _ _ _ _ _ rfl gathered projected failed)

end Images

end Scorer

end Lookalike
