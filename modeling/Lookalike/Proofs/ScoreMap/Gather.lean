import Lookalike.Proofs.ScoreMap.Answers

/-!
# The part of a scoring pass in front of the projection

A pass first gathers scores: it queries the neighbors and scans them. All this does nothing but ask
the index. With an index whose answers are functions of the questions it comes to the same scores in
every state, and the projection writes the same score wherever the same item stands.

## Main definitions

* `ScoreMap.gather`, the part of a pass in front of the projection
* `CaseIndex.keyOf`, the key of an item of a steady index

## Main statements

* `ScoreMap.build_eq_gather`, `ScoreMap.consults_gather`
* `ScoreMap.accepts_of_scanFrom`, `ScoreMap.build_of_steady`
-/

namespace Lookalike

variable {Item Key Hash : Type} {F : Format} {index : CaseIndex Item Key Hash F}

/-- The key of an item of an index whose answers do not depend on the questions put before. -/
def CaseIndex.keyOf (index : CaseIndex Item Key Hash F) (item : Item) : Option Key :=
  match index.key [] item with
  | .ok key => key
  | .error _ => none

namespace ScoreMap

open Scoring

section Consults

theorem consults_queryNeighbors (index : CaseIndex Item Key Hash F) (reference : FeatureVector F)
    (settings : Settings F) : Consults index (queryNeighbors index reference settings) := by
  refine .bind (.outcome (.nearest _ _)) fun answer => ?_
  rcases answer with fault | neighbors
  · cases fault <;> exact .throw _
  · exact .pure _

theorem consults_isDuplicate [BEq Hash] (index : CaseIndex Item Key Hash F)
    (referenceHash : Option Hash) (key : Key) :
    Consults index (isDuplicate index referenceHash key) := by
  cases referenceHash with
  | none => exact .pure false
  | some reference =>
    refine .bind (.outcome (.hash key)) fun answer => ?_
    rcases answer with fault | hash
    · cases fault with
      | hashLookup detail => exact .pure false
      | _ => exact .throw _
    · cases hash <;> exact .pure _

theorem consults_displayScore {settings : Settings F} {features : Int} {relevance : Number F}
    {isDuplicate : Scoring Item Key F Bool} (consults : Consults index isDuplicate) :
    Consults index (Relevance.displayScore settings features relevance isDuplicate) := by
  simp only [Relevance.displayScore]
  cases Relevance.formulaScore settings features (Relevance.toDistance relevance) with
  | error fault => exact .throw fault
  | ok score =>
    dsimp only
    split
    · refine .bind consults fun copy => ?_
      cases copy <;> exact .pure _
    · exact .pure score

variable [BEq Key] [TableKey Key] [BEq Hash]

/-- A scan goes by what it is answered. The induction is on the neighbors to come, with whatever
scores have been accepted before. -/
theorem consults_scanFrom (index : CaseIndex Item Key Hash F) (features : Int)
    (referenceHash : Option Hash) (settings : Settings F) (neighbors : List (Key × Number F)) :
    ∀ scores seen,
      Consults index (scanFrom index features referenceHash settings scores seen neighbors) := by
  induction neighbors with
  | nil => exact fun scores seen => .pure _
  | cons neighbor rest ih =>
    intro scores seen
    refine .bind (.outcome (consults_displayScore (consults_isDuplicate index referenceHash _)))
      fun outcome => ?_
    rcases outcome with fault | score
    · cases fault with
      | storage kind detail => exact .pure _
      | _ => exact .throw _
    · dsimp only
      split_ifs
      · exact .pure _
      · exact .throw _
      · exact ih _ _

theorem consults_scan (index : CaseIndex Item Key Hash F) (features : Int)
    (referenceHash : Option Hash) (settings : Settings F) (neighbors : List (Key × Number F)) :
    Consults index (scan index features referenceHash settings neighbors) :=
  consults_scanFrom index features referenceHash settings neighbors [] 0

/-- The part of a scoring pass in front of the projection: the neighbors are queried and scanned. -/
def gather (index : CaseIndex Item Key Hash F) (reference : FeatureVector F)
    (referenceHash : Option Hash) (settings : Settings F) :
    Scoring Item Key F (List (Key × Number F) × Nat) := do
  let neighbors ← queryNeighbors index reference settings
  scan index reference.length referenceHash settings neighbors

theorem consults_gather (index : CaseIndex Item Key Hash F) (reference : FeatureVector F)
    (referenceHash : Option Hash) (settings : Settings F) :
    Consults index (gather index reference referenceHash settings) :=
  .bind (consults_queryNeighbors index reference settings) fun neighbors =>
    consults_scan index _ referenceHash settings neighbors

end Consults

section Build

variable [BEq Key] [TableKey Key] [BEq Hash] {reference : FeatureVector F}
  {referenceHash : Option Hash} {settings : Settings F} {pass primary : Pass Item Key F}
  {map : ScoreMap Key F}

/-- A scan accepts plain scores only, and none below the least one. The induction is on the
neighbors to come. -/
theorem accepts_of_scanFrom (sound : settings.IsSound) {features : Int}
    {neighbors scores scores' : List (Key × Number F)} {seen seen' : ℕ} {pass' : Pass Item Key F}
    (before : ∀ entry ∈ scores, entry.2.IsPlain ∧ settings.minScore ≤ entry.2)
    (run : (scanFrom index features referenceHash settings scores seen neighbors).result pass =
      (.ok (scores', seen'), pass')) :
    ∀ entry ∈ scores', entry.2.IsPlain ∧ settings.minScore ≤ entry.2 := by
  induction neighbors generalizing scores seen pass with
  | nil =>
    cases run
    exact before
  | cons neighbor rest ih =>
    rw [scanFrom, Attempt.result_bind_ok (Attempt.result_outcome _ _)] at run
    cases scored : (Relevance.displayScore settings features neighbor.2
      (isDuplicate index referenceHash neighbor.1)).result pass with
    | mk outcome passed =>
      rw [scored] at run
      cases outcome with
      | error fault =>
        cases fault with
        | storage kind detail =>
          cases run
          exact before
        | _ => cases run
      | ok score =>
        dsimp only at run
        split at run
        · cases run
          exact before
        next reaches =>
          split at run
          · cases run
          · have plain := Relevance.isPlain_of_displayScore sound scored
            have least := (Number.le_iff_place.mp sound.minScore).2.1
            refine ih (fun entry member => ?_) run
            rcases mem_of_mem_putEntry member with old | put
            · exact before entry old
            · rw [put]
              exact ⟨plain, (Number.not_lt plain.isNaN least).mp reaches⟩

/-- A pass that has something to score gathers scores and projects them. -/
theorem build_eq_gather (features : reference ≠ []) (busy : pass.results.size ≠ 0) :
    (build index (some reference) referenceHash settings).result pass =
      (gather index reference referenceHash settings >>= fun gathered =>
        project index gathered.1 >>= fun matched =>
          pure ⟨gathered.1, matched, gathered.2⟩ : Scoring Item Key F (ScoreMap Key F)).result
        pass := by
  have busy' : (reference.length == 0 || pass.results.size == 0) = false := by
    simp [features, busy]
  change (buildCounting index reference.length reference referenceHash settings).result pass = _
  -- The three steps are the same, in another grouping.
  rw [buildCounting, Attempt.result_bind_ok (Attempt.result_get pass)]
  simp only [busy', Bool.false_eq_true, if_false, gather, bind_assoc]

omit [BEq Key] [TableKey Key] [BEq Hash] in
/-- A steady index tells the keys of items whatever it has been asked before. -/
theorem toldKeys_eq_ok (steady : index.Steady) {calls : List (IndexCall Item Key)}
    {items : List Item} {keys : List (Option Key)} (told : toldKeys index calls items = .ok keys) :
    keys = items.map index.keyOf ∧
      ∀ item ∈ items, ∀ calls, index.key calls item = .ok (index.keyOf item) := by
  induction items generalizing calls keys with
  | nil =>
    cases told
    exact ⟨rfl, by simp⟩
  | cons item rest ih =>
    obtain ⟨key, answered, told⟩ := exists_of_bind_eq_ok told
    obtain ⟨others, rest_told, done⟩ := exists_of_bind_eq_ok told
    cases done
    obtain ⟨rfl, known⟩ := ih rest_told
    obtain rfl : index.keyOf item = key := by
      rw [CaseIndex.keyOf, steady.key [] calls, answered]
    rw [List.forall_mem_cons]
    exact ⟨rfl, fun calls' => (steady.key calls' calls item).trans answered, known⟩

/-- With a steady index a pass comes to the scores that are gathered in any state, and every item
has the score of its key. -/
theorem build_of_steady (steady : index.Steady) (sound : settings.IsSound)
    (features : reference ≠ []) (busy : pass.results.size ≠ 0)
    (built : (build index (some reference) referenceHash settings).result pass =
      (.ok map, primary)) (start : Pass Item Key F) :
    ((gather index reference referenceHash settings).result start).1 = .ok (map.byKey, map.seen) ∧
      (∀ entry ∈ map.byKey, entry.2.IsPlain) ∧
      primary.results.items = pass.results.items ∧
      Projected map.byKey (pass.results.items.map index.keyOf) map.matched primary.results ∧
      ∀ item ∈ pass.results.items, ∀ calls, index.key calls item = .ok (index.keyOf item) := by
  rw [build_eq_gather features busy] at built
  obtain ⟨⟨byKey, seen⟩, passed, gathered, built⟩ := Attempt.bind_eq_ok built
  obtain ⟨matched, projected, run, done⟩ := Attempt.bind_eq_ok built
  cases done
  -- What is gathered leaves the result set to the projection as it was.
  have consults := consults_gather index reference referenceHash settings
  obtain ⟨calls, same⟩ := consults.onlyAsks pass
  rw [gathered] at same
  obtain rfl : passed = { pass with calls } := same
  rw [project, Attempt.result_bind_ok (Attempt.result_get _)] at run
  obtain ⟨keys, told, matched_eq, items, scores⟩ :=
    projectFrom_eq_ok (by rw [ResultSet.length_items, Nat.zero_add]) run
  obtain ⟨rfl, known⟩ := toldKeys_eq_ok steady told
  obtain ⟨neighbors, _, -, scanned⟩ := Attempt.bind_eq_ok gathered
  have accepts := accepts_of_scanFrom sound (by simp) scanned
  refine ⟨?_, fun entry member => (accepts entry member).1, items, ⟨matched_eq, scores⟩, known⟩
  rw [consults.outcome_eq steady start pass, gathered]

end Build

end ScoreMap

end Lookalike
