import Mathlib.Data.List.TakeWhile
import Lookalike.ScoreMap
import Lookalike.Proofs.CaseIndex
import Lookalike.Proofs.Entries
import Lookalike.Proofs.Ranking
import Lookalike.Proofs.Relevance

/-!
# What a scan accepts

Where every hash that is asked for is answered, or cannot be fetched for the moment, a scan accepts
the neighbors in front of the first whose score falls below the least one, each with its score, and
leaves the result set alone.

## Main definitions

* `ScoreMap.isCopy`, whether a content hash is that of the reference
* `ScoreMap.Answered`, that the hash of a key is told by a function
* `ScoreMap.accepted`, the neighbors that a scan accepts

## Main statements

* `ScoreMap.result_displayScore_isDuplicate`, `ScoreMap.result_scanFrom`
-/

namespace Lookalike.ScoreMap

variable {Item Key Hash : Type} {F : Format} {index : CaseIndex Item Key Hash F}

/-- Whether the answer to a question for a content hash is the hash of the reference. -/
def isCopy [BEq Hash] (referenceHash : Option Hash) (answer : Except Fault (Option Hash)) : Bool :=
  match referenceHash, answer with
  | some reference, .ok (some hash) => hash == reference
  | _, _ => false

theorem isCopy_iff [BEq Hash] {referenceHash : Option Hash}
    {answer : Except Fault (Option Hash)} :
    isCopy referenceHash answer ↔ ∃ reference hash, referenceHash = some reference ∧
      answer = .ok (some hash) ∧ hash == reference := by
  constructor
  · intro copy
    unfold isCopy at copy
    split at copy
    next reference hash => exact ⟨reference, hash, rfl, rfl, copy⟩
    next => cases copy
  · rintro ⟨reference, hash, rfl, rfl, same⟩
    exact same

/-- The hash of a key is told, or it cannot be fetched for the moment, whatever has been asked
before. -/
structure Answered (index : CaseIndex Item Key Hash F) (key : Key)
    (answer : Except Fault (Option Hash)) : Prop where
  answers : ∀ calls, index.hash calls key = answer
  told : (∃ hash, answer = .ok hash) ∨ ∃ detail, answer = .error (.hashLookup detail)

/-- The comparison with the reference succeeds and changes nothing but the record of questions. -/
theorem result_isDuplicate [BEq Hash] {referenceHash : Option Hash} {key : Key}
    {answer : Except Fault (Option Hash)}
    (answered : referenceHash = none ∨ Answered index key answer) (pass : Pass Item Key F) :
    ∃ calls, (isDuplicate index referenceHash key).result pass =
      (.ok (isCopy referenceHash answer), { pass with calls }) := by
  cases referenceHash with
  | none => exact ⟨pass.calls, rfl⟩
  | some reference =>
    obtain ⟨answers, told⟩ := answered.resolve_left (Option.some_ne_none _)
    have asked : (Attempt.outcome (index.askHash key)).result pass =
        (.ok answer, { pass with calls := .hash key :: pass.calls }) := by
      rw [Attempt.result_outcome, CaseIndex.askHash, CaseIndex.result_ask, answers]
    refine ⟨.hash key :: pass.calls, ?_⟩
    simp only [isDuplicate]
    rw [Attempt.result_bind_ok asked]
    -- A hash, no hash, or a hash that cannot be fetched for the moment.
    rcases told with ⟨_ | hash, rfl⟩ | ⟨detail, rfl⟩ <;> rfl

/-- The neighbors in front of the first whose score falls below the least one, with their scores. -/
def accepted (settings : Settings F) (score : Key × Number F → Number F)
    (neighbors : List (Key × Number F)) : List (Key × Number F) :=
  (neighbors.takeWhile fun neighbor => decide (settings.minScore ≤ score neighbor)).map
    fun neighbor => (neighbor.1, score neighbor)

section Accepted

variable {settings : Settings F} {score : Key × Number F → Number F} {neighbor : Key × Number F}
  {rest : List (Key × Number F)}

theorem accepted_cons_of_le (reaches : settings.minScore ≤ score neighbor) :
    accepted settings score (neighbor :: rest) =
      (neighbor.1, score neighbor) :: accepted settings score rest := by
  simp only [accepted, List.takeWhile_cons, reaches, decide_true, if_true, List.map_cons]

theorem accepted_cons_of_not_le (below : ¬ settings.minScore ≤ score neighbor) :
    accepted settings score (neighbor :: rest) = [] := by
  simp [accepted, below]

variable {neighbors : List (Key × Number F)} {key : Key}

/-- What is accepted reaches the least score. -/
theorem minScore_le_of_mem_accepted {entry : Key × Number F}
    (member : entry ∈ accepted settings score neighbors) : settings.minScore ≤ entry.2 := by
  obtain ⟨neighbor, kept, rfl⟩ := List.mem_map.mp member
  have passed := List.mem_takeWhile_imp kept
  exact of_decide_eq_true passed

variable [BEq Key]

/-- A neighbor that is accepted is found under its key with its score. It is accepted where it
reaches the least score and so does whatever stands in front of it. -/
theorem lookup_accepted_of_le [EquivBEq Key]
    (distinct : (neighbors.map (·.1)).Pairwise fun a b => (a == b) = false)
    (member : neighbor ∈ neighbors) (same : key == neighbor.1)
    (reaches : settings.minScore ≤ score neighbor)
    (inFront : neighbors.Pairwise fun a b => b = neighbor → settings.minScore ≤ score a) :
    (accepted settings score neighbors).lookup key = some (score neighbor) := by
  have kept : neighbor ∈ neighbors.takeWhile fun neighbor =>
      decide (settings.minScore ≤ score neighbor) :=
    Ranking.mem_takeWhile_of_pairwise member (decide_eq_true reaches)
      (inFront.imp fun reaches is => decide_eq_true (reaches is))
  have apart : (accepted settings score neighbors).Pairwise fun a b => (a.1 == b.1) = false := by
    rw [accepted, List.pairwise_map]
    exact (List.pairwise_map.mp distinct).sublist (List.takeWhile_sublist _)
  have listed : (neighbor.1, score neighbor) ∈ accepted settings score neighbors :=
    List.mem_map_of_mem kept
  exact lookup_of_beq apart listed same

/-- A key is not found where no neighbor that has it reaches the least score. -/
theorem lookup_accepted_eq_none
    (below : ∀ neighbor ∈ neighbors, key == neighbor.1 → ¬ settings.minScore ≤ score neighbor) :
    (accepted settings score neighbors).lookup key = none := by
  rw [Option.eq_none_iff_forall_ne_some]
  intro value found
  obtain ⟨entry, member, same, -⟩ := exists_of_lookup_eq_some found
  obtain ⟨neighbor, kept, rfl⟩ := List.mem_map.mp member
  have passed := List.mem_takeWhile_imp kept
  exact below neighbor ((List.takeWhile_sublist _).subset kept) same (of_decide_eq_true passed)

end Accepted

section Scan

variable [BEq Hash] {features : Int} {referenceHash : Option Hash}
  {settings : Settings F} {hashOf : Key → Except Fault (Option Hash)}

/-- The score of a neighbor whose hash is told by a function. -/
def neighborScore (settings : Settings F) (features : Int) (referenceHash : Option Hash)
    (hashOf : Key → Except Fault (Option Hash)) (neighbor : Key × Number F) : Number F :=
  Relevance.scoreOf settings (Number.ofInt F features) neighbor.2
    (isCopy referenceHash (hashOf neighbor.1))

/-- The score of a neighbor is told, and nothing but the record of questions changes. -/
theorem result_displayScore_isDuplicate (settings : Settings F) (positive : 0 < features)
    (finite : (Number.ofInt F features).isFinite) {neighbor : Key × Number F}
    (answered : referenceHash = none ∨ Answered index neighbor.1 (hashOf neighbor.1))
    (pass : Pass Item Key F) :
    ∃ calls, (Relevance.displayScore settings features neighbor.2
        (isDuplicate index referenceHash neighbor.1)).result pass =
      (.ok (neighborScore settings features referenceHash hashOf neighbor),
        { pass with calls }) := by
  obtain ⟨calls, compared⟩ := result_isDuplicate answered pass
  rw [Relevance.result_displayScore positive finite compared]
  split_ifs
  · exact ⟨calls, rfl⟩
  · exact ⟨pass.calls, rfl⟩

/-- A scan accepts neighbors up to the first whose score falls below the least one. The induction is
on the neighbors; what has been accepted before stays in front. -/
theorem result_scanFrom [BEq Key] [PartialEquivBEq Key] [TableKey Key]
    (positive : 0 < features)
    (finite : (Number.ofInt F features).isFinite) (minScore : settings.minScore.isNaN = false)
    {scores neighbors : List (Key × Number F)}
    (answered : ∀ neighbor ∈ neighbors,
      referenceHash = none ∨ Answered index neighbor.1 (hashOf neighbor.1))
    (numbers : ∀ neighbor ∈ neighbors,
      (neighborScore settings features referenceHash hashOf neighbor).isNaN = false)
    (hashable : ∀ neighbor ∈ neighbors, TableKey.isKey neighbor.1)
    (distinct : ((scores ++ neighbors).map (·.1)).Pairwise fun a b => (a == b) = false) (seen : ℕ)
    (pass : Pass Item Key F) :
    ∃ seen' calls,
      (scanFrom index features referenceHash settings scores seen neighbors).result pass =
        (.ok (scores ++ accepted settings (neighborScore settings features referenceHash hashOf)
          neighbors, seen'), { pass with calls }) := by
  induction neighbors generalizing scores seen pass with
  | nil => exact ⟨seen, pass.calls, by simp [scanFrom, accepted]⟩
  | cons neighbor rest ih =>
    obtain ⟨key, relevance⟩ := neighbor
    rw [List.forall_mem_cons] at answered numbers hashable
    have outcome := Attempt.result_outcome (Relevance.displayScore settings features relevance
      (isDuplicate index referenceHash key)) pass
    obtain ⟨calls, scored⟩ := result_displayScore_isDuplicate settings positive finite answered.1
      pass
    rw [scored] at outcome
    rw [scanFrom, Attempt.result_bind_ok outcome]
    -- An accepted score is put behind the others, and a low one ends the scan.
    by_cases reaches : settings.minScore ≤
        neighborScore settings features referenceHash hashOf (key, relevance)
    · have goesOn := Number.not_lt_of_le reaches
      have new : ∀ entry ∈ scores, (key == entry.1) = false := by
        intro entry member
        rw [BEq.comm]
        rw [List.map_append, List.pairwise_append] at distinct
        exact distinct.2.2 _ (List.mem_map_of_mem member) _ List.mem_cons_self
      have distinct' : ((scores ++ [(key, neighborScore settings features referenceHash hashOf
          (key, relevance))] ++ rest).map (·.1)).Pairwise fun a b => (a == b) = false := by
        simpa using distinct
      obtain ⟨seen', calls', scanned⟩ := ih answered.2 numbers.2 hashable.2 distinct' (seen + 1)
        { pass with calls }
      refine ⟨seen', calls', ?_⟩
      simp only [if_neg goesOn, hashable.1, putEntry_of_forall_ne new, accepted_cons_of_le reaches]
      rw [List.append_assoc] at scanned
      exact scanned
    · have below := (Number.not_le minScore numbers.1).mp reaches
      refine ⟨seen + 1, calls, ?_⟩
      simp only [if_pos below, accepted_cons_of_not_le reaches, List.append_nil]
      rfl

end Scan

end Lookalike.ScoreMap
