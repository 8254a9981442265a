import Lookalike.Proofs.ScoreMap.Answers

/-!
# Turns of a scan

A scan takes neighbors one after the other. Each turn puts a score and goes on, or it ends the scan:
well, where the storage fails or the score is too low, or in a fault. A run of turns that go on can
be taken at once, so the turn at which a scan halts tells the scores, the questions and the end of
the whole scan.

## Main definitions

* `ScoreMap.hashQuestions`, the questions for the content hashes of neighbors
* `ScoreMap.GoesPast`, that a scan goes on past some neighbors
* `ScoreMap.Halts`, where and how a scan halts
* `ScoreMap.FailsAt`, that a look-up fails at a neighbor that the scan has got to

## Main statements

* `ScoreMap.callsBefore_eq`, `ScoreMap.result_scanFrom_of_goesPast`
* `ScoreMap.exists_halts`, `ScoreMap.Halts.result_scanFrom`
-/

namespace Lookalike.ScoreMap

variable {Item Key Hash : Type} {F : Format} {index : CaseIndex Item Key Hash F} {features : Int}
  {referenceHash : Option Hash} {settings : Settings F} {calls : List (IndexCall Item Key)}
  {neighbor : Key × Number F} {neighbors rest : List (Key × Number F)} {k : ℕ}

/-- The questions for the content hashes of those neighbors that are compared, in order. -/
def hashQuestions (settings : Settings F) (referenceHash : Option Hash)
    (neighbors : List (Key × Number F)) : List (IndexCall Item Key) :=
  (neighbors.filter (isCompared settings referenceHash)).map fun neighbor => .hash neighbor.1

/-- What has been asked before a turn are the hashes of the neighbors in front, the latest first. -/
theorem callsBefore_eq (settings : Settings F) (referenceHash : Option Hash)
    (calls : List (IndexCall Item Key)) (neighbors : List (Key × Number F)) (k : ℕ) :
    callsBefore settings referenceHash calls neighbors k =
      (hashQuestions settings referenceHash (neighbors.take k)).reverse ++ calls := by
  rw [callsBefore]
  generalize neighbors.take k = front
  -- The first neighbor is asked for first, so its question stands under all the others.
  induction front generalizing calls with
  | nil => rfl
  | cons neighbor rest ih =>
    rw [List.foldl_cons, ih, hashQuestions, hashQuestions]
    cases compared : isCompared settings referenceHash neighbor with
    | true =>
      have asked : callsAfter settings referenceHash calls neighbor = .hash neighbor.1 :: calls :=
        if_pos compared
      rw [asked, List.filter_cons_of_pos compared]
      simp
    | false =>
      have idle : callsAfter settings referenceHash calls neighbor = calls := by
        rw [callsAfter]
        exact if_neg (by rw [← isCompared, compared]; exact Bool.false_ne_true)
      rw [idle, List.filter_cons_of_neg (by rw [compared]; exact Bool.false_ne_true)]

theorem callsBefore_succ (found : neighbors[k]? = some neighbor) :
    callsBefore settings referenceHash calls neighbors (k + 1) =
      callsAfter settings referenceHash (callsBefore settings referenceHash calls neighbors k)
        neighbor := by
  rw [callsBefore, List.take_add_one, found, List.foldl_append]
  rfl

variable [BEq Hash]

variable [TableKey Key]

/-- A scan goes on past the first `k` neighbors. -/
def GoesPast (index : CaseIndex Item Key Hash F) (features : Int) (referenceHash : Option Hash)
    (settings : Settings F) (calls : List (IndexCall Item Key)) (neighbors : List (Key × Number F))
    (k : ℕ) : Prop :=
  ∀ i < k, ∀ neighbor, neighbors[i]? = some neighbor →
    ending index features referenceHash settings
      (callsBefore settings referenceHash calls neighbors i) neighbor = none

theorem goesPast_succ_cons :
    GoesPast index features referenceHash settings calls (neighbor :: rest) (k + 1) ↔
      ending index features referenceHash settings calls neighbor = none ∧
        GoesPast index features referenceHash settings
          (callsAfter settings referenceHash calls neighbor) rest k := by
  constructor
  · intro past
    exact ⟨past 0 (Nat.succ_pos k) neighbor rfl,
      fun i below other found => past (i + 1) (Nat.succ_lt_succ below) other found⟩
  · rintro ⟨first, past⟩ i below other found
    cases i with
    | zero =>
      obtain rfl : neighbor = other := Option.some.inj found
      exact first
    | succ i => exact past i (Nat.lt_of_succ_lt_succ below) other found

/-- What a scan goes past, it goes past in every list that begins alike. -/
theorem GoesPast.take
    (past : GoesPast index features referenceHash settings calls neighbors k) :
    GoesPast index features referenceHash settings calls (neighbors.take k) k := by
  intro i below neighbor found
  rw [List.getElem?_take_of_lt below] at found
  rw [callsBefore, List.take_take, min_eq_left below.le]
  exact past i below neighbor found

/-- Where and how a scan halts: it goes past the first `k` neighbors, which are all, or it ends at
the next one. -/
structure Halts (index : CaseIndex Item Key Hash F) (features : Int) (referenceHash : Option Hash)
    (settings : Settings F) (calls : List (IndexCall Item Key)) (neighbors : List (Key × Number F))
    (k : ℕ) (ended : Except Fault Unit) : Prop where
  within : k ≤ neighbors.length
  past : GoesPast index features referenceHash settings calls neighbors k
  halts : k = neighbors.length ∧ ended = .ok () ∨ ∃ neighbor, neighbors[k]? = some neighbor ∧
    ending index features referenceHash settings
      (callsBefore settings referenceHash calls neighbors k) neighbor = some ended

/-- Every scan halts somewhere. The induction is on the neighbors to come. -/
theorem exists_halts (index : CaseIndex Item Key Hash F) (features : Int)
    (referenceHash : Option Hash) (settings : Settings F) (calls : List (IndexCall Item Key))
    (neighbors : List (Key × Number F)) :
    ∃ k ended, Halts index features referenceHash settings calls neighbors k ended := by
  induction neighbors generalizing calls with
  | nil => exact ⟨0, .ok (), le_rfl, by simp [GoesPast], .inl ⟨rfl, rfl⟩⟩
  | cons neighbor rest ih =>
    cases turn : ending index features referenceHash settings calls neighbor with
    | some ended => exact ⟨0, ended, Nat.zero_le _, by simp [GoesPast], .inr ⟨neighbor, rfl, turn⟩⟩
    | none =>
      obtain ⟨k, ended, within, past, halts⟩ :=
        ih (callsAfter settings referenceHash calls neighbor)
      refine ⟨k + 1, ended, Nat.succ_le_succ within, goesPast_succ_cons.mpr ⟨turn, past⟩, ?_⟩
      rcases halts with ⟨whole, well⟩ | found
      · exact .inl ⟨congrArg Nat.succ whole, well⟩
      · exact .inr found

section Run

variable [BEq Key] {scores : List (Key × Number F)} {seen : ℕ} {pass : Pass Item Key F}
  (positive : 0 < features) (finite : (Number.ofInt F features).isFinite)

include positive finite

/-- The turns that go on put their scores. The induction is on their number. -/
theorem result_scanFrom_of_goesPast (within : k ≤ neighbors.length)
    (past : GoesPast index features referenceHash settings pass.calls neighbors k) :
    (scanFrom index features referenceHash settings scores seen neighbors).result pass =
      (scanFrom index features referenceHash settings
        (putAll scores
          ((scored index features referenceHash settings pass.calls neighbors).take k))
        (seen + k) (neighbors.drop k)).result
        { pass with calls := callsBefore settings referenceHash pass.calls neighbors k } := by
  induction k generalizing neighbors scores seen pass with
  | zero => rfl
  | succ k ih =>
    cases neighbors with
    | nil => cases within
    | cons neighbor rest =>
      obtain ⟨first, past⟩ := goesPast_succ_cons.mp past
      have count : seen + (k + 1) = seen + 1 + k := by omega
      rw [result_scanFrom_cons positive finite, first, List.drop_succ_cons, scored_cons,
        List.take_succ_cons, count]
      refine ih (Nat.le_of_succ_le_succ within) ?_
      exact past

/-- A scan ends as its last turn does, with the scores of the neighbors in front of it. -/
theorem Halts.result_scanFrom {ended : Except Fault Unit}
    (halts : Halts index features referenceHash settings pass.calls neighbors k ended) :
    (scanFrom index features referenceHash settings scores seen neighbors).result pass =
      (ended.map fun _ =>
        (putAll scores
          ((scored index features referenceHash settings pass.calls neighbors).take k),
          seen + (neighbors.take (k + 1)).length),
        { pass with
          calls := callsBefore settings referenceHash pass.calls neighbors (k + 1) }) := by
  rw [result_scanFrom_of_goesPast positive finite halts.within halts.past]
  rcases halts.halts with ⟨rfl, rfl⟩ | ⟨neighbor, found, turn⟩
  · have whole : neighbors.take (neighbors.length + 1) = neighbors :=
      List.take_of_length_le (Nat.le_succ _)
    rw [List.drop_length, whole, callsBefore, callsBefore, whole, List.take_length]
    rfl
  · obtain ⟨inside, rfl⟩ := List.getElem?_eq_some_iff.mp found
    have length : (neighbors.take (k + 1)).length = k + 1 :=
      List.length_take_of_le inside
    rw [List.drop_eq_getElem_cons inside, result_scanFrom_cons positive finite, turn,
      callsBefore_succ found, length]
    rfl

end Run

/-- A scan goes on to a neighbor at which a look-up is made and fails. -/
def FailsAt (index : CaseIndex Item Key Hash F) (features : Int) (referenceHash : Option Hash)
    (settings : Settings F) (calls : List (IndexCall Item Key)) (neighbors : List (Key × Number F))
    (k : ℕ) (fault : Fault) : Prop :=
  GoesPast index features referenceHash settings calls neighbors k ∧
    ∃ neighbor, neighbors[k]? = some neighbor ∧
      lookupFault? settings referenceHash
        (index.hash (callsBefore settings referenceHash calls neighbors k) neighbor.1) neighbor =
          some fault

namespace FailsAt

variable {fault : Fault}

theorem lt_length (fails : FailsAt index features referenceHash settings calls neighbors k fault) :
    k < neighbors.length := by
  obtain ⟨-, neighbor, found, -⟩ := fails
  exact (List.getElem?_eq_some_iff.mp found).1

/-- Where a look-up fails in another way, the scan ends in the fault. -/
theorem halts_of_other (other : ∀ kind detail, fault ≠ .storage kind detail)
    (fails : FailsAt index features referenceHash settings calls neighbors k fault) :
    Halts index features referenceHash settings calls neighbors k (.error fault) := by
  have within := fails.lt_length
  obtain ⟨past, neighbor, found, failed⟩ := fails
  refine ⟨within.le, past, .inr ⟨neighbor, found, ?_⟩⟩
  rw [ending, failed]
  split
  next kind detail same => exact absurd (Option.some.inj same) (other kind detail)
  next fault' _ same => rw [Option.some.inj same]
  next none => cases none

end FailsAt

end Lookalike.ScoreMap
