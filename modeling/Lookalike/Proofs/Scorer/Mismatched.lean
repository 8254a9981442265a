import Lookalike.Proofs.Scorer.Faults
import Lookalike.Proofs.Scorer.Questions
import Lookalike.Proofs.VectorStore.Listing

/-!
# References of another length

The rows of a store have one length, and a reference of that length is compared with them. Vectors
of different lengths have no square distance, and the flat and the listed search refuse a query of
another length. The exhaustive search subtracts vectors instead, which stretches a single feature to
the length of the other side. So it refuses a query of another length unless the query or the rows
have a single feature. A call whose reference is refused leaves the scores as they were.

## Main definitions

* `VectorStore.IsMatrix`, that all rows have the length that the store tells
* `VectorStore.Stretches`, that a store compares a query of another length all the same
* `VectorStore.stretched`, a vector stretched to a length
* `VectorStore.mismatch`, the fault by which a layout refuses a query
* `VectorStore.EndsRefused`, how a call ends whose reference is refused

## Main statements

* `VectorStore.isMatrix_of_create`
* `VectorStore.differences_eq_stretched`, `VectorStore.differences_eq_error`
* `VectorStore.refuses_wrong_length`
-/

namespace Lookalike

variable {F : Format}

/-- The parts of a list that is as long as all of them together have one length. -/
theorem NumberArray.length_of_mem_parts {α : Type} {length count : ℕ} {items part : List α}
    (whole : items.length = count * length) (member : part ∈ parts length count items) :
    part.length = length := by
  induction count generalizing items with
  | zero => cases member
  | succ count ih =>
    rw [Nat.succ_mul] at whole
    rcases List.mem_cons.mp member with rfl | member
    · rw [List.length_take]
      omega
    · refine ih ?_ member
      rw [List.length_drop]
      omega

namespace VectorStore

section Stored

/-- All rows of a store have the length that the store tells. -/
def IsMatrix (store : VectorStore F) : Prop :=
  ∀ row ∈ store.rows.toList, row.length = store.columns

instance (store : VectorStore F) : Decidable store.IsMatrix :=
  inferInstanceAs (Decidable (∀ row ∈ store.rows.toList, row.length = store.columns))

/-- A store is created from a whole array with rows of one length. -/
theorem isMatrix_of_create {array : NumberArray .exact} {handles : List Datum}
    {hashes : List (Scalar × Datum)} {layout : SearchLayout} {store : VectorStore F}
    (whole : array.values.length = array.shape.prod)
    (created : create array handles hashes layout = .ok store) : store.IsMatrix := by
  rw [create] at created
  cases matrix : array.rows? with
  | none =>
    rw [matrix] at created
    cases created
  | some found =>
    obtain ⟨columns, rows⟩ := found
    -- The rows are parts of an array that holds as many numbers as its shape asks for.
    have lengths : ∀ row ∈ rows, row.length = columns := by
      obtain ⟨shape, values⟩ := array
      unfold NumberArray.rows? at matrix
      split at matrix
      next count columns' shape_eq =>
        cases matrix
        obtain rfl : shape = [count, columns] := shape_eq
        intro row member
        refine NumberArray.length_of_mem_parts ?_ member
        simpa using whole
      next => cases matrix
    rw [matrix] at created
    dsimp only at created
    split at created
    · cases created
    · obtain ⟨known, -, created⟩ := exists_of_bind_eq_ok created
      cases created
      intro row member
      obtain ⟨vector, stored, rfl⟩ := List.mem_map.mp member
      rw [List.length_map, lengths vector stored]

end Stored

section Differences

variable {row query : FeatureVector F}

/-- A vector stretched to a length: a single feature is repeated, and any other vector is left as it
is. -/
def stretched (length : ℕ) : FeatureVector F → FeatureVector F
  | [feature] => List.replicate length feature
  | features => features

theorem map_sub_eq_zipWith (x : Number F.storage) :
    row.map (· - x) = List.zipWith (· - ·) row (List.replicate row.length x) := by
  induction row with
  | nil => rfl
  | cons feature rest ih =>
    rw [List.map_cons, List.length_cons, List.replicate_succ, List.zipWith_cons_cons, ih]

theorem map_sub_left_eq_zipWith (x : Number F.storage) :
    query.map (x - ·) = List.zipWith (· - ·) (List.replicate query.length x) query := by
  induction query with
  | nil => rfl
  | cons feature rest ih =>
    rw [List.map_cons, List.length_cons, List.replicate_succ, List.zipWith_cons_cons, ih]

/-- Vectors of one length are compared as they are, and a single feature is stretched. -/
theorem differences_eq_stretched
    (fits : row.length = query.length ∨ row.length = 1 ∨ query.length = 1) :
    differences row query = .ok (List.zipWith (· - ·) (stretched query.length row)
      (stretched row.length query)) := by
  -- A single feature of the query is looked for first, then one of the row.
  match row, query with
  | [], [x] | [y], [x] => rfl
  | y :: y' :: rest, [x] => exact congrArg Except.ok (map_sub_eq_zipWith x)
  | [y], [] => rfl
  | [y], x :: x' :: rest => exact congrArg Except.ok (map_sub_left_eq_zipWith y)
  | [], [] => rfl
  | [], x :: x' :: rest | y :: y' :: rest, [] => simp at fits
  | y :: y' :: rest, x :: x' :: rest' =>
    have same : (y :: y' :: rest).length = (x :: x' :: rest').length := by simpa using fits
    exact if_pos same

/-- Other vectors of different lengths are not compared. -/
theorem differences_eq_error (different : row.length ≠ query.length) (several : row.length ≠ 1)
    (several' : query.length ≠ 1) : differences row query = .error .unreadable := by
  match row, query with
  | _, [x] => exact absurd rfl several'
  | [y], _ => exact absurd rfl several
  | [], [] => exact absurd rfl different
  | [], x :: x' :: rest | y :: y' :: rest, [] => rfl
  | y :: y' :: rest, x :: x' :: rest' => exact if_neg different

end Differences

section Search

variable {store : VectorStore F} {query : FeatureVector F} {limit : ℤ}

/-- Whether a store compares a query of another length all the same: the exhaustive search stretches
a single feature. -/
def Stretches (store : VectorStore F) (query : FeatureVector F) : Prop :=
  store.layout = .exhaustive ∧ (store.columns = 1 ∨ query.length = 1)

/-- The fault by which a layout refuses a query of another length. -/
def mismatch : SearchLayout → Fault
  | .exhaustive => .unreadable
  | .flat | .listed => .wrongDimension

/-- The relevance of a row to a query, either of which is stretched to the length of the other. -/
def stretchedRelevance (query row : FeatureVector F) : Number F :=
  (Relevance.ofDistance (storedDistance (stretched query.length row)
    (stretched row.length query))).convert F

/-- A store that stretches finds as many rows as it is asked for, as relevant as stretching makes
them. -/
theorem exists_nearest_of_stretches (matrix : store.IsMatrix) (stretches : store.Stretches query)
    (calls : List (IndexCall Datum Datum)) (limit : ℤ) :
    ∃ neighbors, store.index.nearest calls query limit = .ok neighbors ∧
      neighbors.length = min limit.toNat store.size ∧
      ∀ neighbor ∈ neighbors, ∃ (row : ℕ) (vector : FeatureVector F),
        store.rows[row]? = some vector ∧
          neighbor = (rowKey row, stretchedRelevance query vector) := by
  obtain ⟨exhaustive, single⟩ := stretches
  have measured : ∀ row ∈ store.rows.toList,
      (differences row query).map Distance.sumOfSquares =
        .ok (storedDistance (stretched query.length row) (stretched row.length query)) := by
    intro row member
    have fits : row.length = query.length ∨ row.length = 1 ∨ query.length = 1 := by
      rw [matrix row member]
      exact .inr single
    rw [differences_eq_stretched fits]
    rfl
  refine ⟨_, nearest_of_distances exhaustive measured calls, ?_, ?_⟩
  · simp [nearestRows, size]
  · intro neighbor member
    obtain ⟨entry, listed, rfl⟩ := List.mem_map.mp member
    have known := getElem?_of_mem_nearestRows listed
    rw [List.getElem?_map, Array.getElem?_toList] at known
    obtain ⟨vector, found, measure⟩ := Option.map_eq_some_iff.mp known
    refine ⟨entry.1, vector, found, ?_⟩
    rw [← measure]
    rfl

/-- A store that does not stretch refuses a query of another length. -/
theorem nearest_of_mismatch (matrix : store.IsMatrix) (rigid : ¬ store.Stretches query)
    (stored : store.size ≠ 0) (wrong : query.length ≠ store.columns) (limited : 1 ≤ limit)
    (calls : List (IndexCall Datum Datum)) :
    store.index.nearest calls query limit = .error (mismatch store.layout) := by
  have something : ¬ (store.size = 0 ∨ limit ≤ 0) := by omega
  have refused : store.search query limit = .error (mismatch store.layout) := by
    rw [search]
    cases layout : store.layout with
    | exhaustive =>
      have several : store.columns ≠ 1 ∧ query.length ≠ 1 := by
        rw [← not_or]
        exact fun single => rigid ⟨layout, single⟩
      -- All rows have one length, so the first one cannot be compared with the query already.
      have filled : store.rows.toList ≠ [] := by
        simpa [size, ← Array.length_toList] using stored
      obtain ⟨row, others, rows⟩ := List.exists_cons_of_ne_nil filled
      have length : row.length = store.columns := matrix row (rows ▸ List.mem_cons_self)
      have different : differences row query = .error .unreadable := by
        refine differences_eq_error ?_ ?_ several.2
        · exact length ▸ wrong.symm
        · exact length ▸ several.1
      change store.exhaustiveSearch query limit = _
      rw [exhaustiveSearch, if_neg something, rows, List.mapM_cons, different]
      rfl
    | flat => exact (if_neg something).trans (if_pos wrong)
    | listed => exact (if_neg something).trans (if_pos wrong)
  change (store.search query limit >>= _) = _
  rw [refused]
  rfl

end Search

section Score

open Scorer ScoreMap

variable {store : VectorStore F} {query : FeatureVector F}

/-- That a call ends as one does whose reference is refused with a fault: the scores and the top
list are as they were, and the call fails if there is anything to score. The fault is told as it is
unless it is one of storage. -/
def EndsRefused (index : CaseIndex Datum Datum ContentHash F) (query : FeatureVector F)
    (fault : Fault) (scorer : Scorer ContentHash F) (pass : Pass Datum Datum F) : Prop :=
  let run := (scorer.score index).result pass
  run.2.results = pass.results ∧ run.2.top = pass.top ∧
    (query ≠ [] → pass.results.size ≠ 0 → ∃ told, run.1 = .error told ∧
      ((∀ kind detail, fault ≠ .storage kind detail) → told = fault))

/-- The index is queried before anything is written, so a query that is refused leaves all as it
is. -/
theorem endsRefused_of_nearest {index : CaseIndex Datum Datum ContentHash F} {fault : Fault}
    {scorer : Scorer ContentHash F} {pass : Pass Datum Datum F}
    (known : scorer.reference = some query)
    (refused : index.nearest pass.calls query scorer.settings.maxResults = .error fault) :
    EndsRefused index query fault scorer pass := by
  by_cases idle : query = [] ∨ pass.results.size = 0
  · -- Nothing is asked where there is nothing to score.
    have ended : (scorer.score index).result pass = (.ok none, pass) := by
      apply result_score_of_idle
      rcases idle with rfl | empty
      · exact .inr (.inl known)
      · exact .inr (.inr empty)
    rw [EndsRefused, ended]
    exact ⟨rfl, rfl, fun features busy => absurd idle (not_or.mpr ⟨features, busy⟩)⟩
  · obtain ⟨features, busy⟩ := not_or.mp idle
    obtain ⟨told, queried, -, same⟩ := result_queryNeighbors_of_error refused
    have ended := (result_score_of_gather known features busy
      (Attempt.result_bind_error queried)).2
    rw [EndsRefused, ended]
    exact ⟨rfl, rfl, fun _ _ => ⟨told, rfl, same⟩⟩

/-- A query of another length than the rows have is refused exactly where the store does not stretch
single features. A call with a reference that is refused leaves the scores and the top list as they
were, and fails if there is anything to score. That such vectors have no square distance holds
whatever is stretched. A store that is searched by another search refuses what that search refuses,
with the same end. -/
theorem refuses_wrong_length (matrix : store.IsMatrix) (stored : store.size ≠ 0)
    (wrong : query.length ≠ store.columns) :
    (∀ row ∈ store.rows.toList, ∀ cap,
      Distance.square row query cap = .error (.shapesDiffer [row.length] [query.length])) ∧
    (∀ (calls : List (IndexCall Datum Datum)) (limit : ℤ), 1 ≤ limit →
      ((∃ fault, store.index.nearest calls query limit = .error fault) ↔
        ¬ store.Stretches query)) ∧
    (¬ store.Stretches query → ∀ (scorer : Scorer ContentHash F) (pass : Pass Datum Datum F),
      scorer.reference = some query → scorer.settings.IsSound →
        let run := (scorer.score store.index).result pass
        run.2.results = pass.results ∧ run.2.top = pass.top ∧
          (query ≠ [] → pass.results.size ≠ 0 → run.1 = .error (mismatch store.layout))) ∧
    ∀ (search : RowSearch F) (fault : Fault), (∀ count, search query count = .error fault) →
      (∀ (calls : List (IndexCall Datum Datum)) (limit : ℤ), 1 ≤ limit →
        (store.flatIndexBy search).nearest calls query limit = .error fault) ∧
      ∀ (scorer : Scorer ContentHash F) (pass : Pass Datum Datum F),
        scorer.reference = some query → scorer.settings.IsSound →
          EndsRefused (store.flatIndexBy search) query fault scorer pass := by
  refine ⟨fun row member cap => ?_, fun calls limit limited => ?_,
    fun rigid scorer pass known sound => ?_, fun search fault refuses => ?_⟩
  · have different : row.length ≠ query.length := (matrix row member).symm ▸ wrong.symm
    exact if_pos different
  · constructor
    · rintro ⟨fault, failed⟩ stretches
      obtain ⟨neighbors, found, -, -⟩ := exists_nearest_of_stretches matrix stretches calls limit
      rw [found] at failed
      cases failed
    · exact fun rigid => ⟨_, nearest_of_mismatch matrix rigid stored wrong limited calls⟩
  · have refused := nearest_of_mismatch matrix rigid stored wrong
      (Int.ofNat_le.mpr sound.maxResults) pass.calls
    obtain ⟨scores, top, failed⟩ := endsRefused_of_nearest known refused
    refine ⟨scores, top, fun features busy => ?_⟩
    obtain ⟨told, ended, same⟩ := failed features busy
    rw [ended, same fun kind detail => by cases store.layout <;> exact Fault.noConfusion]
  · have refused (calls : List (IndexCall Datum Datum)) {limit : ℤ} (limited : 1 ≤ limit) :
        (store.flatIndexBy search).nearest calls query limit = .error fault := by
      have something : ¬ (store.size = 0 ∨ limit ≤ 0) := by omega
      simp only [flatIndexBy, flatSearchBy, if_neg something, refuses]
      rfl
    exact ⟨fun calls limit => refused calls, fun scorer pass known sound =>
      endsRefused_of_nearest known (refused pass.calls (Int.ofNat_le.mpr sound.maxResults))⟩

/-- Two images with two features each. -/
def pairedImages : VectorStore .binary64 where
  columns := 2
  rows := #[[1, 1], [1, 0]]
  handles := [.text "a", .text "b"]
  hashes := []
  layout := .exhaustive

theorem isMatrix_pairedImages : pairedImages.IsMatrix := by
  decide

/-- A scorer whose reference has three features. -/
def longScorer : Scorer ContentHash .binary64 := ⟨some [1, 1, 1], none, .standard .binary64⟩

/-- A reference with three features is refused by the store, and by a search that lists its rows,
and the scores are left as they were. -/
theorem refuses_wrong_length_threeFeatures :
    let pass : Pass Datum Datum .binary64 := { results := .ofItems [.scalar (.text "a")] 1 }
    let run := (longScorer.score pairedImages.index).result pass
    let run' := (longScorer.score (pairedImages.flatIndexBy pairedImages.listRows)).result pass
    (run.1 = .error .unreadable ∧ run.2.results = pass.results) ∧
      run'.1 = .error .wrongDimension ∧ run'.2.results = pass.results := by
  intro pass run run'
  have rigid : ¬ pairedImages.Stretches [1, 1, 1] := fun stretches => by
    cases stretches.2 with
    | inl single => cases single
    | inr single => cases single
  have wrong : ([1, 1, 1] : FeatureVector .binary64).length ≠ pairedImages.columns := by decide
  obtain ⟨-, -, refused, refused'⟩ :=
    refuses_wrong_length isMatrix_pairedImages (by decide) wrong
  obtain ⟨kept, -, failed⟩ := refused rigid longScorer pass rfl Settings.isSound_standard
  obtain ⟨kept', -, failed'⟩ := (refused' pairedImages.listRows .wrongDimension
    fun _ => if_pos wrong).2 longScorer pass rfl Settings.isSound_standard
  obtain ⟨told, ended, same⟩ := failed' (by simp) (by decide)
  rw [same fun _ _ => Fault.noConfusion] at ended
  exact ⟨⟨failed (by simp) (by decide), kept⟩, ended, kept'⟩

/-- A single feature is compared with rows of two. So a query of another length is not always
refused. -/
theorem single_feature_is_stretched :
    ¬ ∀ (store : VectorStore .binary64) (query : FeatureVector .binary64)
        (calls : List (IndexCall Datum Datum)) (limit : ℤ),
      store.IsMatrix → store.size ≠ 0 → 1 ≤ store.columns → query.length ≠ store.columns →
        1 ≤ limit → ∃ fault, store.index.nearest calls query limit = .error fault := by
  intro always
  obtain ⟨fault, failed⟩ := always pairedImages [1] [] 1 isMatrix_pairedImages (by decide)
    (by decide) (by decide) le_rfl
  obtain ⟨neighbors, found, -, -⟩ := exists_nearest_of_stretches isMatrix_pairedImages
    (⟨rfl, .inr rfl⟩ : pairedImages.Stretches [1]) [] 1
  rw [found] at failed
  cases failed

end Score

end VectorStore

end Lookalike
