import Mathlib.Data.List.Basic
import Lookalike.CaseIndex.VectorStore
import Lookalike.Proofs.Distance
import Lookalike.Proofs.Entries
import Lookalike.Proofs.ScoreMap.Build

/-!
# What a vector store answers

Images with pairwise different handles are kept row by row. Each handle then names one row, each row
has the content hash that was recorded last for its handle, and the exhaustive search
finds every row once, as relevant as its square distance to the query makes it, when as many
neighbors are asked for as there are rows.

## Main definitions

* `NumberArray.ofRows`, a matrix given by its rows
* `VectorStore.ofImages`, the store of some images
* `VectorStore.hashesByRow`, hashes by the rows that the handles name
* `VectorStore.keyOf`, the key of an item
* `VectorStore.relevances`, the rows with their relevance to a query, in order

## Main statements

* `VectorStore.create_scalars`, `VectorStore.create_ofImages`
* `VectorStore.rowOf?_eq_some_iff`, `VectorStore.hashAt?_ofImages`
* `VectorStore.nearest_of_distances`, `VectorStore.exists_nearest_perm`
* `VectorStore.ordinaryCall_index`
-/

namespace Lookalike

variable {F : Format}

namespace NumberArray

/-- A matrix given by its rows. -/
def ofRows (columns : ℕ) (rows : List (List (Number F))) : NumberArray F :=
  ⟨[rows.length, columns], rows.flatten⟩

/-- Rows of one length are found again in their concatenation. -/
theorem parts_flatten {α : Type} {columns : ℕ} {rows : List (List α)}
    (lengths : ∀ row ∈ rows, row.length = columns) :
    parts columns rows.length rows.flatten = rows := by
  induction rows with
  | nil => rfl
  | cons row rest ih =>
    rw [List.forall_mem_cons] at lengths
    rw [List.length_cons, List.flatten_cons, parts, List.take_left' lengths.1,
      List.drop_left' lengths.1, ih lengths.2]

theorem rows?_ofRows {columns : ℕ} {rows : List (List (Number F))}
    (lengths : ∀ row ∈ rows, row.length = columns) :
    (ofRows columns rows).rows? = some (columns, rows) := by
  simp [rows?, ofRows, parts_flatten lengths]

end NumberArray

namespace VectorStore

section Rows

variable {handles : List Scalar} {handle known : Scalar} {row : ℕ}

/-- A handle names a row that has an equal one. -/
theorem exists_of_rowOf?_eq_some (named : rowOf? handles handle = some row) :
    ∃ known, handles[row]? = some known ∧ handle == known := by
  obtain ⟨⟨known, row⟩, member, same, rfl⟩ := exists_of_lookup_eq_some named
  rw [List.mem_reverse] at member
  exact ⟨known, List.mk_mem_zipIdx_iff_getElem?.mp member, same⟩

/-- Where no two handles are equal, a handle names the row of the one that is equal to it. -/
theorem rowOf?_eq_some_iff (distinct : handles.Pairwise fun a b => (a == b) = false)
    (found : handles[row]? = some known) : rowOf? handles handle = some row ↔ handle == known := by
  constructor
  · intro named
    obtain ⟨known', found', same⟩ := exists_of_rowOf?_eq_some named
    obtain rfl : known = known' := Option.some.inj (found.symm.trans found')
    exact same
  · intro same
    have apart : handles.zipIdx.reverse.Pairwise fun a b => (a.1 == b.1) = false := by
      rw [List.pairwise_reverse]
      have inOrder : (handles.zipIdx.map Prod.fst).Pairwise fun a b => (a == b) = false := by
        rwa [List.zipIdx_map_fst]
      refine (List.pairwise_map.mp inOrder).imp fun different => ?_
      rwa [BEq.comm]
    exact lookup_of_beq apart
      (List.mem_reverse.mpr (List.mk_mem_zipIdx_iff_getElem?.mpr found)) same

/-- A handle that is equal to none of the store names no row. -/
theorem rowOf?_eq_none (unknown : ∀ known ∈ handles, (handle == known) = false) :
    rowOf? handles handle = none := by
  rw [Option.eq_none_iff_forall_ne_some]
  intro row named
  obtain ⟨known, found, same⟩ := exists_of_rowOf?_eq_some named
  rw [unknown known (List.mem_of_getElem? found)] at same
  cases same

end Rows

section Create

variable {columns : ℕ} {images : List (Scalar × List (Number .exact))}
  {hashes : List (Scalar × Datum)} {layout : SearchLayout} {handle known : Scalar} {row : ℕ}
  {vector : List (Number .exact)}

/-- The store of some images, each a handle with its vector, and of hashes by handle. -/
def ofImages (F : Format) (columns : ℕ) (images : List (Scalar × List (Number .exact)))
    (hashes : List (Scalar × Datum)) (layout : SearchLayout) : VectorStore F where
  columns := columns
  rows := (images.map fun image => image.2.map (·.convert F.storage)).toArray
  handles := images.map (·.1)
  hashes := hashes.filterMap fun (handle, hash) =>
    (rowOf? (images.map (·.1)) handle).map fun row => (row, hash)
  layout := layout

/-- Hashes by the rows that the handles name. -/
def hashesByRow (handles : List Scalar) (hashes : List (Scalar × Datum)) : List (ℕ × Datum) :=
  hashes.filterMap fun (handle, hash) => (rowOf? handles handle).map fun row => (row, hash)

/-- A matrix and as many handles that can be looked up make up a store. -/
theorem create_scalars {array : NumberArray .exact} {rows : List (List (Number .exact))}
    {handles : List Scalar} (matrix : array.rows? = some (columns, rows))
    (count : rows.length = handles.length) :
    create (F := F) array (handles.map .scalar) hashes layout =
      .ok ⟨columns, (rows.map fun row => row.map (·.convert F.storage)).toArray, handles,
        hashesByRow handles hashes, layout⟩ := by
  have told : (handles.map Datum.scalar).mapM Datum.handle = .ok handles := by
    have each : (handles.map Datum.scalar).mapM Datum.handle = .ok (handles.map id) := by
      rw [List.mapM_map]
      exact mapM_eq_ok fun _ _ => rfl
    rwa [List.map_id] at each
  have equal : ¬ (handles.map Datum.scalar).length ≠ rows.length := by
    rw [List.length_map, count, not_not]
  rw [create, matrix]
  simp only [if_neg equal, told]
  rfl

/-- Images whose vectors have one length make up a store. -/
theorem create_ofImages (lengths : ∀ image ∈ images, image.2.length = columns) :
    create (F := F) (.ofRows columns (images.map (·.2))) (images.map (.scalar ·.1)) hashes layout =
      .ok (ofImages F columns images hashes layout) := by
  have lengths' : ∀ row ∈ images.map (·.2), row.length = columns := by
    simpa using fun row handle member => lengths (handle, row) member
  have created : create (F := F) (.ofRows columns (images.map (·.2)))
      ((images.map (·.1)).map .scalar) hashes layout = _ :=
    create_scalars (NumberArray.rows?_ofRows lengths') (by simp)
  rw [List.map_map, List.map_map] at created
  exact created

theorem getElem?_rows_ofImages (found : images[row]? = some (known, vector)) :
    (ofImages F columns images hashes layout).rows[row]? =
      some (vector.map (·.convert F.storage)) := by
  simp [ofImages, found]

/-- Where no two handles are equal, an image has the content hash recorded last for its handle. -/
theorem hashAt?_ofImages
    (distinct : (images.map (·.1)).Pairwise fun a b => (a == b) = false)
    (found : images[row]? = some (known, vector)) :
    (ofImages F columns images hashes layout).hashAt? row =
      (latestOf? known hashes).bind Datum.contentHash? := by
  have found' : (images.map (·.1))[row]? = some known := by simp [found]
  have names : ∀ other, rowOf? (images.map (·.1)) other = some row ↔ known == other := by
    intro other
    rw [rowOf?_eq_some_iff distinct found', BEq.comm]
  have recorded : (hashesByRow (images.map (·.1)) hashes).reverse.lookup row =
      hashes.reverse.lookup known := by
    rw [hashesByRow, ← List.filterMap_reverse]
    exact (lookup_filterMap_of_iff names id _).trans Option.map_id_apply
  rw [hashAt?, if_neg (by omega), Int.toNat_natCast]
  exact congrArg (Option.bind · _) recorded

end Create

section Search

variable {store : VectorStore F} {query : FeatureVector F} {limit : ℕ}

/-- The key of an item: the row that its handle names. -/
def keyOf (store : VectorStore F) (item : Datum) : Option Datum :=
  item.scalar?.bind fun handle => (rowOf? store.handles handle).map fun row => rowKey row

/-- The rows with their relevance to a query, in order. -/
def relevances (store : VectorStore F) (query : FeatureVector F) : List (Datum × Number F) :=
  store.rows.toList.zipIdx.map fun (vector, row) =>
    (rowKey row, (Relevance.ofDistance (storedDistance vector query)).convert F)

theorem key_scalar (store : VectorStore F) (calls : List (IndexCall Datum Datum))
    (handle : Scalar) :
    store.index.key calls (.scalar handle) = .ok (store.keyOf (.scalar handle)) := rfl

theorem beq_rowKey (a b : ℕ) : (rowKey a == rowKey b) = decide (a = b) := by
  rw [rowKey, rowKey, Datum.scalar_beq_scalar, Bool.eq_iff_iff, Scalar.beq_iff]
  simp [Scalar.canonical]

theorem row_rowKey (row : ℕ) : (rowKey row).row = .ok (row : Int) := rfl

/-- A row is compared with a query of its length feature by feature. -/
theorem differences_eq {vector : FeatureVector F} (features : query ≠ [])
    (same : vector.length = query.length) :
    differences vector query = .ok (List.zipWith (· - ·) vector query) := by
  match vector, query with
  | _, [] => exact absurd rfl features
  | [x], [y] => rfl
  | x :: x' :: rest, y :: y' :: rest' => simp [differences, same]

/-- The rows found nearest have the distances that stand at their places. -/
theorem getElem?_of_mem_nearestRows {distances : List (Number F.storage)} {limit : ℤ}
    {entry : ℕ × Number F.storage} (found : entry ∈ nearestRows distances limit) :
    distances[entry.1]? = some entry.2 := by
  have numbered := List.mem_mergeSort.mp (List.mem_of_mem_take found)
  obtain ⟨⟨distance, row⟩, member, rfl⟩ := List.mem_map.mp numbered
  exact List.mk_mem_zipIdx_iff_getElem?.mp member

/-- The exhaustive search finds the rows at the least distances, where every row has one. -/
theorem nearest_of_distances {limit : ℤ} {distance : FeatureVector F → Number F.storage}
    (exhaustive : store.layout = .exhaustive)
    (measured : ∀ row ∈ store.rows.toList,
      (differences row query).map Distance.sumOfSquares = .ok (distance row))
    (calls : List (IndexCall Datum Datum)) :
    store.index.nearest calls query limit =
      .ok ((nearestRows (store.rows.toList.map distance) limit).map fun entry =>
        (rowKey entry.1, (Relevance.ofDistance entry.2).convert F)) := by
  have searched : store.exhaustiveSearch query limit =
      .ok ((nearestRows (store.rows.toList.map distance) limit).map fun entry =>
        (entry.1, (Relevance.ofDistance entry.2).convert F)) := by
    rw [exhaustiveSearch]
    split_ifs with nothing
    · -- Nothing is measured here, and nothing would be found.
      rcases nothing with none | none
      · have empty : store.rows.toList = [] := by
          rw [← List.length_eq_zero_iff, Array.length_toList]
          exact none
        simp [nearestRows, empty]
      · simp [nearestRows, Int.toNat_of_nonpos none]
    · rw [mapM_eq_ok measured]
      rfl
  simp only [index, search, exhaustive, searched]
  change Except.ok _ = Except.ok _
  rw [List.map_map]
  rfl

/-- The exhaustive search finds every row once, whatever their order. -/
theorem exists_nearest_perm (exhaustive : store.layout = .exhaustive) (features : query ≠ [])
    (lengths : ∀ vector ∈ store.rows.toList, vector.length = query.length)
    (room : store.size ≤ limit) (calls : List (IndexCall Datum Datum)) :
    ∃ neighbors, store.index.nearest calls query limit = .ok neighbors ∧
      neighbors.Perm (store.relevances query) := by
  have measured : ∀ row ∈ store.rows.toList,
      (differences row query).map Distance.sumOfSquares = .ok (storedDistance row query) := by
    intro row member
    rw [differences_eq features (lengths row member)]
    rfl
  -- As many neighbors are asked for as there are rows, so none is cut off.
  have whole : (nearestRows (store.rows.toList.map (storedDistance · query)) limit).Perm
      (store.rows.toList.zipIdx.map fun entry => (entry.2, storedDistance entry.1 query)) := by
    have uncut : (store.rows.toList.map (storedDistance · query)).length ≤ limit := by
      simpa [size] using room
    simp only [nearestRows, Int.toNat_natCast]
    rw [List.take_of_length_le (by simpa using uncut), List.zipIdx_map, List.map_map]
    exact List.mergeSort_perm _ _
  refine ⟨_, nearest_of_distances exhaustive measured calls, ?_⟩
  have mapped := whole.map fun entry =>
    (rowKey entry.1, (Relevance.ofDistance entry.2).convert F)
  rwa [List.map_map] at mapped

theorem mem_relevances_iff {neighbor : Datum × Number F} :
    neighbor ∈ store.relevances query ↔ ∃ (row : ℕ) (vector : FeatureVector F),
      store.rows[row]? = some vector ∧ neighbor =
        (rowKey row, (Relevance.ofDistance (storedDistance vector query)).convert F) := by
  simp only [relevances, List.mem_map, Prod.exists, List.mk_mem_zipIdx_iff_getElem?,
    Array.getElem?_toList]
  constructor
  · rintro ⟨vector, row, found, rfl⟩
    exact ⟨row, vector, found, rfl⟩
  · rintro ⟨row, vector, found, rfl⟩
    exact ⟨vector, row, found, rfl⟩

theorem distinct_relevances (store : VectorStore F) (query : FeatureVector F) :
    (store.relevances query).Pairwise fun a b => (a.1 == b.1) = false := by
  have rows : (store.rows.toList.zipIdx.map Prod.snd).Pairwise (· < ·) := by
    rw [List.zipIdx_map_snd]
    exact List.pairwise_lt_range'
  rw [relevances, List.pairwise_map]
  refine (List.pairwise_map.mp rows).imp fun below => ?_
  rw [beq_rowKey, decide_eq_false (Nat.ne_of_lt below)]

/-- Finite rows are as relevant to a finite query as some number. -/
theorem isNaN_relevances (proper : F.storage.IsProper)
    (finite : ∀ vector ∈ store.rows.toList, ∀ x ∈ vector, x.isFinite)
    (finite' : ∀ x ∈ query, x.isFinite) :
    ∀ neighbor ∈ store.relevances query, neighbor.2.isNaN = false := by
  intro neighbor member
  obtain ⟨row, vector, found, rfl⟩ := mem_relevances_iff.mp member
  have stored : vector ∈ store.rows.toList :=
    Array.mem_toList_iff.mpr (Array.mem_of_getElem? found)
  rw [Number.isNaN_convert]
  exact Relevance.isNaN_ofDistance proper
    (Distance.isAmount_sumOfSquares_sub proper (finite vector stored) finite')

/-- A row of the store has its vector. -/
theorem vectorsOf_cons {row : ℕ} {keys : List Datum} {found : List (Int × FeatureVector F)}
    (read : store.vectorsOf keys = .ok found) :
    store.vectorsOf (rowKey row :: keys) = .ok (match store.rows[row]? with
      | some vector => ((row : Int), vector) :: found
      | none => found) := by
  rw [vectorsOf, row_rowKey, read]
  change (match store.vectorAt? row with
    | some vector => Except.ok (((row : Int), vector) :: found)
    | none => Except.ok found) = _
  rw [vectorAt?, if_neg (by omega), Int.toNat_natCast]
  cases store.rows[row]? <;> rfl

/-- Rows have their vectors, which need no cast. -/
theorem exists_vectors_eq_ok {keys : List Datum} (calls : List (IndexCall Datum Datum))
    (rows : ∀ key ∈ keys, ∃ row : ℕ, key = rowKey row) :
    ∃ found, store.index.vectors calls keys = .ok found ∧ ∀ entry ∈ found,
      ∃ vector ∈ store.rows.toList, entry.2 = some (.vector vector) := by
  have read : ∃ found, store.vectorsOf keys = .ok found ∧
      ∀ entry ∈ found, entry.2 ∈ store.rows.toList := by
    induction keys with
    | nil => exact ⟨[], rfl, by simp⟩
    | cons key rest ih =>
      rw [List.forall_mem_cons] at rows
      obtain ⟨⟨row, rfl⟩, others⟩ := rows
      obtain ⟨found, read, stored⟩ := ih others
      refine ⟨_, vectorsOf_cons read, ?_⟩
      cases known : store.rows[row]? with
      | none => exact stored
      | some vector =>
        have present : vector ∈ store.rows.toList :=
          Array.mem_toList_iff.mpr (Array.mem_of_getElem? known)
        exact List.forall_mem_cons.mpr ⟨present, stored⟩
  obtain ⟨found, read, stored⟩ := read
  refine ⟨found.map fun entry => (rowKey entry.1, some (.vector entry.2)), ?_, ?_⟩
  · simp only [index, read]
    rfl
  · intro entry member
    obtain ⟨⟨row, vector⟩, known, rfl⟩ := List.mem_map.mp member
    exact ⟨vector, stored (row, vector) known, rfl⟩

variable {images : List (Scalar × List (Number .exact))} {columns : ℕ}
  {hashes : List (Scalar × Datum)} {layout : SearchLayout} {handle known : Scalar} {row : ℕ}
  {vector : List (Number .exact)}

/-- The key of an image is its row. -/
theorem keyOf_ofImages (distinct : (images.map (·.1)).Pairwise fun a b => (a == b) = false)
    (found : images[row]? = some (known, vector)) (same : handle == known) :
    (ofImages F columns images hashes layout).keyOf (.scalar handle) = some (rowKey row) := by
  have found' : (images.map (·.1))[row]? = some known := by simp [found]
  have named : rowOf? (images.map (·.1)) handle = some row :=
    (rowOf?_eq_some_iff distinct found').mpr same
  simp [keyOf, Datum.scalar?, ofImages, named]

/-- An item that is none of the images has no key. -/
theorem keyOf_ofImages_eq_none (unknown : ∀ image ∈ images, (handle == image.1) = false) :
    (ofImages F columns images hashes layout).keyOf (.scalar handle) = none := by
  have unnamed : rowOf? (images.map (·.1)) handle = none := by
    apply rowOf?_eq_none
    simpa using fun known vector member => unknown (known, vector) member
  simp [keyOf, Datum.scalar?, ofImages, unnamed]

open ScoreMap

/-- Scoring items of any kind against a vector of the length of the rows is an ordinary call. -/
theorem ordinaryCall_index {pass : Pass Datum Datum F} {settings : Settings F}
    {neighbors : List (Datum × Number F)} (features : query ≠ [])
    (found : store.index.nearest pass.calls query settings.maxResults = .ok neighbors)
    (whole : neighbors.Perm (store.relevances query))
    (numbers : ∀ neighbor ∈ store.relevances query, neighbor.2.isNaN = false)
    (scalars : ∀ item ∈ pass.results.items, ∃ handle, item = .scalar handle)
    (countable : (Number.ofInt F query.length).isFinite) (busy : pass.results.size ≠ 0) :
    OrdinaryCall store.index pass query settings neighbors store.keyOf where
  found := found
  distinct := by
    refine (whole.pairwise_iff ?_).mpr (store.distinct_relevances query)
    intro a b different
    rwa [BEq.comm]
  numbers neighbor member := numbers neighbor (whole.mem_iff.mp member)
  hashable neighbor member := by
    obtain ⟨row, vector, -, rfl⟩ := mem_relevances_iff.mp (whole.mem_iff.mp member)
    rfl
  keys calls item member := by
    obtain ⟨handle, rfl⟩ := scalars item member
    exact store.key_scalar calls handle
  hashableKeys item member key named := by
    obtain ⟨handle, -, named⟩ := Option.bind_eq_some_iff.mp named
    obtain ⟨row, -, rfl⟩ := Option.map_eq_some_iff.mp named
    rfl
  features := features
  countable := countable
  results := busy

end Search

end VectorStore

end Lookalike
