import Mathlib.Tactic.Tauto
import Lookalike.Proofs.ScoreMap.Build
import Lookalike.Proofs.VectorStore.Listing
import Lookalike.Proofs.VectorStore.Nearest

/-!
# Layouts that rank alike

The exhaustive search tells a relevance that has been rounded to the storage format, so rows at
different distances may be told as equally relevant. The flat search tells the relevance in the
format of the scores. It leaves the search itself to another one, which has to list the rows by
ascending distance. Neighbors are ranked again by what has been told of them, but no relevance rises
with the distance and ranking is stable, so that for both the rows come by ascending distance, those
of one distance in order, when all rows are asked for.

A search may list only those rows that count, as the search of a store's own does, for which a
distance has to lie below the greatest number to count. Then the two layouts rank alike only if
every row counts.

## Main definitions

* `VectorStore.ListsAll`, what a listing of all rows has to be
* `VectorStore.ListsCounted`, what a listing of the rows that count has to be
* `VectorStore.rankedKeys`, the keys of the neighbors, the most relevant first

## Main statements

* `VectorStore.ListsCounted.eq`, that there is one list of the rows that count
* `VectorStore.layouts_rank_alike`
-/

namespace Lookalike.VectorStore

variable {F : Format}

section Listing

/-- What a list of all rows has to be: each with its distance, the least first, and those of equal
distance in order. -/
structure ListsAll (distance : ℕ → Number F.storage) (count : ℕ)
    (listed : List (Number F.storage × ℤ)) : Prop where
  rows : (listed.map (·.2)).Perm ((List.range count).map fun row : ℕ => (row : ℤ))
  distances : ∀ entry ∈ listed, ∀ row : ℕ, entry.2 = row → entry.1 = distance row
  inOrder : listed.Pairwise fun a b => a.1 ≤ b.1 ∧ (b.1 ≤ a.1 → a.2 < b.2)

/-- What a list of those rows that count has to be: each with its distance, the least first, and
those of equal distance in order. An entry whose number lies below zero is no row. -/
structure ListsCounted (distance : ℕ → Number F.storage) (counts : ℕ → Bool) (count : ℕ)
    (listed : List (Number F.storage × ℤ)) : Prop where
  rows : ((listed.filter (0 ≤ ·.2)).map (·.2)).Perm
    (((List.range count).filter counts).map fun row : ℕ => (row : ℤ))
  distances : ∀ entry ∈ listed, ∀ row : ℕ, entry.2 = row → entry.1 = distance row
  inOrder : (listed.filter (0 ≤ ·.2)).Pairwise fun a b => a.1 ≤ b.1 ∧ (b.1 ≤ a.1 → a.2 < b.2)

/-- The keys of the neighbors of a query, the most relevant first. -/
def rankedKeys (index : CaseIndex Datum Datum ContentHash F) (query : FeatureVector F)
    (settings : Settings F) : Scoring Datum Datum F (List Datum) := do
  pure ((← ScoreMap.queryNeighbors index query settings).map (·.1))

end Listing

section Ranking

variable {index : CaseIndex Datum Datum ContentHash F} {query : FeatureVector F}
  {settings : Settings F} {pass : Pass Datum Datum F} {rows : List ℕ}

/-- Ranking leaves rows alone that come by ascending distance, however their distances are turned
into relevances, if only none rises. -/
theorem result_rankedKeys (distance : ℕ → Number F.storage)
    {relevance : Number F.storage → Number F}
    (answered : index.nearest pass.calls query settings.maxResults =
      .ok (rows.map fun row : ℕ => (rowKey row, relevance (distance row))))
    (antitone : ∀ {x y : Number F.storage}, x.IsAmount → y.IsAmount → x ≤ y →
      relevance y ≤ relevance x)
    (amounts : ∀ row ∈ rows, (distance row).IsAmount)
    (ascending : rows.Pairwise fun a b => distance a ≤ distance b) :
    (rankedKeys index query settings).result pass =
      (.ok (rows.map fun row : ℕ => rowKey row),
        { pass with calls := .nearest settings.maxResults :: pass.calls }) := by
  let neighbors := rows.map fun row : ℕ => (rowKey row, relevance (distance row))
  -- A relevance that does not rise is a number, since every amount is at most itself.
  have numbers : ∀ neighbor ∈ neighbors, neighbor.2.isNaN = false :=
    List.forall_mem_map.mpr fun row member =>
      have amount := amounts row member
      (Number.le_iff_place.mp (antitone amount amount (Number.le_refl amount.isNaN))).1
  have descending : neighbors.Pairwise fun a b => b.2 ≤ a.2 :=
    List.pairwise_map.mpr (ascending.imp_of_mem fun {a b} member member' le =>
      antitone (amounts a member) (amounts b member') le)
  rw [rankedKeys, Attempt.result_bind_ok (ScoreMap.result_queryNeighbors answered),
    Ranking.rank_of_descending numbers descending, List.map_map]
  rfl

theorem widenedRelevance_of_isAmount (proper : F.IsProper) {x : Number F.storage}
    (amount : x.IsAmount) :
    (widenedRelevance x : Number F) = Relevance.ofDistance (x.convert F) := by
  have above := Number.not_lt_of_le (amount.convert proper).nonneg
  rw [widenedRelevance, if_neg above]

theorem widenedRelevance_antitone (proper : F.IsProper) {x y : Number F.storage}
    (left : x.IsAmount) (right : y.IsAmount) (le : x ≤ y) :
    (widenedRelevance y : Number F) ≤ widenedRelevance x := by
  rw [widenedRelevance_of_isAmount proper left, widenedRelevance_of_isAmount proper right]
  exact Relevance.ofDistance_antitone proper (left.convert proper) (right.convert proper)
    (left.convert_le proper right le)

end Ranking

section Search

variable {store : VectorStore F} {query : FeatureVector F} {limit : ℤ}
  {distance : ℕ → Number F.storage} {rows : List ℕ} {count : ℕ}

/-- Rows by ascending distance, those of equal distance in order, are the rows sorted. -/
theorem eq_sortedRows {rows' : List ℕ} (ascending : rows'.Pairwise (· < ·))
    (numbers : ∀ row ∈ rows', (distance row).isNaN = false) (perm : rows.Perm rows')
    (inOrder : rows.Pairwise (ComesBefore distance)) : rows = sortedRows distance rows' := by
  refine List.Perm.eq_of_pairwise ?_ inOrder (pairwise_comesBefore_sortedRows ascending numbers)
    (perm.trans (sortedRows_perm _ _).symm)
  intro a b _ _ forth back
  exact absurd (forth.2 back.1) (back.2 forth.1).asymm

/-- Rows may be left out before or after the others are sorted. -/
theorem sortedRows_filter (ascending : rows.Pairwise (· < ·))
    (numbers : ∀ row ∈ rows, (distance row).isNaN = false) (counts : ℕ → Bool) :
    sortedRows distance (rows.filter counts) = (sortedRows distance rows).filter counts := by
  refine (eq_sortedRows (ascending.filter counts) (fun row member => ?_)
    ((sortedRows_perm distance rows).filter counts) ?_).symm
  · exact numbers row (List.mem_of_mem_filter member)
  · exact (pairwise_comesBefore_sortedRows ascending numbers).filter counts

/-- There is one list of the rows that count. -/
theorem ListsCounted.eq {counts : ℕ → Bool} {listed : List (Number F.storage × ℤ)}
    (numbers : ∀ row < count, (distance row).isNaN = false)
    (lists : ListsCounted distance counts count listed) :
    listed.filter (0 ≤ ·.2) =
      (sortedRows distance ((List.range count).filter counts)).map
        fun row : ℕ => (distance row, (row : ℤ)) := by
  let told := listed.filter (0 ≤ ·.2)
  let rows := told.map fun entry => entry.2.toNat
  -- An entry is told by its row, so it is enough to find the rows.
  have told_eq : told = rows.map fun row : ℕ => (distance row, (row : ℤ)) := by
    rw [List.map_map]
    refine (List.map_id _).symm.trans (List.map_congr_left fun entry member => ?_)
    obtain ⟨inside, above⟩ := List.mem_filter.mp member
    have row_eq : entry.2 = (entry.2.toNat : ℤ) := by
      have above : 0 ≤ entry.2 := of_decide_eq_true above
      omega
    exact Prod.ext (lists.distances entry inside _ row_eq) row_eq
  have perm : rows.Perm ((List.range count).filter counts) := by
    have numbered := lists.rows.map Int.toNat
    rw [List.map_map, List.map_map] at numbered
    exact numbered.trans (.of_eq (List.map_id _))
  have inOrder : told.Pairwise fun a b => a.1 ≤ b.1 ∧ (b.1 ≤ a.1 → a.2 < b.2) := lists.inOrder
  rw [told_eq, List.pairwise_map] at inOrder
  change told = _
  rw [told_eq, eq_sortedRows (List.pairwise_lt_range.filter counts)
    (fun row member => numbers row (List.mem_range.mp (List.mem_of_mem_filter member))) perm
    (inOrder.imp (by simp [ComesBefore]))]

/-- Where all rows are listed, each of them counts. -/
theorem ListsAll.counted {listed : List (Number F.storage × ℤ)}
    (lists : ListsAll distance count listed) :
    ListsCounted distance (fun _ => true) count listed := by
  have above : listed.filter (0 ≤ ·.2) = listed := by
    refine List.filter_eq_self.mpr fun entry member => decide_eq_true ?_
    obtain ⟨row, -, same⟩ := List.mem_map.mp
      (lists.rows.mem_iff.mp (List.mem_map_of_mem (f := fun entry => entry.2) member))
    omega
  refine ⟨?_, lists.distances, above.symm ▸ lists.inOrder⟩
  rw [above, List.filter_true]
  exact lists.rows

/-- The search of a store's own lists the rows whose distance lies below the greatest number. -/
theorem listsCounted_listRows (fits : query.length = store.columns)
    (numbers : ∀ row < store.size, (store.distanceTo query row).isNaN = false) :
    ∃ listed, store.listRows query store.size = .ok listed ∧
      ListsCounted (store.distanceTo query) (fun row => isWithin (store.distanceTo query row))
        store.size listed := by
  let distance := store.distanceTo query
  let sorted := sortedRows distance (List.range store.size)
  let entry (row : ℕ) : Number F.storage × ℤ :=
    if isWithin (distance row) then (distance row, row) else (Number.greatest F.storage, -1)
  have perm : sorted.Perm (List.range store.size) := sortedRows_perm _ _
  have distances : store.rows.toList.map (storedDistance query) =
      (List.range store.size).map distance := by
    rw [← map_storedDistance]
    exact List.map_congr_left fun row _ => Distance.sumOfSquares_sub_comm query row
  have dimension : ¬ query.length ≠ store.columns := not_not.mpr fits
  have listed : store.listRows query store.size = .ok (sorted.map entry) := by
    simp only [listRows, if_neg dimension, distances]
    rw [nearestRows_of_le le_rfl, List.map_map]
    rfl
  have kept : (sorted.map entry).filter (0 ≤ ·.2) =
      (sorted.filter fun row => isWithin (distance row)).map
        fun row : ℕ => (distance row, (row : ℤ)) := by
    have counts : ((0 ≤ ·.2) ∘ entry : ℕ → Bool) = fun row => isWithin (distance row) := by
      funext row
      cases within : isWithin (distance row) <;> simp [entry, within]
    rw [List.filter_map, counts]
    refine List.map_congr_left fun row member => ?_
    exact if_pos (List.mem_filter.mp member).2
  refine ⟨_, listed, ?_, ?_, ?_⟩
  · rw [kept, List.map_map]
    exact (perm.filter _).map _
  · intro told member row same
    obtain ⟨row', -, rfl⟩ := List.mem_map.mp member
    cases within : isWithin (distance row') with
    | true =>
      have told : entry row' = (distance row', (row' : ℤ)) := if_pos within
      rw [told] at same ⊢
      exact congrArg distance (Int.ofNat_inj.mp same)
    | false =>
      have none : entry row' = (Number.greatest F.storage, -1) := by simp [entry, within]
      rw [none] at same
      omega
  · rw [kept, List.pairwise_map]
    refine ((pairwise_comesBefore_sortedRows List.pairwise_lt_range fun row member => ?_).filter
      _).imp ?_
    · exact numbers row (List.mem_range.mp member)
    · simp [ComesBefore]

/-- The exhaustive search finds all rows sorted. -/
theorem nearest_exhaustive (exhaustive : store.layout = .exhaustive) (matrix : store.IsMatrix)
    (fits : query.length = store.columns) (room : store.size ≤ limit)
    (calls : List (IndexCall Datum Datum)) :
    store.index.nearest calls query limit =
      .ok ((sortedRows (store.distanceTo query) (List.range store.size)).map fun row : ℕ =>
        (rowKey row, relevanceOf (store.distanceTo query row))) := by
  rw [nearest_of_distances exhaustive (map_sumOfSquares_differences matrix fits) calls,
    map_storedDistance, nearestRows_of_le room, List.map_map]
  rfl

/-- The flat search finds those rows sorted that count, where they are listed. -/
theorem nearest_flatIndexBy {search : RowSearch F} {counts : ℕ → Bool}
    (numbers : ∀ row < store.size, (store.distanceTo query row).isNaN = false)
    (room : store.size ≤ limit)
    (lists : store.size ≠ 0 → ∃ listed, search query store.size = .ok listed ∧
      ListsCounted (store.distanceTo query) counts store.size listed)
    (calls : List (IndexCall Datum Datum)) :
    (store.flatIndexBy search).nearest calls query limit =
      .ok (((sortedRows (store.distanceTo query) (List.range store.size)).filter counts).map
        fun row : ℕ => (rowKey row, widenedRelevance (store.distanceTo query row))) := by
  simp only [flatIndexBy, flatSearchBy]
  split_ifs with nothing
  · have empty : store.size = 0 := by omega
    simp [empty, sortedRows]
  · obtain ⟨listed, answered, whole⟩ := lists (by tauto)
    have asked : min limit.toNat store.size = store.size := by omega
    let told (entry : Number F.storage × ℤ) : Option (ℕ × Number F) :=
      if 0 ≤ entry.2 then some (entry.2.toNat, widenedRelevance entry.1) else none
    -- What is listed below zero is no row, and the search passes over it.
    have rows_only : listed.filterMap told = (listed.filter (0 ≤ ·.2)).filterMap told := by
      rw [List.filterMap_filter]
      refine List.filterMap_congr fun entry _ => ?_
      by_cases above : 0 ≤ entry.2 <;> simp [told, above]
    rw [asked, answered]
    change Except.ok ((listed.filterMap told).map _) = _
    rw [rows_only, whole.eq numbers, sortedRows_filter List.pairwise_lt_range
      fun row member => numbers row (List.mem_range.mp member), List.filterMap_map,
      List.map_filterMap]
    refine congrArg Except.ok (List.filterMap_eq_map_iff_forall_eq_some.mpr fun row _ => ?_)
    simp [told]

/-- The flat layout of a store is the one by its own listing search. -/
theorem nearest_flat (flat : store.layout = .flat) (calls : List (IndexCall Datum Datum))
    (limit : ℤ) :
    store.index.nearest calls query limit =
      (store.flatIndexBy store.listRows).nearest calls query limit := by
  simp only [index, search, flat, flatIndexBy, flatSearch_eq]

/-- Where all rows of a matrix may be found and no distance is not a number, the exhaustive search
ranks the keys by ascending distance, those of one distance in order, and the flat search ranks them
alike if all rows are listed. If only those are listed that count, it does so where every row
counts, which for the search of a store's own are the rows whose distance lies below the greatest
number. -/
theorem layouts_rank_alike (proper : F.IsProper) (matrix : store.IsMatrix)
    (fits : query.length = store.columns)
    (numbers : ∀ row ∈ store.rows.toList, (storedDistance row query).isNaN = false)
    {settings : Settings F} (room : store.size ≤ settings.maxResults)
    (pass : Pass Datum Datum F) :
    let distance := store.distanceTo query
    let ranked := (rankedKeys { store with layout := .exhaustive }.index query settings).result pass
    (∃ rows : List ℕ,
      ranked = (.ok (rows.map fun row : ℕ => rowKey row),
        { pass with calls := .nearest settings.maxResults :: pass.calls }) ∧
      rows.Perm (List.range store.size) ∧
      rows.Pairwise (ComesBefore distance)) ∧
    (∀ search : RowSearch F,
      (store.size ≠ 0 → ∃ listed, search query store.size = .ok listed ∧
        ListsAll distance store.size listed) →
      (rankedKeys (store.flatIndexBy search) query settings).result pass = ranked) ∧
    (∀ (search : RowSearch F) (counts : ℕ → Bool),
      (store.size ≠ 0 → ∃ listed, search query store.size = .ok listed ∧
        ListsCounted distance counts store.size listed) →
      ((rankedKeys (store.flatIndexBy search) query settings).result pass = ranked ↔
        ∀ row < store.size, counts row)) ∧
    ((rankedKeys { store with layout := .flat }.index query settings).result pass = ranked ↔
      ∀ row ∈ store.rows.toList, isWithin (storedDistance row query)) := by
  intro distance ranked
  let rows := sortedRows distance (List.range store.size)
  have amounts : ∀ row < store.size, (distance row).IsAmount := isAmount_distanceTo numbers
  have numbers' : ∀ row < store.size, (distance row).isNaN = false := fun row within =>
    (amounts row within).isNaN
  have perm : rows.Perm (List.range store.size) := sortedRows_perm _ _
  have inOrder : rows.Pairwise (ComesBefore distance) :=
    pairwise_comesBefore_sortedRows List.pairwise_lt_range
      fun row member => numbers' row (List.mem_range.mp member)
  have ascending : rows.Pairwise fun a b => distance a ≤ distance b := inOrder.imp And.left
  have amounts' : ∀ row ∈ rows, (distance row).IsAmount := fun row member =>
    amounts row (List.mem_range.mp (perm.mem_iff.mp member))
  let exhaustive : VectorStore F := { store with layout := .exhaustive }
  let flat : VectorStore F := { store with layout := .flat }
  have room' : (store.size : ℤ) ≤ settings.maxResults := Int.ofNat_le.mpr room
  have matrix' : exhaustive.IsMatrix := matrix
  have found := nearest_exhaustive rfl matrix' fits room' pass.calls
  have ranked_eq : ranked = (.ok (rows.map fun row : ℕ => rowKey row),
      { pass with calls := .nearest settings.maxResults :: pass.calls }) :=
    result_rankedKeys distance found (relevanceOf_antitone proper) amounts' ascending
  -- What the flat search ranks is a part of the rows: all of them only if none is left out.
  have alike_iff {index : CaseIndex Datum Datum ContentHash F} {counts : ℕ → Bool}
      (answered : index.nearest pass.calls query settings.maxResults =
        .ok ((rows.filter counts).map fun row : ℕ =>
          (rowKey row, widenedRelevance (distance row)))) :
      (rankedKeys index query settings).result pass = ranked ↔ ∀ row < store.size, counts row := by
    have told := result_rankedKeys distance answered (widenedRelevance_antitone proper)
      (fun row member => amounts' row (List.mem_of_mem_filter member))
      (ascending.filter counts)
    have keyed : Function.Injective fun row : ℕ => rowKey row := fun a b same => by
      simpa [rowKey] using same
    rw [ranked_eq, told, Prod.mk.injEq, and_iff_left rfl, Except.ok.injEq,
      (List.map_injective_iff.mpr keyed).eq_iff, List.filter_eq_self]
    exact forall_congr' fun row => imp_congr_left (perm.mem_iff.trans List.mem_range)
  have counted_iff (search : RowSearch F) (counts : ℕ → Bool)
      (lists : store.size ≠ 0 → ∃ listed, search query store.size = .ok listed ∧
        ListsCounted distance counts store.size listed) :
      (rankedKeys (store.flatIndexBy search) query settings).result pass = ranked ↔
        ∀ row < store.size, counts row :=
    alike_iff (nearest_flatIndexBy numbers' room' lists pass.calls)
  refine ⟨⟨rows, ranked_eq, perm, inOrder⟩, fun search lists => ?_, counted_iff, ?_⟩
  · refine (counted_iff search (fun _ => true) fun some => ?_).mpr fun _ _ => rfl
    obtain ⟨listed, answered, all⟩ := lists some
    exact ⟨listed, answered, all.counted⟩
  · have own : flat.index.nearest pass.calls query settings.maxResults =
        (store.flatIndexBy store.listRows).nearest pass.calls query settings.maxResults :=
      nearest_flat rfl pass.calls _
    have listed := nearest_flatIndexBy numbers' room'
      (fun _ => listsCounted_listRows fits numbers') pass.calls
    rw [alike_iff (own.trans listed),
      ← List.forall_mem_map (P := fun x => isWithin x), map_storedDistance, List.forall_mem_map]
    exact forall_congr' fun row => imp_congr_left List.mem_range.symm

/-- Two images with one feature each, at different distances from zero, both so near that they are
told as equally relevant in the storage format. -/
def closeImages : VectorStore .binary64 where
  columns := 1
  rows := #[[.finite (1 / 4096)], [.finite (1 / 8192)]]
  handles := [.text "a", .text "b"]
  hashes := []
  layout := .exhaustive

/-- A search that lists the two images with their distances from zero. -/
def closeRows : RowSearch .binary64 := fun _ _ =>
  .ok [(.finite (1 / 67108864), 1), (.finite (1 / 16777216), 0)]

/-- Of the two the nearer one comes first, though it is told as no more relevant. -/
theorem layouts_rank_alike_closeImages :
    let settings := Settings.standard .binary64
    let pass : Pass Datum Datum .binary64 := { results := .ofItems [] 0 }
    let ranked : Except Fault (List Datum) × Pass Datum Datum .binary64 :=
      (.ok [rowKey 1, rowKey 0], { pass with calls := [.nearest settings.maxResults] })
    closeImages.index.nearest [] [0] settings.maxResults = .ok [(rowKey 1, 1), (rowKey 0, 1)] ∧
    (rankedKeys closeImages.index [0] settings).result pass = ranked ∧
    (rankedKeys (closeImages.flatIndexBy closeRows) [0] settings).result pass = ranked ∧
    (rankedKeys { closeImages with layout := .flat }.index [0] settings).result pass = ranked := by
  intro settings pass ranked
  let distance := closeImages.distanceTo [0]
  have proper : Format.binary64.IsProper := (by decide : 1 ≤ 53)
  have matrix : closeImages.IsMatrix := by decide
  have fits : ([0] : FeatureVector .binary64).length = closeImages.columns := rfl
  have room : closeImages.size ≤ settings.maxResults := by decide
  have numbers : ∀ row ∈ closeImages.rows.toList, (storedDistance row [0]).isNaN = false := by
    decide +kernel
  have numbers' : ∀ row ∈ List.range 2, (distance row).isNaN = false := by decide +kernel
  have sorted : [1, 0] = sortedRows distance (List.range 2) :=
    eq_sortedRows List.pairwise_lt_range numbers' (by decide) (by decide +kernel)
  have lists : ListsAll distance 2 [(.finite (1 / 67108864), 1), (.finite (1 / 16777216), 0)] := by
    refine ⟨by decide, ?_, by decide +kernel⟩
    have first : distance 1 = .finite (1 / 67108864) := by decide +kernel
    have second : distance 0 = .finite (1 / 16777216) := by decide +kernel
    simp only [List.forall_mem_cons, List.not_mem_nil, false_imp_iff, implies_true, and_true]
    constructor
    · intro row same
      obtain rfl : row = 1 := by omega
      exact first.symm
    · intro row same
      obtain rfl : row = 0 := by omega
      exact second.symm
  obtain ⟨⟨rows, told, perm, inOrder⟩, alike, -, alike'⟩ :=
    layouts_rank_alike proper matrix fits numbers room pass
  obtain rfl : rows = [1, 0] :=
    (eq_sortedRows List.pairwise_lt_range numbers' perm inOrder).trans sorted.symm
  refine ⟨?_, told, ?_, ?_⟩
  · have found := nearest_exhaustive rfl matrix fits (Int.ofNat_le.mpr room) []
    have relevances : [1, 0].map (fun row : ℕ => (rowKey row, relevanceOf (distance row))) =
        [(rowKey 1, (1 : Number .binary64)), (rowKey 0, 1)] := by decide +kernel
    rw [found, ← relevances, sorted]
    rfl
  · exact (alike closeRows fun _ => ⟨_, rfl, lists⟩).trans told
  · exact (alike'.mpr (by decide +kernel)).trans told

end Search

end Lookalike.VectorStore
