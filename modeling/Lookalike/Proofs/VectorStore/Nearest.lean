import Mathlib.Tactic.IntervalCases
import Lookalike.Proofs.Relevance
import Lookalike.Proofs.Scorer.Mismatched
import Lookalike.Proofs.VectorStore.Measured

/-!
# The nearest rows

The exhaustive search chooses rows by a partition, which brings as many of the least distances to
the front as are asked for, in whatever order, and sorts the rows in front afterwards. The sort is
done on the distances of the chosen rows, so the places that it yields are places among these and
not rows. Whichever partition is used, the search finds rows of which none that is left out is
nearer, the nearest first. Where distances are equal, the partition decides which of the rows are
found, and nothing is left to it where all of them are. What is told of a row found is its distance
as it has been measured and the relevance of that distance, see `VectorStore.IsDistance` and
`VectorStore.IsRelevance`.

## Main definitions

* `VectorStore.IsPartition`, what a partition has to be
* `VectorStore.sortedPlaces`, `VectorStore.gathered`, a sort by places and what stands at places
* `VectorStore.nearestRowsBy`, `VectorStore.exhaustiveSearchBy`, the search by a partition
* `VectorStore.sortedRows`, rows by ascending distance, with `VectorStore.ComesBefore`
* `VectorStore.distanceTo`, the distance of a row to a query
* `VectorStore.IsNearest`, what the answer of a search has to be

## Main statements

* `VectorStore.exhaustiveSearch_eq`, that the store searches by one of the partitions
* `VectorStore.nearest_rows`
-/

namespace Lookalike.VectorStore

variable {F : Format}

section Partition

/-- Rows in an order in which none up to a place is farther than one behind it. -/
structure IsPartition (distances : List (Number F.storage)) (last : ℕ) (rows : List ℕ) : Prop where
  perm : rows.Perm (List.range distances.length)
  least : ∀ near ∈ rows.take (last + 1), ∀ far ∈ rows.drop (last + 1),
    ∀ x ∈ distances[near]?, ∀ y ∈ distances[far]?, ¬ y < x

/-- What stands at some places, in the order of the places. -/
def gathered {α : Type} (items : List α) (places : List ℕ) : List α := places.filterMap (items[·]?)

/-- The places of some distances, that of the least one first. Equal distances keep their order. -/
def sortedPlaces (distances : List (Number F.storage)) : List ℕ :=
  (nearestRows distances distances.length).map (·.1)

/-- The rows that a partition brings to the front: as many as are asked for, or all rows in their
order where there are no more. The partition is told the distances and the last place in front. -/
def chosenRows (partition : List (Number F.storage) → ℕ → List ℕ)
    (distances : List (Number F.storage)) (limit : ℤ) : List ℕ :=
  let count := min limit.toNat distances.length
  if count < distances.length then (partition distances (count - 1)).take count
  else List.range distances.length

/-- The rows that a partition chooses with their distances, by ascending distance. -/
def nearestRowsBy (partition : List (Number F.storage) → ℕ → List ℕ)
    (distances : List (Number F.storage)) (limit : ℤ) : List (ℕ × Number F.storage) :=
  let rows := chosenRows partition distances limit
  let sorted := gathered rows (sortedPlaces (gathered distances rows))
  sorted.zip (gathered distances sorted)

/-- The exhaustive search with the rows chosen by a partition. -/
def exhaustiveSearchBy (partition : List (Number F.storage) → ℕ → List ℕ) (store : VectorStore F)
    (query : FeatureVector F) (limit : ℤ) : Except Fault (List (ℕ × Number F)) :=
  if store.size = 0 ∨ limit ≤ 0 then .ok []
  else do
    let distances ← store.rows.toList.mapM fun row =>
      (differences row query).map Distance.sumOfSquares
    pure ((nearestRowsBy partition distances limit).map fun (row, distance) =>
      (row, (Relevance.ofDistance distance).convert F))

end Partition

section Sorting

theorem nearer_trans (a b c : ℕ × Number F.storage) (first : nearer a b) (second : nearer b c) :
    nearer a c := by
  simp only [nearer, Bool.or_eq_true, decide_eq_true_eq] at *
  rcases second with none | le
  · exact .inl none
  · have number := (Number.le_iff_place.mp le).1
    rcases first with none | le'
    · rw [number] at none
      cases none
    · exact .inr (Number.le_trans le' le)

theorem nearer_total (a b : ℕ × Number F.storage) : nearer a b || nearer b a := by
  simp only [nearer, Bool.or_eq_true, decide_eq_true_eq]
  cases left : a.2.isNaN with
  | true => exact .inr (.inl rfl)
  | false =>
    cases right : b.2.isNaN with
    | true => exact .inl (.inl rfl)
    | false =>
      by_cases le : a.2 ≤ b.2
      · exact .inl (.inr le)
      · exact .inr (.inr (Number.le_of_lt ((Number.not_le left right).mp le)))

variable {distance : ℕ → Number F.storage} {rows : List ℕ} {count : ℕ} {limit : ℤ}

/-- Whether one row may stand in front of another by their distances. -/
def rowNearer (distance : ℕ → Number F.storage) (a b : ℕ) : Bool :=
  nearer (a, distance a) (b, distance b)

/-- Rows, the nearest first. Rows of equal distance keep their order. -/
def sortedRows (distance : ℕ → Number F.storage) (rows : List ℕ) : List ℕ :=
  rows.mergeSort (rowNearer distance)

/-- That a row comes before another by ascending distance: of two at one distance the first one
does. -/
def ComesBefore (distance : ℕ → Number F.storage) (a b : ℕ) : Prop :=
  distance a ≤ distance b ∧ (distance b ≤ distance a → a < b)

instance (distance : ℕ → Number F.storage) (a b : ℕ) : Decidable (ComesBefore distance a b) :=
  inferInstanceAs (Decidable (_ ∧ _))

theorem rowNearer_trans (distance : ℕ → Number F.storage) (a b c : ℕ)
    (first : rowNearer distance a b) (second : rowNearer distance b c) : rowNearer distance a c :=
  nearer_trans _ _ _ first second

theorem rowNearer_total (distance : ℕ → Number F.storage) (a b : ℕ) :
    rowNearer distance a b || rowNearer distance b a :=
  nearer_total _ _

theorem sortedRows_perm (distance : ℕ → Number F.storage) (rows : List ℕ) :
    (sortedRows distance rows).Perm rows :=
  List.mergeSort_perm _ _

theorem pairwise_sortedRows (distance : ℕ → Number F.storage) (rows : List ℕ) :
    (sortedRows distance rows).Pairwise fun a b => rowNearer distance a b :=
  List.pairwise_mergeSort (rowNearer_trans distance) (rowNearer_total distance) rows

/-- Rows are sorted with their distances. -/
theorem map_sortedRows (distance : ℕ → Number F.storage) (rows : List ℕ) :
    (sortedRows distance rows).map (fun row => (row, distance row)) =
      (rows.map fun row => (row, distance row)).mergeSort nearer :=
  List.map_mergeSort fun _ _ _ _ => rfl

/-- Rows in order that are sorted stand by their distances, and those of equal distance in order. -/
theorem pairwise_comesBefore_sortedRows (ascending : rows.Pairwise (· < ·))
    (numbers : ∀ row ∈ rows, (distance row).isNaN = false) :
    (sortedRows distance rows).Pairwise (ComesBefore distance) := by
  have stable := Ranking.pairwise_mergeSort_stable (rowNearer_trans distance)
    (rowNearer_total distance) ascending
  refine stable.imp_of_mem fun {a b} _ member' ordered => ⟨?_, fun le => ordered.2 ?_⟩
  · have number := numbers b (List.mem_mergeSort.mp member')
    simpa [rowNearer, nearer, number] using ordered.1
  · -- Of two rows at one distance each may stand in front, and stability keeps their order.
    exact Bool.or_eq_true_iff.mpr (.inr (decide_eq_true le))

/-- The nearest rows are cut from the numbered distances, sorted. -/
theorem nearestRows_eq_take (distances : List (Number F.storage)) (limit : ℤ) :
    nearestRows distances limit =
      ((distances.zipIdx.map Prod.swap).mergeSort nearer).take limit.toNat :=
  rfl

/-- The nearest rows are found by insertion. -/
theorem nearestRows_eq_insertionSort (distances : List (Number F.storage)) (limit : ℤ) :
    nearestRows distances limit =
      ((distances.zipIdx.map Prod.swap).insertionSort fun a b => nearer a b).take
        limit.toNat := by
  rw [nearestRows_eq_take, Ranking.mergeSort_eq_insertionSort nearer_trans nearer_total]

/-- The nearest rows are the first of all rows sorted. -/
theorem nearestRows_eq (distance : ℕ → Number F.storage) (count : ℕ) (limit : ℤ) :
    nearestRows ((List.range count).map distance) limit =
      ((sortedRows distance (List.range count)).take limit.toNat).map
        fun row => (row, distance row) := by
  have numbered : ((List.range count).map distance).zipIdx.map Prod.swap =
      (List.range count).map fun row => (row, distance row) := by
    apply List.ext_getElem?
    intro row
    rcases lt_or_ge row count with within | beyond
    · simp [within]
    · simp [beyond]
  rw [nearestRows_eq_take, numbered, ← map_sortedRows, List.map_take]

/-- Where no row is cut off, the nearest rows are all rows sorted. -/
theorem nearestRows_of_le (room : count ≤ limit) :
    nearestRows ((List.range count).map distance) limit =
      (sortedRows distance (List.range count)).map fun row => (row, distance row) := by
  have all : (sortedRows distance (List.range count)).length ≤ limit.toNat := by
    rw [(sortedRows_perm _ _).length_eq, List.length_range]
    omega
  rw [nearestRows_eq, List.take_of_length_le all]

/-- What stands at rows is what a list of all rows tells of them. -/
theorem gathered_map_range {α : Type} (f : ℕ → α) (within : ∀ row ∈ rows, row < count) :
    gathered ((List.range count).map f) rows = rows.map f := by
  rw [gathered, ← List.filterMap_eq_map (f := f)]
  refine List.filterMap_congr fun row member => ?_
  simp [within row member]

/-- Sorting places by the distances of the rows that stand there sorts the rows. -/
theorem gathered_sortedPlaces (distance : ℕ → Number F.storage) (rows : List ℕ) :
    gathered rows (sortedPlaces (rows.map distance)) = sortedRows distance rows := by
  -- A place among the rows stands for the row there, at the distance that has been sorted.
  let standing (entry : ℕ × Number F.storage) : ℕ × Number F.storage :=
    (rows.getD entry.1 0, entry.2)
  let sorted := nearestRows (rows.map distance) (rows.map distance).length
  have stands : ∀ entry ∈ sorted, rows[entry.1]? = some (standing entry).1 := by
    intro entry member
    have known := getElem?_of_mem_nearestRows member
    rw [List.getElem?_map] at known
    obtain ⟨row, found, -⟩ := Option.map_eq_some_iff.mp known
    simp [standing, found]
  have places : gathered rows (sortedPlaces (rows.map distance)) =
      sorted.map fun entry => (standing entry).1 := by
    rw [gathered, sortedPlaces, List.filterMap_map]
    exact (List.filterMap_congr stands).trans (congrFun List.filterMap_eq_map sorted)
  have numbered : ((rows.map distance).zipIdx.map Prod.swap).map standing =
      rows.map fun row => (row, distance row) := by
    apply List.ext_getElem?
    intro place
    cases found : rows[place]? <;> simp [standing, found]
  have whole : sorted.map standing =
      (sortedRows distance rows).map fun row => (row, distance row) := by
    rw [map_sortedRows, ← numbered]
    simp only [sorted, nearestRows_eq_take, Int.toNat_natCast]
    rw [List.take_of_length_le (by simp)]
    exact List.map_mergeSort fun _ _ _ _ => rfl
  -- The distances have done their work once the places are sorted.
  have first := congrArg (List.map Prod.fst) whole
  rw [List.map_map, List.map_map] at first
  rw [places]
  simpa [Function.comp_def] using first

/-- Rows that are chosen by a partition are sorted with their distances. -/
theorem nearestRowsBy_eq {partition : List (Number F.storage) → ℕ → List ℕ}
    (chosen : chosenRows partition ((List.range count).map distance) limit = rows)
    (within : ∀ row ∈ rows, row < count) :
    nearestRowsBy partition ((List.range count).map distance) limit =
      (sortedRows distance rows).map fun row => (row, distance row) := by
  have within' : ∀ row ∈ sortedRows distance rows, row < count := fun row member =>
    within row ((sortedRows_perm distance rows).mem_iff.mp member)
  simp only [nearestRowsBy, chosen]
  rw [gathered_map_range distance within, gathered_sortedPlaces,
    gathered_map_range distance within', List.zip_eq_zipWith, List.zipWith_map_right,
    List.zipWith_self]

theorem sortedPlaces_eq (distance : ℕ → Number F.storage) (count : ℕ) :
    sortedPlaces ((List.range count).map distance) = sortedRows distance (List.range count) := by
  rw [sortedPlaces, nearestRows_of_le (by simp), List.map_map]
  exact List.map_id _

end Sorting

section Choice

variable {distance : ℕ → Number F.storage} {rows : List ℕ} {count : ℕ} {limit : ℤ}

/-- As many rows as are asked for, of which none that is left out is nearer. -/
structure IsChoice (distance : ℕ → Number F.storage) (count : ℕ) (limit : ℤ) (rows : List ℕ) :
    Prop where
  length_eq : rows.length = min limit.toNat count
  distinct : rows.Nodup
  within : ∀ row ∈ rows, row < count
  least : ∀ row < count, row ∉ rows → ∀ near ∈ rows, ¬ distance row < distance near
  whole : count ≤ limit.toNat → rows = List.range count

/-- Whichever partition chooses the rows, they are among the nearest. -/
theorem isChoice_chosenRows {partition : List (Number F.storage) → ℕ → List ℕ}
    (partitions : ∀ last < count, IsPartition ((List.range count).map distance) last
      (partition ((List.range count).map distance) last)) (limit : ℤ) :
    IsChoice distance count limit
      (chosenRows partition ((List.range count).map distance) limit) := by
  by_cases cut : limit.toNat < count
  · have chosen : chosenRows partition ((List.range count).map distance) limit =
        (partition ((List.range count).map distance) (limit.toNat - 1)).take limit.toNat := by
      simp [chosenRows, min_eq_left cut.le, cut]
    have lawful := partitions (limit.toNat - 1) (by omega)
    have perm := lawful.perm
    rw [List.length_map, List.length_range] at perm
    have within : ∀ row ∈ partition ((List.range count).map distance) (limit.toNat - 1),
        row < count := fun row member => List.mem_range.mp (perm.mem_iff.mp member)
    rw [chosen]
    constructor
    · rw [List.length_take, perm.length_eq, List.length_range]
    · exact (perm.nodup_iff.mpr List.nodup_range).sublist (List.take_sublist _ _)
    · exact fun row member => within row (List.mem_of_mem_take member)
    · intro row inside out near member
      -- Something is in front, so the last place in front is counted from one.
      have front : limit.toNat - 1 + 1 = limit.toNat := by
        cases positive : limit.toNat with
        | zero => simp [positive] at member
        | succ => rfl
      have behind : row ∈ (partition ((List.range count).map distance) (limit.toNat - 1)).drop
          limit.toNat := by
        have all := perm.mem_iff.mpr (List.mem_range.mpr inside)
        rw [← List.take_append_drop limit.toNat (partition _ _), List.mem_append] at all
        exact all.resolve_left out
      have least := lawful.least
      rw [front] at least
      refine least near member row behind _ ?_ _ ?_
      · simp [within near (List.mem_of_mem_take member)]
      · simp [inside]
    · exact fun whole => absurd whole (not_le.mpr cut)
  · have chosen : chosenRows partition ((List.range count).map distance) limit =
        List.range count := by
      simp [chosenRows, min_eq_right (not_lt.mp cut)]
    rw [chosen]
    constructor
    · rw [List.length_range, min_eq_right (not_lt.mp cut)]
    · exact List.nodup_range
    · exact fun row => List.mem_range.mp
    · exact fun row inside out => absurd (List.mem_range.mpr inside) out
    · exact fun _ => rfl

/-- The places of sorted distances are a partition, whichever place they are cut behind. -/
theorem isPartition_sortedPlaces (distance : ℕ → Number F.storage) (count last : ℕ) :
    IsPartition ((List.range count).map distance) last
      (sortedPlaces ((List.range count).map distance)) := by
  rw [sortedPlaces_eq]
  refine ⟨?_, fun near front far behind x known y known' below => ?_⟩
  · rw [List.length_map, List.length_range]
    exact sortedRows_perm _ _
  · have sorted := pairwise_sortedRows distance (List.range count)
    rw [← List.take_append_drop (last + 1) (sortedRows _ _), List.pairwise_append] at sorted
    have ordered := sorted.2.2 near front far behind
    have at_place : ∀ {row z}, ((List.range count).map distance)[row]? = some z →
        distance row = z := by
      intro row z known
      rw [List.getElem?_map, Option.map_eq_some_iff] at known
      obtain ⟨row', found, rfl⟩ := known
      rw [(List.getElem?_eq_some_iff.mp found).2.symm, List.getElem_range]
    rw [rowNearer, nearer, at_place known, at_place known', Bool.or_eq_true,
      decide_eq_true_eq] at ordered
    rcases ordered with none | le
    · rw [(Number.lt_iff_place.mp below).1] at none
      cases none
    · exact Number.not_lt_of_le le below

/-- All distances sorted serve as a partition. -/
theorem nearestRows_eq_nearestRowsBy (distance : ℕ → Number F.storage) (count : ℕ) (limit : ℤ) :
    nearestRows ((List.range count).map distance) limit =
      nearestRowsBy (fun distances _ => sortedPlaces distances) ((List.range count).map distance)
        limit := by
  let all := sortedRows distance (List.range count)
  have length : all.length = count := by
    rw [(sortedRows_perm _ _).length_eq, List.length_range]
  have choice : IsChoice distance count limit
      (chosenRows (fun distances _ => sortedPlaces distances) ((List.range count).map distance)
        limit) :=
    isChoice_chosenRows (fun last _ => isPartition_sortedPlaces distance count last) limit
  rw [nearestRowsBy_eq rfl choice.within, nearestRows_eq]
  congr 1
  by_cases cut : limit.toNat < count
  · -- What is cut from a sorted list is sorted.
    have chosen : chosenRows (fun distances _ => sortedPlaces distances)
        ((List.range count).map distance) limit = all.take limit.toNat := by
      simp [chosenRows, min_eq_left cut.le, cut, sortedPlaces_eq, all]
    rw [chosen]
    exact (List.mergeSort_of_pairwise
      ((pairwise_sortedRows distance (List.range count)).sublist (List.take_sublist _ _))).symm
  · rw [choice.whole (not_lt.mp cut)]
    exact List.take_of_length_le (length.trans_le (not_lt.mp cut))

end Choice

section Search

variable {store : VectorStore F} {query : FeatureVector F} {limit : ℤ}

/-- The distance of a row to a query. -/
def distanceTo (store : VectorStore F) (query : FeatureVector F) (row : ℕ) : Number F.storage :=
  storedDistance (store.rows.getD row []) query

theorem map_storedDistance (store : VectorStore F) (query : FeatureVector F) :
    store.rows.toList.map (storedDistance · query) =
      (List.range store.size).map (store.distanceTo query) := by
  apply List.ext_getElem?
  intro row
  rcases lt_or_ge row store.size with within | beyond
  · have within' : row < store.rows.size := within
    simp [distanceTo, within, within']
  · have beyond' : store.rows.size ≤ row := beyond
    simp [beyond, beyond']

/-- The relevance that the exhaustive search tells of a distance. -/
def relevanceOf (distance : Number F.storage) : Number F :=
  (Relevance.ofDistance distance).convert F

theorem relevanceOf_antitone (proper : F.IsProper) {x y : Number F.storage} (left : x.IsAmount)
    (right : y.IsAmount) (le : x ≤ y) : (relevanceOf y : Number F) ≤ relevanceOf x :=
  have proper' := F.isProper_storage
  (Relevance.isAmount_ofDistance proper' right).convert_le proper
    (Relevance.isAmount_ofDistance proper' left)
    (Relevance.ofDistance_antitone proper' left right le)

/-- What a search for the nearest of some rows has to answer: as many of them as are asked for, each
with its relevance, the nearest first. None that is left out is nearer than one of them, and where
all rows are asked for, those of equal distance stand in order. -/
structure IsNearest (distance : ℕ → Number F.storage) (count : ℕ) (limit : ℤ)
    (neighbors : List (ℕ × Number F)) : Prop where
  length_eq : neighbors.length = min limit.toNat count
  within : ∀ neighbor ∈ neighbors, neighbor.1 < count
  relevance : ∀ neighbor ∈ neighbors, IsRelevance (distance neighbor.1) neighbor.2
  distinct : (neighbors.map (·.1)).Nodup
  ascending : neighbors.Pairwise fun a b => distance a.1 ≤ distance b.1
  descending : neighbors.Pairwise fun a b => b.2 ≤ a.2
  least : ∀ row < count, row ∉ neighbors.map (·.1) →
    ∀ neighbor ∈ neighbors, distance neighbor.1 ≤ distance row
  inOrder : count ≤ limit → neighbors.Pairwise fun a b =>
    distance b.1 ≤ distance a.1 → a.1 < b.1

/-- Chosen rows are sorted into an answer. -/
theorem isNearest_of_isChoice (proper : F.IsProper) {distance : ℕ → Number F.storage} {count : ℕ}
    {rows : List ℕ} (amounts : ∀ row < count, (distance row).IsAmount)
    (choice : IsChoice distance count limit rows) :
    IsNearest (F := F) distance count limit
      ((sortedRows distance rows).map fun row => (row, relevanceOf (distance row))) := by
  have perm := sortedRows_perm distance rows
  have amount : ∀ row ∈ sortedRows distance rows, (distance row).IsAmount := fun row member =>
    amounts row (choice.within row (perm.mem_iff.mp member))
  have ascending : (sortedRows distance rows).Pairwise fun a b => distance a ≤ distance b := by
    refine (pairwise_sortedRows distance rows).imp_of_mem fun {a b} _ member' ordered => ?_
    simpa [rowNearer, nearer, (amount b member').isNaN] using ordered
  have names : ((sortedRows distance rows).map
      fun row => (row, (relevanceOf (distance row) : Number F))).map (·.1) =
      sortedRows distance rows := by
    rw [List.map_map]
    exact List.map_id _
  constructor
  case length_eq => rw [List.length_map, perm.length_eq, choice.length_eq]
  case within =>
    rw [List.forall_mem_map]
    exact fun row member => choice.within row (perm.mem_iff.mp member)
  case relevance => exact List.forall_mem_map.mpr fun row _ => isRelevance_ofDistance _
  case distinct =>
    rw [names]
    exact perm.nodup_iff.mpr choice.distinct
  case ascending => exact List.pairwise_map.mpr ascending
  case descending =>
    refine List.pairwise_map.mpr (ascending.imp_of_mem fun {a b} member member' le => ?_)
    exact relevanceOf_antitone proper (amount a member) (amount b member') le
  case least =>
    -- Sorting does not change which rows are left out.
    intro row inside out
    rw [names, perm.mem_iff] at out
    refine List.forall_mem_map.mpr fun near member => ?_
    exact ((amounts row inside).not_lt (amount near member)).mp
      (choice.least row inside out near (perm.mem_iff.mp member))
  case inOrder =>
    -- Only where all rows are chosen do they come to the sort in order.
    intro whole
    rw [choice.whole (by omega)]
    refine List.pairwise_map.mpr ((pairwise_comesBefore_sortedRows List.pairwise_lt_range
      fun row member => ?_).imp fun ordered => ordered.2)
    exact (amounts row (List.mem_range.mp member)).isNaN

/-- Every row of a matrix is measured against a query of its length, even where that is zero. -/
theorem map_sumOfSquares_differences (matrix : store.IsMatrix)
    (fits : query.length = store.columns) :
    ∀ row ∈ store.rows.toList,
      (differences row query).map Distance.sumOfSquares = .ok (storedDistance row query) := by
  intro row member
  have same : row.length = query.length := (matrix row member).trans fits.symm
  cases query with
  | nil =>
    obtain rfl := List.length_eq_zero_iff.mp same
    rfl
  | cons feature rest =>
    rw [differences_eq (List.cons_ne_nil _ _) same]
    rfl

/-- The exhaustive search answers with the rows that a partition chooses. -/
theorem exhaustiveSearchBy_eq {partition : List (Number F.storage) → ℕ → List ℕ}
    (matrix : store.IsMatrix) (fits : query.length = store.columns)
    (partitions : ∀ last < store.size,
      IsPartition ((List.range store.size).map (store.distanceTo query)) last
        (partition ((List.range store.size).map (store.distanceTo query)) last)) (limit : ℤ) :
    store.exhaustiveSearchBy partition query limit =
      .ok ((nearestRowsBy partition ((List.range store.size).map (store.distanceTo query))
        limit).map fun entry => (entry.1, relevanceOf entry.2)) := by
  have choice := isChoice_chosenRows partitions limit
  rw [exhaustiveSearchBy]
  split_ifs with nothing
  · -- Nothing is measured here, and nothing would be chosen.
    have none := choice.length_eq
    have zero : min limit.toNat store.size = 0 := by omega
    rw [zero, List.length_eq_zero_iff] at none
    simp [nearestRowsBy_eq rfl choice.within, none, sortedRows]
  · rw [mapM_eq_ok (map_sumOfSquares_differences matrix fits), map_storedDistance]
    rfl

/-- The store searches by the partition that sorts all distances. -/
theorem exhaustiveSearch_eq (matrix : store.IsMatrix) (fits : query.length = store.columns)
    (limit : ℤ) :
    store.exhaustiveSearch query limit =
      store.exhaustiveSearchBy (fun distances _ => sortedPlaces distances) query limit := by
  rw [exhaustiveSearch, exhaustiveSearchBy]
  split_ifs
  · rfl
  · rw [mapM_eq_ok (map_sumOfSquares_differences matrix fits), map_storedDistance]
    change Except.ok _ = Except.ok _
    rw [nearestRows_eq_nearestRowsBy]

theorem isAmount_distanceTo
    (numbers : ∀ row ∈ store.rows.toList, (storedDistance row query).isNaN = false) :
    ∀ row < store.size, (store.distanceTo query row).IsAmount := by
  intro row within
  have listed : store.rows.getD row [] ∈ store.rows.toList := by
    have within' : row < store.rows.size := within
    simp [within']
  exact Distance.isAmount_of_isNaN_sumOfSquares F.isProper_storage (numbers _ listed)

/-- Each row has a distance to a query. -/
theorem isDistance_distanceTo {row : ℕ} {vector : FeatureVector F}
    (stored : store.rows[row]? = some vector) :
    IsDistance vector query (store.distanceTo query row) := by
  have known : store.rows.getD row [] = vector := by simp [stored]
  rw [distanceTo, known]
  exact isDistance_storedDistance vector query

/-- The exhaustive search of a matrix finds the nearest rows to every query of its dimension,
however many are asked for, if no distance is not a number. This holds whichever partition of the
distances chooses the rows, and so of the store, which sorts all of them. -/
theorem nearest_rows (proper : F.IsProper) (exhaustive : store.layout = .exhaustive)
    (matrix : store.IsMatrix) (fits : query.length = store.columns)
    (numbers : ∀ row ∈ store.rows.toList, (storedDistance row query).isNaN = false) (limit : ℤ) :
    let distance := store.distanceTo query
    let distances := (List.range store.size).map distance
    (∀ (row : ℕ) (vector : FeatureVector F), store.rows[row]? = some vector →
      IsDistance vector query (distance row)) ∧
    (∀ partition : List (Number F.storage) → ℕ → List ℕ,
      (∀ last < store.size, IsPartition distances last (partition distances last)) →
        ∃ neighbors, store.exhaustiveSearchBy partition query limit = .ok neighbors ∧
          IsNearest distance store.size limit neighbors) ∧
    ∃ neighbors, (∀ calls, store.index.nearest calls query limit =
        .ok (neighbors.map fun neighbor => (rowKey neighbor.1, neighbor.2))) ∧
      IsNearest distance store.size limit neighbors := by
  intro distance distances
  have found : ∀ partition : List (Number F.storage) → ℕ → List ℕ,
      (∀ last < store.size, IsPartition distances last (partition distances last)) →
        ∃ neighbors, store.exhaustiveSearchBy partition query limit = .ok neighbors ∧
          IsNearest distance store.size limit neighbors := by
    intro partition partitions
    have choice := isChoice_chosenRows partitions limit
    have searched := exhaustiveSearchBy_eq matrix fits partitions limit
    rw [nearestRowsBy_eq rfl choice.within, List.map_map] at searched
    exact ⟨_, searched, isNearest_of_isChoice proper (isAmount_distanceTo numbers) choice⟩
  refine ⟨fun row vector => isDistance_distanceTo, found, ?_⟩
  obtain ⟨neighbors, searched, nearest⟩ := found (fun distances _ => sortedPlaces distances)
    fun last _ => isPartition_sortedPlaces distance store.size last
  refine ⟨neighbors, fun calls => ?_, nearest⟩
  rw [← exhaustiveSearch_eq matrix fits] at searched
  simp only [index, search, exhaustive, searched]
  rfl

/-- Four images with two features each, one of them at zero and two at one distance from it. -/
def surroundingImages : VectorStore .binary64 where
  columns := 2
  rows := #[[1, 1], [0, 0], [.finite (-1), 1], [.finite 2, 0]]
  handles := [.text "a", .text "b", .text "c", .text "d"]
  hashes := []
  layout := .exhaustive

/-- A partition by which the image at zero comes first and of the two at one distance the last. -/
def lastInFront (_ : List (Number Format.binary64.storage)) (_ : ℕ) : List ℕ := [1, 2, 0, 3]

/-- An image whose features are integers lies at the distance of rational arithmetic from zero. -/
theorem distanceTo_surroundingImages {row : ℕ} {x y d : ℚ} {m n : ℤ} (whole : x = m)
    (whole' : y = n) (stored : surroundingImages.rows[row]? = some [.finite x, .finite y])
    (square : ScoreMap.squareDistance [x, y] [0, 0] = d) (small : d ≤ 2 ^ 24) :
    surroundingImages.distanceTo [0, 0] row = .finite d := by
  subst whole whole' square
  refine (isDistance_distanceTo stored).exact (measuredExactly_of_integral ?_ ?_ small)
  all_goals simp only [List.forall_mem_cons]
  · exact ⟨⟨m, rfl⟩, ⟨n, rfl⟩, nofun⟩
  · exact ⟨⟨0, rfl⟩, ⟨0, rfl⟩, nofun⟩

theorem map_distanceTo_surroundingImages :
    (List.range 4).map (surroundingImages.distanceTo [0, 0]) =
      [.finite 2, 0, .finite 2, .finite 4] := by
  have first : surroundingImages.distanceTo [0, 0] 0 = .finite 2 :=
    distanceTo_surroundingImages (m := 1) (n := 1) rfl rfl rfl (by decide +kernel) (by norm_num)
  have second : surroundingImages.distanceTo [0, 0] 1 = .finite 0 :=
    distanceTo_surroundingImages (m := 0) (n := 0) rfl rfl rfl (by decide +kernel) (by norm_num)
  have third : surroundingImages.distanceTo [0, 0] 2 = .finite 2 :=
    distanceTo_surroundingImages (m := -1) (n := 1) rfl rfl rfl (by decide +kernel) (by norm_num)
  have fourth : surroundingImages.distanceTo [0, 0] 3 = .finite 4 :=
    distanceTo_surroundingImages (m := 2) (n := 0) rfl rfl rfl (by decide +kernel) (by norm_num)
  simp only [List.range_succ, List.range_zero, List.nil_append, List.cons_append, List.map_cons,
    List.map_nil, first, second, third, fourth]
  rfl

/-- The distances are those of rational arithmetic, and the one third that is the relevance of two
is rounded. Of the two at one distance the one that the partition brings to the front is found. -/
theorem nearest_rows_surroundingImages :
    let distance := surroundingImages.distanceTo [0, 0]
    let third : Number .binary64 := .finite (11184811 / 33554432)
    (IsDistance [.finite (-1), 1] [0, 0] (distance 2) ∧ distance 2 = .finite 2) ∧
    (surroundingImages.exhaustiveSearchBy lastInFront [0, 0] 2 = .ok [(1, 1), (2, third)] ∧
      IsNearest distance 4 2 [(1, 1), (2, third)]) ∧
    surroundingImages.index.nearest [] [0, 0] 2 = .ok [(rowKey 1, 1), (rowKey 0, third)] ∧
      IsNearest distance 4 2 [(1, 1), (0, third)] := by
  intro distance third
  have proper : Format.binary64.IsProper := (by decide : 1 ≤ 53)
  have matrix : surroundingImages.IsMatrix := by decide
  have fits : ([0, 0] : FeatureVector .binary64).length = surroundingImages.columns := rfl
  have numbers : ∀ row ∈ surroundingImages.rows.toList,
      (storedDistance row [0, 0]).isNaN = false := by
    decide +kernel
  have distances : (List.range 4).map distance = [.finite 2, 0, .finite 2, .finite 4] :=
    map_distanceTo_surroundingImages
  -- Both images at distance two may stand behind the one at zero, in either order.
  have partitions : ∀ last < surroundingImages.size,
      IsPartition ((List.range 4).map distance) last
        (lastInFront ((List.range 4).map distance) last) := by
    intro last below
    have below : last < 4 := below
    rw [distances, lastInFront]
    refine ⟨by decide, ?_⟩
    interval_cases last <;> decide +kernel
  obtain ⟨measured, found, neighbors, answered, nearest⟩ :=
    nearest_rows proper rfl matrix fits numbers 2
  obtain ⟨neighbors', searched, nearest'⟩ := found lastInFront partitions
  have brought : neighbors' = [(1, 1), (2, third)] := by
    have chosen : nearestRowsBy lastInFront [.finite 2, 0, .finite 2, .finite 4] 2 =
        [(1, 0), (2, .finite 2)] := by
      simp only [nearestRowsBy, sortedPlaces, nearestRows_eq_insertionSort]
      decide +kernel
    have whole := exhaustiveSearchBy_eq matrix fits partitions 2
    change _ =
      Except.ok ((nearestRowsBy lastInFront ((List.range 4).map distance) 2).map _) at whole
    rw [searched, distances, chosen] at whole
    exact (Except.ok.inj whole).trans (by decide +kernel)
  have told : surroundingImages.index.nearest [] [0, 0] 2 =
      .ok [(rowKey 1, 1), (rowKey 0, third)] := by
    have chosen : nearestRows [.finite 2, 0, .finite 2, .finite 4] 2 =
        [(1, (0 : Number Format.binary64.storage)), (0, .finite 2)] := by
      rw [nearestRows_eq_insertionSort]
      decide +kernel
    rw [nearest_of_distances rfl (map_sumOfSquares_differences matrix fits), map_storedDistance]
    change Except.ok ((nearestRows ((List.range 4).map distance) 2).map _) = _
    rw [distances, chosen]
    exact congrArg Except.ok (by decide +kernel)
  -- The keys are the rows, so the neighbors are known from what the index answers.
  have sorted : neighbors = [(1, 1), (0, third)] := by
    have keyed : Function.Injective fun neighbor : ℕ × Number .binary64 =>
        (rowKey neighbor.1, neighbor.2) := by
      rintro ⟨row, x⟩ ⟨row', x'⟩ same
      simpa [rowKey] using same
    exact List.map_injective_iff.mpr keyed (Except.ok.inj ((answered []).symm.trans told))
  subst brought sorted
  have at_two : distance 2 = .finite 2 :=
    Option.some.inj (congrArg (·[2]?) distances : some (distance 2) = _)
  exact ⟨⟨measured 2 _ rfl, at_two⟩, ⟨searched, nearest'⟩, told, nearest⟩

end Search

end Lookalike.VectorStore
