import Mathlib.Data.List.Basic
import Lookalike.Proofs.Relevance
import Lookalike.Proofs.VectorStore

/-!
# Searches that list rows

The flat layout leaves the search for rows to another program. What it relies on is that so many
rows are listed with their distances; it turns these into relevances and leaves out what is no row.
So the flat layout is taken over any such search here. The search of a store's own is one of them,
written as the program that is used is known to answer: it refuses a query of another dimension, and
a distance has to lie below the greatest number to count.

## Main definitions

* `VectorStore.RowSearch`, a search that lists rows with their distances
* `VectorStore.flatSearchBy`, `VectorStore.flatIndexBy`, the flat search by a listing search
* `VectorStore.listRows`, the listing search of a store

## Main statements

* `VectorStore.flatSearch_eq`, that the store searches by one of the listing searches
-/

namespace Lookalike.VectorStore

variable {F : Format}

/-- A search for so many rows near to a query. They are listed with their distances; what is below
zero is no row. -/
abbrev RowSearch (F : Format) := FeatureVector F → ℕ → Except Fault (List (Number F.storage × ℤ))

/-- The relevance that the flat search tells of a distance. -/
def widenedRelevance (distance : Number F.storage) : Number F :=
  let wide := distance.convert F
  Relevance.ofDistance (if wide < 0 then 0 else wide)

/-- The flat search with the rows listed by another search. -/
def flatSearchBy (search : RowSearch F) (store : VectorStore F) (query : FeatureVector F)
    (limit : ℤ) : Except Fault (List (ℕ × Number F)) :=
  if store.size = 0 ∨ limit ≤ 0 then .ok []
  else do
    let listed ← search query (min limit.toNat store.size)
    pure (listed.filterMap fun (distance, row) =>
      if 0 ≤ row then some (row.toNat, widenedRelevance distance) else none)

/-- A store that is searched by another search. -/
def flatIndexBy (search : RowSearch F) (store : VectorStore F) :
    CaseIndex Datum Datum ContentHash F where
  nearest _ query limit := do
    let neighbors ← store.flatSearchBy search query limit
    pure (neighbors.map fun (row, relevance) => (rowKey row, relevance))
  vectors := store.index.vectors
  key := store.index.key
  hash := store.index.hash

/-- The rows nearest to a query of the store's dimension. In the place of a row whose distance does
not count no row is listed. -/
def listRows (store : VectorStore F) : RowSearch F := fun query count =>
  if query.length ≠ store.columns then .error .wrongDimension
  else .ok ((nearestRows (store.rows.toList.map (storedDistance query)) count).map
    fun (row, distance) =>
      if isWithin distance then (distance, (row : ℤ)) else (Number.greatest F.storage, -1))

/-- A number is brought to zero alike by both ways of doing it. -/
theorem ofDistance_atLeastZero {x : Number F} (number : x.isNaN = false) :
    Relevance.ofDistance x.atLeastZero = Relevance.ofDistance (if x < 0 then 0 else x) := by
  cases x with
  | nan => cases number
  | negInf | posInf | negZero => rfl
  | finite q =>
    have zero : (0 : Number F) = .finite 0 := rfl
    rw [Number.atLeastZero_finite, zero]
    simp only [Number.finite_lt_finite]
    rcases lt_or_ge q 0 with below | above
    · rw [max_eq_left below.le, if_pos below]
    · rw [max_eq_right above, if_neg (not_lt.mpr above)]

/-- The flat search of a store is the one by its own listing search. -/
theorem flatSearch_eq (store : VectorStore F) (query : FeatureVector F) (limit : ℤ) :
    store.flatSearch query limit = store.flatSearchBy store.listRows query limit := by
  rw [flatSearch, flatSearchBy]
  split_ifs with nothing wrong
  · rfl
  · simp only [listRows, if_pos wrong]
    rfl
  · let distances := store.rows.toList.map (storedDistance query)
    -- No more is listed than there are rows.
    have whole : nearestRows distances (min limit.toNat store.size : ℕ) =
        nearestRows distances limit := by
      simp only [nearestRows, Int.toNat_natCast]
      rw [List.take_eq_take_iff]
      simp [distances, size]
    simp only [listRows, if_neg wrong]
    change Except.ok _ = Except.ok _
    rw [whole, found, List.filterMap_map]
    congr 1
    induction nearestRows distances limit with
    | nil => rfl
    | cons entry rest ih =>
      cases within : isWithin entry.2 with
      | false => simpa [within] using ih
      | true =>
        have number := (Number.lt_iff_place.mp (of_decide_eq_true within)).1
        rw [← Number.isNaN_convert F] at number
        simpa [within, widenedRelevance, ofDistance_atLeastZero number] using ih

end Lookalike.VectorStore
