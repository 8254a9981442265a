import Mathlib.Data.List.Basic
import Lookalike.ResultSet
import Lookalike.Proofs.Attempt

/-!
# Reading and writing scores

The score at a position counted from the front is the entry of the list of scores, and writing it
replaces that entry alone.

## Main definitions

* `itemIn`, the item that stands at a position of a list
* `ResultSet.held`, the score at a position

## Main statements

* `ResultSet.scoreAt_eq_ok_iff`, `ResultSet.itemAt_eq_ok_iff`
* `ResultSet.result_write`
-/

namespace Lookalike

variable {Item : Type} {F : Format}

/-- A position behind the end of a list names nothing. -/
theorem Position.index?_of_le {size index : ℕ} (beyond : size ≤ index) :
    Position.index? size (index : Position) = none := by
  unfold Position.index?
  split <;> grind

/-- The item that stands at a position of a list, counted from the front. -/
def itemIn (items : List Item) (position : Position) : Option Item := items[position.toNat]?

@[simp] theorem itemIn_natCast (items : List Item) (k : ℕ) :
    itemIn items (k : Position) = items[k]? := rfl

namespace ResultSet

variable {results : ResultSet Item F} {k : ℕ} {score : Number F} {item : Item}

@[simp] theorem length_scores (results : ResultSet Item F) :
    results.scores.length = results.size := by
  simp [scores, size]

@[simp] theorem length_items (results : ResultSet Item F) :
    results.items.length = results.size := by
  simp [items, size]

theorem candidateAt_natCast (results : ResultSet Item F) (k : ℕ) :
    results.candidateAt (k : Position) =
      match results.candidates.toList[k]? with
      | some candidate => .ok candidate
      | none => .error .outOfRange := by
  by_cases within : k < results.size
  · rw [candidateAt, Position.index?_natCast within, Array.getElem?_toList]
    rfl
  · have none : results.candidates.toList[k]? = none := by
      simpa [size] using within
    rw [candidateAt, Position.index?_of_le (Nat.not_lt.mp within), none]
    rfl

/-- The score at a position counted from the front is that entry of the scores. -/
theorem scoreAt_eq_ok_iff :
    results.scoreAt (k : Position) = .ok score ↔ results.scores[k]? = some score := by
  rw [scoreAt, candidateAt_natCast, scores, List.getElem?_map]
  cases results.candidates.toList[k]? <;> simp [Except.map]

/-- The item at a position counted from the front is that entry of the items. -/
theorem itemAt_eq_ok_iff :
    results.itemAt (k : Position) = .ok item ↔ results.items[k]? = some item := by
  rw [itemAt, candidateAt_natCast, items, List.getElem?_map]
  cases results.candidates.toList[k]? <;> simp [Except.map]

/-- What stands at a position is one of the items. -/
theorem mem_items_of_itemAt {position : Position} (found : results.itemAt position = .ok item) :
    item ∈ results.items := by
  rw [itemAt, candidateAt] at found
  cases known : (Position.index? results.size position).bind (results.candidates[·]?) with
  | none =>
    rw [known] at found
    cases found
  | some candidate =>
    rw [known] at found
    cases found
    obtain ⟨k, -, stands⟩ := Option.bind_eq_some_iff.mp known
    exact List.mem_map_of_mem (Array.mem_toList_iff.mpr (Array.mem_of_getElem? stands))

theorem exists_candidateAt_eq_ok (within : k < results.size) :
    ∃ candidate, results.candidateAt (k : Position) = .ok candidate := by
  have found : results.candidates.toList[k]? = some results.candidates.toList[k] :=
    List.getElem?_eq_getElem within
  exact ⟨_, by rw [candidateAt_natCast, found]⟩

/-- What stands at two places with one item and one score is the same. -/
theorem getElem?_candidates_congr {results' : ResultSet Item F} {i j : ℕ}
    (items : results'.items[j]? = results.items[i]?)
    (scores : results'.scores[j]? = results.scores[i]?) :
    results'.candidates.toList[j]? = results.candidates.toList[i]? := by
  rw [ResultSet.items, ResultSet.items, List.getElem?_map, List.getElem?_map] at items
  rw [ResultSet.scores, ResultSet.scores, List.getElem?_map, List.getElem?_map] at scores
  cases found : results.candidates.toList[i]? with
  | none =>
    rw [found] at items
    exact Option.map_eq_none_iff.mp items
  | some candidate =>
    obtain ⟨item, score⟩ := candidate
    rw [found, Option.map_some] at items scores
    obtain ⟨⟨item', score'⟩, found', same_item⟩ := Option.map_eq_some_iff.mp items
    rw [found', Option.map_some] at scores
    cases same_item
    cases scores
    exact found'

/-- What stands at two places with one item and one score is the same candidate. -/
theorem candidateAt_congr {results' : ResultSet Item F} {i j : ℕ}
    (items : results'.items[j]? = results.items[i]?)
    (scores : results'.scores[j]? = results.scores[i]?) :
    results'.candidateAt (j : Position) = results.candidateAt (i : Position) := by
  rw [candidateAt_natCast, candidateAt_natCast, getElem?_candidates_congr items scores]

/-- Result sets with the same items and the same scores are the same. -/
theorem eq_of_items_of_scores {results' : ResultSet Item F} (items : results'.items = results.items)
    (scores : results'.scores = results.scores) : results' = results := by
  have same : results'.candidates.toList = results.candidates.toList :=
    List.ext_getElem? fun k => getElem?_candidates_congr (by rw [items]) (by rw [scores])
  cases results
  cases results'
  exact congrArg _ (Array.toList_inj.mp same)

/-- The score at a position, or zero where there is none. -/
def held (results : ResultSet Item F) (position : Position) : Number F :=
  match results.scoreAt position with
  | .ok score => score
  | .error _ => 0

theorem held_of_scoreAt {position : Position} (known : results.scoreAt position = .ok score) :
    results.held position = score := by
  rw [held, known]

theorem scoreAt_eq_held (within : k < results.size) :
    results.scoreAt (k : Position) = .ok (results.held (k : Position)) := by
  have inside : k < results.scores.length := by rwa [length_scores]
  have known : results.scoreAt (k : Position) = .ok results.scores[k] :=
    scoreAt_eq_ok_iff.mpr (List.getElem?_eq_getElem inside)
  rw [held_of_scoreAt known, known]

/-- Writing a score replaces one entry of the scores and nothing else. -/
theorem result_write (within : k < results.size) (score : Number F) :
    ∃ results', (write (k : Position) score).result results = (.ok (), results') ∧
      results'.items = results.items ∧ results'.scores = results.scores.set k score := by
  let results' : ResultSet Item F :=
    ⟨results.candidates.modify k fun candidate => { candidate with score }⟩
  have written : results.setScore (k : Position) score = .ok results' := by
    rw [setScore, Position.index?_natCast within]
  refine ⟨results', ?_, items_setScore written, ?_⟩
  · simp only [Attempt.result, write, written]
  · apply List.ext_getElem?
    intro j
    simp only [results', scores, Array.toList_modify, List.getElem?_map, List.getElem?_modify,
      List.getElem?_set, List.length_map, Array.length_toList]
    have inside : k < results.candidates.size := within
    by_cases same : k = j
    · subst same
      simp [inside]
    · simp [same]

end ResultSet

end Lookalike
