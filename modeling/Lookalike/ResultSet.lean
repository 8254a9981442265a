import Lookalike.Fault
import Lookalike.Position

/-!
# Result sets

A result set holds the items that some earlier search has found, with one score each. Its items
stay as they are; its scores are written position by position.

## Main definitions

* `Candidate`, an item with its score
* `ResultSet`, `ResultSet.ofItems`
* `ResultSet.itemAt`, `ResultSet.scoreAt`, `ResultSet.setScore`
-/

namespace Lookalike

/-- An item together with its score. -/
structure Candidate (Item : Type) (F : Format) where
  item : Item
  score : Number F
deriving DecidableEq

/-- The items of a search with their scores, in the order of the search. -/
structure ResultSet (Item : Type) (F : Format) where
  candidates : Array (Candidate Item F)
deriving DecidableEq

namespace ResultSet

variable {Item : Type} {F : Format}

/-- A result set in which all items have the same score. -/
def ofItems (items : List Item) (initial : Number F) : ResultSet Item F :=
  ⟨(items.map fun item => ⟨item, initial⟩).toArray⟩

def size (results : ResultSet Item F) : Nat := results.candidates.size

/-- The items, in order. -/
def items (results : ResultSet Item F) : List Item := results.candidates.toList.map (·.item)

/-- The scores, in order. -/
def scores (results : ResultSet Item F) : List (Number F) :=
  results.candidates.toList.map (·.score)

/-- The candidate at a position. -/
def candidateAt (results : ResultSet Item F) (position : Position) :
    Except Fault (Candidate Item F) :=
  match (Position.index? results.size position).bind (results.candidates[·]?) with
  | some candidate => .ok candidate
  | none => .error .outOfRange

/-- The item at a position. -/
def itemAt (results : ResultSet Item F) (position : Position) : Except Fault Item :=
  (results.candidateAt position).map (·.item)

/-- The score at a position. -/
def scoreAt (results : ResultSet Item F) (position : Position) : Except Fault (Number F) :=
  (results.candidateAt position).map (·.score)

/-- The result set with the score at a position replaced. -/
def setScore (results : ResultSet Item F) (position : Position) (score : Number F) :
    Except Fault (ResultSet Item F) :=
  match Position.index? results.size position with
  | some index =>
    .ok ⟨results.candidates.modify index fun candidate => { candidate with score }⟩
  | none => .error .outOfRange

theorem toList_modify_score (candidates : Array (Candidate Item F)) (index : Nat)
    (score : Number F) :
    (candidates.modify index fun candidate => { candidate with score }).toList.map (·.item) =
      candidates.toList.map (·.item) := by
  simp only [Array.toList_modify]
  apply List.ext_getElem? fun k => ?_
  simp only [List.getElem?_map, List.getElem?_modify]
  split <;> cases candidates.toList[k]? <;> rfl

/-- Writing a score leaves the items as they are. -/
theorem items_setScore {results results' : ResultSet Item F} {position : Position}
    {score : Number F} (written : results.setScore position score = .ok results') :
    results'.items = results.items := by
  unfold setScore at written
  split at written
  · cases written
    exact toList_modify_score _ _ _
  · cases written

/-- Writes the score at a position. -/
def write (position : Position) (score : Number F) : Attempt (ResultSet Item F) Unit :=
  fun results =>
    match results.setScore position score with
    | .ok results' => .ok () results'
    | .error fault => .error fault results

end ResultSet

end Lookalike
