/-!
# Positions

A position is counted from the front of a list, or, when it is negative, from its end. A position
that names an element has to lie within the list; a position that cuts a list is brought to its
nearer end.

## Main definitions

* `Position.index?`, the index that a position names in a list of some size
* `Position.cut`, the number of elements in front of a position
* `Position.after`, `Position.upTo`, the parts of a list after and before a position
-/

namespace Lookalike

/-- A place in a list, counted from the front or, when negative, from the end. -/
abbrev Position := Int

namespace Position

variable {α : Type}

/-- The index that a position names in a list of the given size. -/
def index? (size : Nat) (position : Position) : Option Nat :=
  let index := if position < 0 then position + size else position
  if 0 ≤ index ∧ index < size then some index.toNat else none

/-- How many elements of a list of the given size lie in front of a position. -/
def cut (size : Nat) (position : Position) : Nat :=
  if position < 0 then (position + size).toNat else min position.toNat size

/-- The part of a list that starts at a position. -/
def after (position : Position) (items : List α) : List α := items.drop (cut items.length position)

/-- The part of a list in front of a position. -/
def upTo (position : Position) (items : List α) : List α := items.take (cut items.length position)

/-- A position names an index within the list. -/
theorem lt_of_index? {size index : Nat} {position : Position}
    (named : index? size position = some index) : index < size := by
  unfold index? at named
  split at named <;> grind

/-- A position that is not negative names the index that it counts to. -/
theorem index?_natCast {size index : Nat} (within : index < size) :
    index? size (index : Position) = some index := by
  unfold index?
  split <;> grind

/-- A position cuts a list into two parts that make up the list. -/
theorem upTo_append_after (position : Position) (items : List α) :
    upTo position items ++ after position items = items :=
  List.take_append_drop _ _

end Position

end Lookalike
