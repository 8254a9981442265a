import Lookalike.Number.Basic

/-!
# Arrays of numbers

An array of numbers has a shape, the lengths of its dimensions from the outermost to the innermost,
and its numbers in order. Arrays that are read or stored hold exact numbers, so that casting them to
a format rounds each number once.

## Main definitions

* `NumberArray`, `NumberArray.dimensionLimit`
* `NumberArray.ofVector`, `NumberArray.cast`, `NumberArray.rows?`
-/

namespace Lookalike

/-- Numbers arranged in dimensions. -/
structure NumberArray (F : Format) where
  shape : List Nat
  values : List (Number F)

namespace NumberArray

variable {F : Format}

/-- How many dimensions an array may have. -/
def dimensionLimit : Nat := 64

/-- A vector as an array of one dimension. -/
def ofVector (vector : List (Number F)) : NumberArray F := ⟨[vector.length], vector⟩

/-- An array with its numbers in another format. -/
def cast (G : Format) (array : NumberArray F) : NumberArray G :=
  ⟨array.shape, array.values.map (·.convert G)⟩

/-- A list cut into a number of parts of one length. -/
def parts {α : Type} (length : Nat) : (count : Nat) → List α → List (List α)
  | 0, _ => []
  | count + 1, items => items.take length :: parts length count (items.drop length)

/-- The number of columns and the rows of a matrix. -/
def rows? (array : NumberArray F) : Option (Nat × List (List (Number F))) :=
  match array.shape with
  | [rows, columns] => some (columns, parts columns rows array.values)
  | _ => none

end NumberArray

end Lookalike
