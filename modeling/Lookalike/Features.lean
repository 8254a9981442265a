import Lookalike.Fault
import Lookalike.NumberArray.Basic

/-!
# Feature vectors

An image is known by its feature vector. Stored features are raw bytes, one signed feature each,
nested lists of numbers, or a vector. All are cast to a flat vector in the storage format of the
numbers in which scores are computed.

## Main definitions

* `Features`, `FeatureVector`
* `Scalar.toNumber`, `Scalar.toInteger`, `Features.numberOf`
* `Features.toVector`, the vector that stored features are cast to
-/

namespace Lookalike

/-- A flat vector of features, kept in the storage format. -/
abbrev FeatureVector (F : Format) := List (Number F.storage)

/-- Features as they are stored. -/
inductive Features (F : Format) where
  /-- One signed feature per byte. -/
  | bytes (data : List UInt8)
  /-- A number, or nested lists of numbers. -/
  | values (data : Datum)
  /-- A vector that needs no cast. -/
  | vector (data : FeatureVector F)

/-- The integer that a byte stands for as a signed number of eight bits. -/
def signedByte (byte : UInt8) : Int :=
  if byte.toNat < 128 then byte.toNat else (byte.toNat : Int) - 256

/-- A scalar as a number: a truth value is 0 or 1, and a text is read. -/
def Scalar.toNumber (F : Format) : Scalar → Except Fault (Number F)
  | .null => .error .wrongKind
  | .bool value => .ok (if value then 1 else 0)
  | .int value =>
    let x := Number.ofInt F value
    if x.isFinite then .ok x else .error .tooLarge
  | .real value => .ok (value.convert F)
  | .text value =>
    match Text.real? F value.toList with
    | some x => .ok x
    | none => .error .unreadable

/-- A scalar as an integer: a real is cut off, and a text is read. -/
def Scalar.toInteger : Scalar → Except Fault Int
  | .null => .error .wrongKind
  | .bool value => .ok (if value then 1 else 0)
  | .int value => .ok value
  | .real value =>
    if value.isNaN then .error .unreadable
    else if !value.isFinite then .error .tooLarge
    else .ok (value.value.num.tdiv value.value.den)
  | .text value =>
    match Text.integer? value.toList with
    | some n => .ok n
    | none => .error .unreadable

namespace Features

/-- A single stored feature as a number. What is missing is no number. -/
def numberOf (F : Format) : Scalar → Except Fault (Number F)
  | .null => .ok .nan
  | value => value.toNumber F

/-- The leaves of nested lists in order; `none` stands for a record. -/
def leaves : Datum → List (Option Scalar)
  | .scalar value => [some value]
  | .record _ => [none]
  | .list items => leavesOf items
where
  /-- The leaves of all items of a list. -/
  leavesOf : List Datum → List (Option Scalar)
    | [] => []
    | item :: items => leaves item ++ leavesOf items

/-- The lengths of nested lists, from the outermost to the innermost, if all lists of one depth
agree. -/
def nestedShape? : Datum → Option (List Nat)
  | .scalar _ | .record _ => some []
  | .list [] => some [0]
  | .list (item :: items) => do
    let inner ← nestedShape? item
    let count ← sameShape inner items
    some ((count + 1) :: inner)
where
  /-- How many items there are, if all of them have the given shape. -/
  sameShape (shape : List Nat) : List Datum → Option Nat
    | [] => some 0
    | item :: items => do
      let inner ← nestedShape? item
      let count ← sameShape shape items
      if inner = shape then some (count + 1) else none

/-- The shape of the array that nested lists make up, if it has no more dimensions than arrays
may. -/
def shape? (data : Datum) : Option (List Nat) :=
  (nestedShape? data).filter fun shape => shape.length ≤ NumberArray.dimensionLimit

/-- A leaf as a number of the storage format. -/
def storedLeaf (F : Format) (leaf : Option Scalar) : Except Fault (Number F.storage) :=
  match leaf with
  | some value => (numberOf F value).map (Number.convert F.storage)
  | none => .error .wrongKind

/-- The vector that stored features are cast to. -/
def toVector {F : Format} : Features F → Except Fault (FeatureVector F)
  | bytes data => .ok (data.map fun byte => Number.ofInt F.storage (signedByte byte))
  | vector data => .ok data
  | values data =>
    match shape? data with
    | none => .error .unreadable
    | some _ => (leaves data).mapM (storedLeaf F)

end Features

end Lookalike
