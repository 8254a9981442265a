import Lookalike.Number.Basic

/-!
# Data

Item handles, index keys, content hashes and raw settings come as data of a few kinds. A scalar
can be looked up in a table; lists and records cannot. Data are compared by what they denote: a
truth value denotes 0 or 1, a real without a fraction denotes that integer, and the order of the
fields of a record means nothing.

## Main definitions

* `Scalar`, `Scalar.canonical` and the comparison `==` of scalars
* `Datum`, a scalar, a list or a record, with `Datum.canonical` and the comparison `==`
* `TableKey`, the types some of whose values can be looked up
* `putEntry`, an association list with an entry put
-/

namespace Lookalike

/-- A single value. -/
inductive Scalar where
  | null
  | bool (value : Bool)
  | int (value : Int)
  | real (value : Number .binary64)
  | text (value : String)
deriving DecidableEq, Inhabited

namespace Scalar

/-- The one representative of the scalars that denote the same value. -/
def canonical : Scalar → Scalar
  | bool value => int (if value then 1 else 0)
  | real value => if value.isFinite && value.value.den == 1 then int value.value.num else real value
  | other => other

/-- Scalars are the same when they denote the same value. -/
instance : BEq Scalar := ⟨fun a b => decide (a.canonical = b.canonical)⟩

theorem beq_iff {a b : Scalar} : (a == b) = true ↔ a.canonical = b.canonical :=
  decide_eq_true_iff

instance : EquivBEq Scalar where
  rfl := beq_iff.mpr rfl
  symm h := beq_iff.mpr (beq_iff.mp h).symm
  trans h h' := beq_iff.mpr ((beq_iff.mp h).trans (beq_iff.mp h'))

end Scalar

/-- A scalar, a list, or a record whose fields are in order. -/
inductive Datum where
  | scalar (value : Scalar)
  | list (items : List Datum)
  | record (fields : List (String × Datum))
deriving Inhabited

namespace Datum

mutual

/-- Decides whether two data are written in the same way. -/
def decideEq : (a b : Datum) → Decidable (a = b)
  | scalar a, scalar b => decidable_of_iff (a = b) (by simp)
  | list items, list items' =>
    match decideItemsEq items items' with
    | isTrue same => isTrue (by rw [same])
    | isFalse other => isFalse (by simpa using other)
  | record fields, record fields' =>
    match decideFieldsEq fields fields' with
    | isTrue same => isTrue (by rw [same])
    | isFalse other => isFalse (by simpa using other)
  | scalar _, list _ | scalar _, record _ | list _, scalar _ | list _, record _
  | record _, scalar _ | record _, list _ => isFalse (by simp)

/-- Decides whether the items of two lists are written in the same way. -/
def decideItemsEq : (items items' : List Datum) → Decidable (items = items')
  | [], [] => isTrue rfl
  | [], _ :: _ | _ :: _, [] => isFalse (by simp)
  | a :: items, b :: items' =>
    match decideEq a b, decideItemsEq items items' with
    | isTrue same, isTrue same' => isTrue (by rw [same, same'])
    | isFalse other, _ | _, isFalse other => isFalse (by simp [other])

/-- Decides whether the fields of two records are written in the same way and order. -/
def decideFieldsEq : (fields fields' : List (String × Datum)) → Decidable (fields = fields')
  | [], [] => isTrue rfl
  | [], _ :: _ | _ :: _, [] => isFalse (by simp)
  | (name, a) :: fields, (name', b) :: fields' =>
    match decEq name name', decideEq a b, decideFieldsEq fields fields' with
    | isTrue same, isTrue same', isTrue same'' => isTrue (by rw [same, same', same''])
    | isFalse other, _, _ | _, isFalse other, _ | _, _, isFalse other => isFalse (by simp [other])

end

instance : DecidableEq Datum := decideEq

mutual

/-- The one representative of the data that denote the same value. -/
def canonical : Datum → Datum
  | scalar value => scalar value.canonical
  | list items => list (canonicalItems items)
  | record fields => record ((canonicalFields fields).mergeSort fun a b => decide (a.1 ≤ b.1))

/-- The representatives of the items of a list. -/
def canonicalItems : List Datum → List Datum
  | [] => []
  | item :: items => canonical item :: canonicalItems items

/-- The representatives of the values of the fields of a record. -/
def canonicalFields : List (String × Datum) → List (String × Datum)
  | [] => []
  | (name, value) :: fields => (name, canonical value) :: canonicalFields fields

end

/-- Data are the same when they denote the same value. -/
instance : BEq Datum := ⟨fun a b => decide (a.canonical = b.canonical)⟩

theorem beq_iff {a b : Datum} : (a == b) = true ↔ a.canonical = b.canonical :=
  decide_eq_true_iff

instance : EquivBEq Datum where
  rfl := beq_iff.mpr rfl
  symm h := beq_iff.mpr (beq_iff.mp h).symm
  trans h h' := beq_iff.mpr ((beq_iff.mp h).trans (beq_iff.mp h'))

/-- Scalars are compared as data in the way they are compared as scalars. -/
theorem scalar_beq_scalar (a b : Scalar) : (scalar a == scalar b) = (a == b) := by
  rw [Bool.eq_iff_iff, beq_iff, Scalar.beq_iff]
  simp [canonical]

/-- The scalar that a datum is, if it is one. -/
def scalar? : Datum → Option Scalar
  | scalar value => some value
  | _ => none

/-- Whether a datum counts as true: all do but null, false, zero, and what is empty. -/
def isTruthy : Datum → Bool
  | scalar .null => false
  | scalar (.bool value) => value
  | scalar (.int value) => value != 0
  | scalar (.real value) => !value.isZero
  | scalar (.text value) => !value.isEmpty
  | list items => !items.isEmpty
  | record fields => !fields.isEmpty

/-- The value of a field of a record. -/
def field? (name : String) : Datum → Option Datum
  | record fields => fields.lookup name
  | _ => none

end Datum

/-- A type some of whose values can be looked up in a table. -/
class TableKey (Key : Type) where
  /-- Whether a value can be looked up. -/
  isKey : Key → Bool

instance : TableKey Scalar := ⟨fun _ => true⟩

instance : TableKey Datum := ⟨fun datum => datum.scalar?.isSome⟩

/-- An association list with the value of a key replaced, or the key added at the end. -/
def putEntry {Key Value : Type} [BEq Key] (key : Key) (value : Value) :
    List (Key × Value) → List (Key × Value)
  | [] => [(key, value)]
  | entry :: rest =>
    if key == entry.1 then (entry.1, value) :: rest else entry :: putEntry key value rest

end Lookalike
