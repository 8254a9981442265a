import Lookalike.NumberArray.Basic
import Lookalike.Number.Word

/-!
# Array files

An array file begins with a mark, a version and a header. The header is a text that names the type
of the elements, whether the first dimension varies fastest, and the shape. The elements follow as
words.

## Main definitions

* `ElementType`, `ElementType.ofCode?`, `ElementType.decode`
* `NumberArray.isArrayFile`, whether a file begins with the mark
* `NumberArray.ofFile?`, the array that a file holds
-/

namespace Lookalike

/-- How an element is stored. -/
inductive ElementType where
  | binary (format : Format) (bytes : Nat)
  | signed (bytes : Nat)
  | unsigned (bytes : Nat)
deriving DecidableEq, Repr

namespace ElementType

/-- How many bytes an element takes. -/
def bytes : ElementType → Nat
  | binary _ bytes | signed bytes | unsigned bytes => bytes

/-- The element type of a code without its mark of the byte order. -/
def ofCode? : List Char → Option ElementType
  | ['f', '2'] => some (binary .binary16 2)
  | ['f', '4'] => some (binary .binary32 4)
  | ['f', '8'] => some (binary .binary64 8)
  | ['i', '1'] => some (signed 1)
  | ['i', '2'] => some (signed 2)
  | ['i', '4'] => some (signed 4)
  | ['i', '8'] => some (signed 8)
  | ['u', '1'] | ['b', '1'] => some (unsigned 1)
  | ['u', '2'] => some (unsigned 2)
  | ['u', '4'] => some (unsigned 4)
  | ['u', '8'] => some (unsigned 8)
  | _ => none

/-- The number that a word stands for. -/
def decode (type : ElementType) (word : Nat) : Number .exact :=
  match type with
  | binary format _ => (Number.ofWord format word).convert .exact
  | signed bytes =>
    let bound := Nat.pow 256 bytes
    Number.ofInt .exact (if 2 * word < bound then (word : Int) else (word : Int) - bound)
  | unsigned _ => Number.ofInt .exact word

end ElementType

namespace NumberArray

/-- The number that bytes stand for, the least significant byte first. -/
def wordOf (bytes : List UInt8) : Nat :=
  bytes.foldr (fun byte word => byte.toNat + 256 * word) 0

/-- The mark at the beginning of an array file. -/
def mark : List UInt8 := [0x93, 0x4e, 0x55, 0x4d, 0x50, 0x59]

/-- Whether a file begins with the mark. -/
def isArrayFile (bytes : List UInt8) : Bool := mark.isPrefixOf bytes

/-- The part of a text behind the first occurrence of another. -/
def behind? (pattern : List Char) : List Char → Option (List Char)
  | [] => none
  | c :: rest =>
    if pattern.isPrefixOf (c :: rest) then some ((c :: rest).drop pattern.length)
    else behind? pattern rest

/-- The value of a field of the header, up to the end of the header. -/
def headerField? (name : String) (header : List Char) : Option (List Char) :=
  (behind? (("'" ++ name ++ "':").toList) header).map (·.dropWhile (· == ' '))

/-- The decimal numbers in a text, whatever separates them. -/
def numbersIn : List Char → Option Nat → List Nat
  | [], number => number.toList
  | c :: rest, number =>
    if '0' ≤ c ∧ c ≤ '9' then numbersIn rest (some (10 * number.getD 0 + (c.toNat - 48)))
    else number.toList ++ numbersIn rest none

/-- The element type, the order of the bytes and of the dimensions, and the shape that a header
names. -/
structure Header where
  type : ElementType
  bigEndian : Bool
  firstFastest : Bool
  shape : List Nat

/-- Reads a header. -/
def header? (text : List Char) : Option Header := do
  let code ← (← headerField? "descr" text).tail?.map (·.takeWhile (· != '\''))
  let type ←
    match code with
    | order :: code => if order ∈ ['<', '>', '|', '='] then ElementType.ofCode? code else none
    | [] => none
  let order ← headerField? "fortran_order" text
  let shape ← headerField? "shape" text
  pure ⟨type, code.head? == some '>', order.head? == some 'T',
    numbersIn (shape.takeWhile (· != ')')) none⟩

/-- Every so many items of a list, from the first on. -/
def stride {α : Type} (step : Nat) : (count : Nat) → List α → List α
  | 0, _ => []
  | _ + 1, [] => []
  | count + 1, item :: rest => item :: stride step count (rest.drop (step - 1))

/-- Values in which the first dimension varies fastest, in the usual order, in which the last one
does. -/
def reversedOrder {α : Type} : List Nat → List α → List α
  | [], values => values
  | dimension :: shape, values =>
    let count := values.length / dimension
    (List.range dimension).flatMap fun k =>
      reversedOrder shape (stride dimension count (values.drop k))

/-- The array that the bytes of a file hold. -/
def ofFile? (bytes : List UInt8) : Option (NumberArray .exact) := do
  if !isArrayFile bytes then none
  let rest := bytes.drop mark.length
  let lengthBytes := if rest.head? == some 1 then 2 else 4
  let headerLength := wordOf ((rest.drop 2).take lengthBytes)
  let body := rest.drop (2 + lengthBytes)
  let header ← header? ((body.take headerLength).map fun byte => Char.ofNat byte.toNat)
  let count := header.shape.foldl (· * ·) 1
  let size := header.type.bytes
  let data := body.drop headerLength
  if data.length < count * size then none
  let values := (parts size count data).map fun word =>
    header.type.decode (wordOf (if header.bigEndian then word.reverse else word))
  pure ⟨header.shape, if header.firstFastest then reversedOrder header.shape values else values⟩

end NumberArray

end Lookalike
