import Lookalike.Features
import Lookalike.Number.Word
import Lookalike.NumberArray.TimeUnit

/-!
# Kinds of elements

All elements of an array are of one kind: numbers of a format, integers of some bits, times, truth
values, texts or bytes. Nested lists become an array by bringing each leaf to the kind, in which it
has to fit. An array is brought to another kind element by element and read as numbers again: a
number is rounded, an integer wraps around, a text is the number written out and read, and bytes are
those of the element, read as a text.

An element may also be a thing of which nothing is known. The one thing that is brought to other
kinds stands for a missing value.

## Main definitions

* `ElementKind`, with `ElementKind.width`, how many bytes an element takes
* `ElementKind.holds`, `ElementKind.wrapped`, the integers of a kind
* `ElementKind.missing`, what a missing value becomes
* `ElementKind.convert`, an element of one kind brought to another
* `ElementKind.isRestored`, whether a file gives elements of a kind back
* `NumberArray.ofNested`, the array that nested lists make up
* `NumberArray.zeros`, an array of zeros
-/

namespace Lookalike

/-- What the elements of an array are. -/
inductive ElementKind where
  | number (format : Format)
  /-- Pairs of numbers, of which the second is zero and is not read. -/
  | complex (format : Format)
  | integer (signed : Bool) (bits : Nat)
  /-- Integers of 64 bits that count a unit of time. -/
  | time (unit : TimeUnit)
  | truth
  /-- Texts of so many bytes in each character, cut to a length if one is given. -/
  | text (letterWidth : Nat) (length : Option Nat)
  /-- Bytes, as many as are given or else as an element has. -/
  | bytes (count : Option Nat)
  /-- Elements of which nothing is known. -/
  | object
  /-- Texts that are kept apart from the array, each of a length of its own. -/
  | apart
deriving DecidableEq, Repr

namespace ElementKind

/-- How many bits the numbers of a format take. -/
def formatBits : Format → Nat
  | .exact => 128
  | F => 1 + F.exponentBits + F.fractionBits

/-- Texts whose characters take one byte. -/
def plainText (length : Option Nat) : ElementKind := text 1 length

/-- Texts whose characters take four bytes. -/
def wideText (length : Option Nat) : ElementKind := text 4 length

/-- How many bytes an element of a kind takes at least. -/
def width : ElementKind → Nat
  | number format => formatBits format / 8
  | complex format => 2 * (formatBits format / 8)
  | integer _ bits => bits / 8
  | time _ => 8
  | truth => 1
  | text letterWidth length => letterWidth * length.getD 0
  | bytes count => count.getD 0
  | object => 8
  | apart => 16

/-- The greatest size that an element may have. -/
def greatestSize : Nat := 2147483647

/-- Whether a file gives elements of a kind back. It does not where they are kept apart from the
array, nor where they count a negative number of units. -/
def isRestored : ElementKind → Bool
  | object | apart => false
  | time unit => 0 ≤ unit.count
  | _ => true

/-- A kind whose elements have no size of their own, with one. The size zero is none. -/
def sized (count : Nat) : ElementKind → ElementKind
  | text letterWidth _ => text letterWidth (if count = 0 then none else some count)
  | bytes _ => bytes (if count = 0 then none else some count)
  | kind => kind

/-- A kind whose elements take no bytes if no size is given. -/
def fixed : ElementKind → ElementKind
  | text letterWidth none => text letterWidth (some 0)
  | bytes none => bytes (some 0)
  | kind => kind

/-- Whether an integer is between the bounds of so many bits. -/
def holds (signed : Bool) (bits : Nat) (n : Int) : Bool :=
  let bound : Int := Nat.pow 2 (bits - 1)
  if signed then -bound ≤ n && n < bound else 0 ≤ n && n < 2 * bound

/-- The integer between the bounds of so many bits that differs from another by a multiple of their
number. -/
def wrapped (signed : Bool) (bits : Nat) (n : Int) : Int :=
  if signed then n.bmod (Nat.pow 2 bits) else n.emod (Nat.pow 2 bits : Nat)

/-- The integer that a machine makes of a number: the number cut off, or the least integer of the
word where the number is beyond its bounds. -/
def machineInteger (signed : Bool) (bits : Nat) (x : Number .exact) : Int :=
  -- Short words are computed in a word of 32 bits and cut off behind.
  let word := if bits ≤ 16 || (signed && bits == 32) then 32 else 64
  let least : Int := -(Nat.pow 2 (word - 1) : Int)
  let limit := if signed || bits ≠ 64 then -least else -2 * least
  let n := x.value.num.tdiv x.value.den
  if x.isFinite && least ≤ n && n < limit then n else least

/-- A leaf of nested lists as an element of a kind. Where integers are kept it is cut off to one,
which has to fit. -/
def ofLeaf (kind : ElementKind) : Option Scalar → Except Fault (Number .exact)
  | none => .error .wrongKind
  | some value =>
    match kind with
    | integer signed bits => do
      let n ← value.toInteger
      if holds signed bits n then pure (.finite n) else throw .tooLarge
    | number format => do
      let x ← Features.numberOf .binary64 value
      pure ((x.convert format).convert .exact)
    | _ => do pure ((← Features.numberOf .binary64 value).convert .exact)

/-- The text of a number of 32 bits. It is written in full only from a ten thousandth on and below a
million. -/
def binary32Text (x : Number .binary32) : String :=
  let size := magnitude x.value
  x.textBy (if mkRat 1 10000 ≤ size ∧ size < 1000000 then Number.positional else Number.scientific)

/-- The text of an element of a kind. -/
def elementText : ElementKind → Number .exact → String
  | integer _ _, x => Number.integerText x.value.num
  | number format, x =>
    if format = .binary32 then binary32Text (x.convert .binary32) else (x.convert format).toText
  | _, x => x.toText

/-- An element of a kind as an integer of so many bits. -/
def toInteger (source : ElementKind) (signed : Bool) (bits : Nat) (x : Number .exact) : Int :=
  match source with
  | integer _ _ => wrapped signed bits x.value.num
  | _ => wrapped signed bits (machineInteger signed bits x)

/-- The bytes of an element of a kind, the least significant one first. -/
def elementBytes (source : ElementKind) (x : Number .exact) : List UInt8 :=
  let word :=
    match source with
    | number format => (x.convert format).toWord
    | _ => (wrapped false (8 * source.width) (toInteger source true 64 x)).toNat
  (List.range source.width).map fun place => UInt8.ofNat (word / Nat.pow 256 place)

/-- The number that bytes are read as. They have to be those of a text in the basic characters, of
which the separators are no blanks here. -/
def readBytes (bytes : List UInt8) : Except Fault (Number .exact) :=
  let characters := bytes.map fun byte => Char.ofNat byte.toNat
  let isForeign := fun c => Text.isSeparator c || 0x80 ≤ c.toNat
  match Text.real? .binary64 characters, characters.any isForeign with
  | some x, false => .ok (x.convert .exact)
  | _, _ => .error .unreadable

/-- The number that an element is read as when only so many of its bytes are kept. Bytes that an
element does not have are null characters, which are part of no number. -/
def readCut (count : Option Nat) (bytes : List UInt8) : Except Fault (Number .exact) :=
  let count := count.getD bytes.length
  if bytes.length < count then .error .unreadable else readBytes (bytes.take count)

/-- What a missing value becomes where it is brought to a kind. There is none among integers and
bytes; a time is then the least one, and a text tells no number. -/
def missing : ElementKind → Except Fault (Number .exact)
  | number _ | complex _ => .ok .nan
  | time _ => .ok (.finite (-(Nat.pow 2 63 : Int)))
  | truth => .ok 0
  | integer _ _ | bytes _ => .error .wrongKind
  | text _ _ | object | apart => .error .unreadable

/-- An element of the first kind brought to the second, as the number that it is read as. -/
def convert (source : ElementKind) (x : Number .exact) (target : ElementKind) :
    Except Fault (Number .exact) :=
  match source, target with
  | object, _ => target.missing
  | _, number format | _, complex format => .ok ((x.convert format).convert .exact)
  | _, integer signed bits => .ok (.finite (toInteger source signed bits x))
  | _, time _ => .ok (.finite (toInteger source true 64 x))
  | _, truth => .ok (if x.isZero then 0 else 1)
  -- A text is cut to its length before it is read as a number again.
  | _, text _ length => do
    let written := (elementText source x).toList
    let read ← (Scalar.text (String.ofList (written.take (length.getD written.length)))).toNumber
      .binary64
    pure (read.convert .exact)
  | _, bytes count => readCut count (elementBytes source x)
  | _, object | _, apart => .error .unreadable

end ElementKind

namespace NumberArray

/-- The array of a kind that nested lists make up. -/
def ofNested (kind : ElementKind) (data : Datum) : Except Fault (NumberArray .exact) := do
  match Features.shape? data with
  | none => throw .unreadable
  | some shape => pure ⟨shape, ← (Features.leaves data).mapM kind.ofLeaf⟩

/-- How many bytes arrays may take, as a power of two. -/
def sizeLimit : Nat := Nat.pow 2 63

/-- An array of zeros with dimensions of the given lengths. No length may be negative, and there
have to be bytes for the numbers, even if another length is zero. -/
def zeros (format : Format) (lengths : List Int) : Except Fault (NumberArray .exact) :=
  let shape := lengths.map Int.toNat
  let size := (shape.filter (· ≠ 0)).foldl (· * ·) ((ElementKind.number format).width)
  if lengths.any (· < 0) || dimensionLimit < lengths.length || sizeLimit ≤ size then
    .error .unreadable
  else .ok ⟨shape, List.replicate (shape.foldl (· * ·) 1) 0⟩

end NumberArray

end Lookalike
