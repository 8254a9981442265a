import Lookalike.NumberArray.Element

/-!
# Names of kinds of elements

A kind of elements is named by a letter, by a letter and a size in bytes or characters, or by a
word. Times are counts of a unit, which may stand in brackets behind the name of the kind of times,
with a number in front of it and a divisor behind it. A mark of the byte order may stand before all
of these but a word.

## Main definitions

* `ElementKind.ofLetter?`, `ElementKind.ofSize?`, `ElementKind.ofWord?`
* `ElementKind.ofTime`, the kind of times of the unit in brackets
* `ElementKind.ofName`, the kind that a name stands for
-/

namespace Lookalike.ElementKind

/-- The kinds by the control characters that stand for them, from the null character on. -/
def numbered : List ElementKind := [
  truth, integer true 8, integer false 8, integer true 16, integer false 16, integer true 32,
  integer false 32, integer true 64, integer false 64, integer true 64, integer false 64,
  number .binary32, number .binary64, number .exact, complex .binary32, complex .binary64,
  complex .exact, object, plainText none, wideText none, bytes none, time .general, time .general,
  number .binary16]

/-- The letters that name each kind. -/
def letters : List (String × ElementKind) := [
  ("?", truth), ("b", integer true 8), ("B", integer false 8), ("h", integer true 16),
  ("H", integer false 16), ("i", integer true 32), ("I", integer false 32),
  ("lqpn", integer true 64), ("LQPN", integer false 64), ("Mm", time .general),
  ("e", number .binary16), ("f", number .binary32), ("d", number .binary64), ("g", number .exact),
  ("F", complex .binary32), ("D", complex .binary64), ("G", complex .exact),
  ("c", plainText (some 1)), ("S", plainText none), ("U", wideText none), ("V", bytes none),
  ("O", object), ("T", apart)]

/-- The words that name each kind. -/
def words : List (List String × ElementKind) := [
  (["bool", "bool_"], truth), (["int8", "byte"], integer true 8),
  (["uint8", "ubyte"], integer false 8), (["int16", "short"], integer true 16),
  (["uint16", "ushort"], integer false 16), (["int32", "intc"], integer true 32),
  (["uint32", "uintc"], integer false 32),
  (["int64", "int", "int_", "intp", "long", "longlong"], integer true 64),
  (["uint64", "uint", "uintp", "ulong", "ulonglong"], integer false 64),
  (["float16", "half"], number .binary16),
  (["float32", "single"], number .binary32), (["float64", "double", "float"], number .binary64),
  (["float128", "longdouble"], number .exact), (["complex64", "csingle"], complex .binary32),
  (["complex128", "complex", "cdouble"], complex .binary64),
  (["complex256", "clongdouble"], complex .exact), (["str", "str_", "unicode"], wideText none),
  (["bytes", "bytes_", "a"], plainText none), (["void"], bytes none),
  (["object", "object_"], object)]

/-- The kind that a character names. -/
def ofLetter? (c : Char) : Option ElementKind :=
  (numbered[c.toNat]?).or ((letters.find? fun entry => entry.1.contains c).map (·.2))

/-- The kind that a word names. -/
def ofWord? (word : List Char) : Option ElementKind :=
  (words.find? fun entry => entry.1.contains (String.ofList word)).map (·.2)

/-- The kind that a letter and a size name. -/
def ofSize? (letter : Char) (size : Nat) : Option ElementKind :=
  match letter, size with
  | 'S', _ | 'a', _ => some ((plainText none).sized size)
  | 'U', _ => if greatestSize / 4 < size then none else some ((wideText none).sized size)
  | 'V', _ => some ((bytes none).sized size)
  | 'f', 2 => some (number .binary16)
  | 'f', 4 => some (number .binary32)
  | 'f', 8 => some (number .binary64)
  | 'f', 16 => some (number .exact)
  | 'c', 8 => some (complex .binary32)
  | 'c', 16 => some (complex .binary64)
  | 'c', 32 => some (complex .exact)
  | 'i', 1 | 'i', 2 | 'i', 4 | 'i', 8 => some (integer true (8 * size))
  | 'u', 1 | 'u', 2 | 'u', 4 | 'u', 8 => some (integer false (8 * size))
  | 'M', 8 | 'm', 8 => some (time .general)
  | 'b', 1 => some truth
  | 'O', 4 | 'O', 8 => some object
  | _, _ => none

/-- The kind of times that what stands behind its name tells: nothing, or a unit in brackets. -/
def ofTime : List Char → Except Fault ElementKind
  | [] => .ok (time .general)
  | '[' :: inner => do
    let text := inner.takeWhile (· != ']')
    if text.isEmpty || text.length = inner.length then throw .wrongKind
    let unit ← TimeUnit.ofText text
    if text.length + 1 ≠ inner.length then throw .wrongKind
    pure (time unit)
  | _ => .error .wrongKind

/-- The names of the kinds of times. -/
def timeNames : List String := ["M8", "m8", "datetime64", "timedelta64"]

/-- The kind that a letter, with or without a size, names. -/
def ofCode? : List Char → Option ElementKind
  | [letter] => ofLetter? letter
  | letter :: size =>
    match Text.leadingInteger? size with
    | some (size, []) =>
      if 0 ≤ size && size ≤ greatestSize then ofSize? letter size.toNat else none
    | _ => none
  | [] => none

/-- A text without a mark of the byte order in front of it, and the mark. -/
def splitMark : List Char → Option Char × List Char
  | c :: rest => if c ∈ ['<', '>', '=', '|'] then (some c, rest) else (none, c :: rest)
  | [] => (none, [])

/-- The kind that a name stands for. -/
def ofName (name : List Char) : Except Fault ElementKind :=
  let rest := (splitMark name).2
  match timeNames.find? fun kind => kind.toList.isPrefixOf rest with
  | some kind => ofTime (rest.drop kind.length)
  | none =>
    match (ofCode? rest).or (ofWord? name) with
    | some kind => .ok kind
    | none => .error .wrongKind

end Lookalike.ElementKind
