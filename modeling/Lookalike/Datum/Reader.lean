import Lookalike.Datum.Basic
import Lookalike.Number.Decimal
import Lookalike.Text.Digit
import Lookalike.Text.Hexadecimal
import Lookalike.Text.Surrogate

/-!
# Reading documents

A document is one datum in JSON text. Three words beyond the standard stand for reals: `NaN`,
`Infinity` and `-Infinity`. A number without a point and without an exponent is an integer. When a
record repeats a field, the last value takes the place of the first. A surrogate that is not part of
a pair is a code point of its own.

A document is read from front to back, and the first fault that is met counts. Integers of too many
digits and lists and records within too many others are faults even where the document is well
formed.

## Main definitions

* `DocumentFault`, why a text is not read
* `Datum.readValue`, the datum at the front of a text and the rest of the text
* `Datum.ofDocument`, the datum that a whole text consists of
-/

namespace Lookalike

/-- Why a text is not read as a document. -/
inductive DocumentFault where
  | malformed
  /-- An integer has too many digits. -/
  | oversizedInteger
  /-- Lists and records are nested too deeply. -/
  | tooDeep
deriving DecidableEq, Repr

namespace Datum

/-- How many lists and records may lie within each other. -/
def depthLimit : Nat := 985

/-- Drops the blanks that may stand between the parts of a document. -/
def skipBlanks : List Char → List Char :=
  List.dropWhile fun c => c == ' ' || c == '\t' || c == '\n' || c == '\r'

/-- The character that one letter after a backslash stands for. -/
def escaped? : Char → Option Char
  | '"' => some '"'
  | '\\' => some '\\'
  | '/' => some '/'
  | 'b' => some '\x08'
  | 'f' => some '\x0c'
  | 'n' => some '\n'
  | 'r' => some '\r'
  | 't' => some '\t'
  | _ => none

/-- Puts a code point in front of the characters so far, which are in reverse order. -/
def pushPoint (done : List Char) (point : Nat) : List Char := (Text.spell point).reverse ++ done

/-- Reads a text up to its closing quote; `done` holds the characters so far, last first. -/
def readText : (fuel : Nat) → (done : List Char) → List Char → Option (String × List Char)
  | 0, _, _ => none
  | _ + 1, done, '"' :: rest => some (String.ofList done.reverse, rest)
  | fuel + 1, done, '\\' :: 'u' :: a :: b :: c :: d :: rest => do
    let unit ← Text.hexValue? [a, b, c, d]
    -- Two units in a row may make up one character; otherwise the first stands alone.
    let next : Option (Nat × List Char) :=
      match rest with
      | '\\' :: 'u' :: a' :: b' :: c' :: d' :: rest' => do
        let low ← Text.hexValue? [a', b', c', d']
        let point ← Text.surrogatePair? unit low
        some (point, rest')
      | _ => none
    match next with
    | some (point, rest') => readText fuel (pushPoint done point) rest'
    | none => readText fuel (pushPoint done unit) rest
  | fuel + 1, done, '\\' :: letter :: rest => do
    let c ← escaped? letter
    readText fuel (c :: done) rest
  | fuel + 1, done, c :: rest =>
    if c.toNat < 0x20 then none else readText fuel (pushPoint done c.toNat) rest
  | _ + 1, _, [] => none

def isDigit (c : Char) : Bool := '0' ≤ c && c ≤ '9'

/-- The value of a run of digits. -/
def digitsValue (digits : List Char) : Nat :=
  digits.foldl (fun value c => 10 * value + (c.toNat - 48)) 0

/-- The digits of an integer: a zero alone, or digits that do not start with zero. -/
def readWhole : List Char → Option (List Char × List Char)
  | '0' :: rest => some (['0'], rest)
  | text =>
    let digits := text.takeWhile isDigit
    if digits.isEmpty then none else some (digits, text.dropWhile isDigit)

/-- The digits after a point, if there are any. -/
def readFraction : List Char → List Char × List Char
  | '.' :: rest =>
    let digits := rest.takeWhile isDigit
    -- A point without digits behind it is not part of the number.
    if digits.isEmpty then ([], '.' :: rest) else (digits, rest.dropWhile isDigit)
  | text => ([], text)

/-- The exponent after its mark, if there is one. -/
def readExponent (text : List Char) : Option Int × List Char :=
  match text with
  | mark :: rest =>
    if mark == 'e' || mark == 'E' then
      let (negative, unsigned) :=
        match rest with
        | '-' :: tail => (true, tail)
        | '+' :: tail => (false, tail)
        | tail => (false, tail)
      let digits := unsigned.takeWhile isDigit
      if digits.isEmpty then (none, text)
      else
        let exponent : Int := digitsValue digits
        (some (if negative then -exponent else exponent), unsigned.dropWhile isDigit)
    else (none, text)
  | [] => (none, [])

/-- A number without its sign. -/
def readNumber (negative : Bool) (text : List Char) :
    Except DocumentFault (Scalar × List Char) :=
  match readWhole text with
  | none => .error .malformed
  | some (whole, afterWhole) =>
    let (fraction, afterFraction) := readFraction afterWhole
    let (exponent, rest) := readExponent afterFraction
    -- Without a fraction and an exponent it is an integer, of any size up to a limit.
    if fraction.isEmpty && exponent.isNone then
      if Text.digitLimit < whole.length then .error .oversizedInteger
      else
        let magnitude : Int := digitsValue whole
        .ok (.int (if negative then -magnitude else magnitude), rest)
    else
      let decimal : Decimal :=
        ⟨negative, digitsValue (whole ++ fraction), exponent.getD 0 - fraction.length⟩
      .ok (.real (Number.ofDecimal .binary64 decimal), rest)

/-- A word or a number. -/
def readScalar : List Char → Except DocumentFault (Scalar × List Char)
  | 'n' :: 'u' :: 'l' :: 'l' :: rest => .ok (.null, rest)
  | 't' :: 'r' :: 'u' :: 'e' :: rest => .ok (.bool true, rest)
  | 'f' :: 'a' :: 'l' :: 's' :: 'e' :: rest => .ok (.bool false, rest)
  | 'N' :: 'a' :: 'N' :: rest => .ok (.real .nan, rest)
  | 'I' :: 'n' :: 'f' :: 'i' :: 'n' :: 'i' :: 't' :: 'y' :: rest => .ok (.real .posInf, rest)
  | '-' :: 'I' :: 'n' :: 'f' :: 'i' :: 'n' :: 'i' :: 't' :: 'y' :: rest => .ok (.real .negInf, rest)
  | '-' :: rest => readNumber true rest
  | text => readNumber false text

mutual

/-- Reads the datum at the front of a text, in which so many lists and records may lie within each
other. -/
def readValue : (fuel levels : Nat) → List Char → Except DocumentFault (Datum × List Char)
  | 0, _, _ => .error .malformed
  | fuel + 1, levels, text =>
    match text with
    | '"' :: rest =>
      match readText (rest.length + 1) [] rest with
      | some (characters, rest) => .ok (scalar (.text characters), rest)
      | none => .error .malformed
    | '[' :: rest =>
      match levels with
      | 0 => .error .tooDeep
      | levels + 1 =>
        match skipBlanks rest with
        | ']' :: rest => .ok (list [], rest)
        | rest => do
          let (items, rest) ← readItems fuel levels rest
          .ok (list items, rest)
    | '\x7b' :: rest =>
      match levels with
      | 0 => .error .tooDeep
      | levels + 1 =>
        match skipBlanks rest with
        | '\x7d' :: rest => .ok (record [], rest)
        | rest => do
          let (fields, rest) ← readFields fuel levels [] rest
          .ok (record fields, rest)
    | text => do
      let (value, rest) ← readScalar text
      .ok (scalar value, rest)

/-- Reads the items of a list and its closing bracket. -/
def readItems : (fuel levels : Nat) → List Char → Except DocumentFault (List Datum × List Char)
  | 0, _, _ => .error .malformed
  | fuel + 1, levels, text => do
    let (item, rest) ← readValue fuel levels text
    match skipBlanks rest with
    | ',' :: rest =>
      let (items, rest) ← readItems fuel levels (skipBlanks rest)
      .ok (item :: items, rest)
    | ']' :: rest => .ok ([item], rest)
    | _ => .error .malformed

/-- Reads the fields of a record onto `fields` and its closing brace. -/
def readFields : (fuel levels : Nat) → List (String × Datum) → List Char →
    Except DocumentFault (List (String × Datum) × List Char)
  | 0, _, _, _ => .error .malformed
  | fuel + 1, levels, fields, text =>
    match text with
    | '"' :: rest =>
      match readText (rest.length + 1) [] rest with
      | none => .error .malformed
      | some (name, rest) =>
        match skipBlanks rest with
        | ':' :: rest => do
          let (value, rest) ← readValue fuel levels (skipBlanks rest)
          let fields := putEntry name value fields
          match skipBlanks rest with
          | ',' :: rest => readFields fuel levels fields (skipBlanks rest)
          | '\x7d' :: rest => .ok (fields, rest)
          | _ => .error .malformed
        | _ => .error .malformed
    | _ => .error .malformed

end

/-- The datum that a text consists of, apart from blanks around it. -/
def ofDocument (text : String) : Except DocumentFault Datum := do
  let chars := text.toList
  let (value, rest) ← readValue (chars.length + 1) depthLimit (skipBlanks chars)
  if (skipBlanks rest).isEmpty then .ok value else .error .malformed

end Datum

end Lookalike
