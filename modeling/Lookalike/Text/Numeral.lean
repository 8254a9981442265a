import Lookalike.Text.Blank
import Lookalike.Text.Digit
import Lookalike.Number.Decimal

/-!
# Numerals

The texts that are read as numbers where they stand for keys, scores and features. Blanks may
surround them, their digits may be those of any script, and a single underscore may stand between
two digits. The parts that do not depend on this are shared with the numerals of the settings.

## Main definitions

* `Text.readDigits`, a run of digits in which single underscores may separate digits
* `Text.integer?`, the integers of keys
* `Text.unsignedReal?`, a real without its sign, in digits of a given kind
* `Text.real?`, the reals of scores and features
-/

namespace Lookalike.Text

/-- Reads digits one after the other onto `value`. An underscore may follow a digit, and a digit
must follow an underscore. -/
def readDigits (digit? : Char → Option Nat) (value : Nat) (afterDigit : Bool) :
    List Char → Option Nat
  | [] => if afterDigit then some value else none
  | '_' :: rest => if afterDigit then readDigits digit? value false rest else none
  | c :: rest =>
    match digit? c with
    | some d => readDigits digit? (10 * value + d) true rest
    | none => none

/-- Splits a sign off; the flag says whether it was a minus. -/
def splitSign : List Char → Bool × List Char
  | '-' :: rest => (true, rest)
  | '+' :: rest => (false, rest)
  | text => (false, text)

/-- An integer with the given sign. -/
def signed (negative : Bool) (magnitude : Nat) : Int :=
  if negative then -(magnitude : Int) else magnitude

/-- An integer written with digits of any script, blanks around it. An integer of too many digits,
leading zeros included, is not read. -/
def integer? (text : List Char) : Option Int :=
  let (negative, digits) := splitSign (trim isBlank text)
  if digitLimit < (digits.filter (· != '_')).length then none
  else (readDigits digit? 0 false digits).map (signed negative)

/-- The value of a run of digits, most significant first. -/
def digitsValue (digit? : Char → Option Nat) (text : List Char) : Nat :=
  text.foldl (fun value c => 10 * value + (digit? c).getD 0) 0

/-- Reads the exponent after its mark. -/
def exponent? (digit? : Char → Option Nat) (text : List Char) : Option Int :=
  let (negative, digits) := splitSign text
  if digits.isEmpty || digits.any (fun c => (digit? c).isNone) then none
  else some (signed negative (digitsValue digit? digits))

/-- The integer with which a text begins, blanks in front of it, and the rest of the text. -/
def leadingInteger? (text : List Char) : Option (Int × List Char) :=
  let isBlank := fun (c : Char) => c == ' ' || ('\t' ≤ c && c ≤ '\r')
  let isDigit := fun (c : Char) => (plainDigit? c).isSome
  let (negative, unsigned) := splitSign (text.dropWhile isBlank)
  let digits := unsigned.takeWhile isDigit
  if digits.isEmpty then none
  else some (signed negative (digitsValue plainDigit? digits), unsigned.dropWhile isDigit)

/-- An unsigned decimal: digits on at least one side of an optional point, then an optional
exponent. -/
def decimal? (digit? : Char → Option Nat) (negative : Bool) (text : List Char) : Option Decimal :=
  let isDigit := fun c => (digit? c).isSome
  let whole := text.takeWhile isDigit
  let afterWhole := text.dropWhile isDigit
  let (fraction, rest) :=
    match afterWhole with
    | '.' :: tail => (tail.takeWhile isDigit, tail.dropWhile isDigit)
    | _ => ([], afterWhole)
  if whole.isEmpty && fraction.isEmpty then none
  else
    let digits := digitsValue digit? (whole ++ fraction)
    let scale : Int := -(fraction.length : Int)
    match rest with
    | [] => some ⟨negative, digits, scale⟩
    | mark :: tail =>
      if mark == 'e' || mark == 'E' then
        (exponent? digit? tail).map fun exponent => ⟨negative, digits, scale + exponent⟩
      else none

/-- A character in lower case; only the basic letters have one. -/
def lower (c : Char) : Char := if 'A' ≤ c ∧ c ≤ 'Z' then Char.ofNat (c.toNat + 32) else c

/-- An unsigned real: a decimal, or the name of an infinity or of what is no number. -/
def unsignedReal? (F : Format) (digit? : Char → Option Nat) (negative : Bool) (text : List Char) :
    Option (Number F) :=
  match String.ofList (text.map lower) with
  | "inf" | "infinity" => some (Number.infinity negative)
  | "nan" => some .nan
  | _ => (decimal? digit? negative text).map (Number.ofDecimal F)

/-- Whether every underscore stands between two digits. -/
def underscoresBetweenDigits (digit? : Char → Option Nat) (afterDigit : Bool) : List Char → Bool
  | [] => true
  | '_' :: rest =>
    afterDigit && (rest.head?.bind digit?).isSome && underscoresBetweenDigits digit? false rest
  | c :: rest => underscoresBetweenDigits digit? (digit? c).isSome rest

/-- A real with digits of any script, blanks around it, and underscores between digits. -/
def real? (F : Format) (text : List Char) : Option (Number F) :=
  let trimmed := trim isBlank text
  if underscoresBetweenDigits digit? false trimmed then
    let (negative, unsigned) := splitSign (trimmed.filter (· != '_'))
    unsignedReal? F digit? negative unsigned
  else none

end Lookalike.Text
