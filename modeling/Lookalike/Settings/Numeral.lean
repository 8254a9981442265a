import Lookalike.Text.Numeral

/-!
# Numerals of the settings

Settings may be given as texts. A numeral is written with plain digits. An integer that is not in
its plain form is cleaned before it is read: blanks and one plus sign are taken off, a hyphen is set
aside, and of the rest the leading zeros with the underscores among them, a fraction of zeros and
the underscores between other characters are taken off, in this order. A real is read as it stands
between its blanks, or without its underscores where there are no blanks.

## Main definitions

* `Settings.NumeralFault`, why a text is not read
* `Settings.plainInteger`, an integer in its plain form
* `Settings.unsignedForm?`, `Settings.cleaned?`, a text made plain
* `Settings.readInteger`, `Settings.readReal?`
-/

namespace Lookalike

/-- How many digits an integer numeral may have. Exact numbers have no such bound. -/
def Format.numeralLimit : Format → Option Nat
  | .exact => none
  | .binary _ _ _ => some Text.digitLimit

namespace Settings

open Text

/-- Why a text is not read as an integer. -/
inductive NumeralFault where
  | malformed
  | tooLong
deriving DecidableEq, Repr

/-- A digit other than zero. -/
def isLeadingDigit (c : Char) : Bool := '1' ≤ c && c ≤ '9'

/-- An integer in its plain form: a zero, or digits that do not start with zero, perhaps after a
hyphen. A run of too many digits is refused whatever follows it. -/
def plainInteger (limit : Option Nat) (text : List Char) : Except NumeralFault Int :=
  let negative := text.head? == some '-'
  let unsigned := if negative then text.drop 1 else text
  let digits := unsigned.takeWhile fun c => (plainDigit? c).isSome
  match digits with
  | [] => .error .malformed
  | first :: others =>
    if first == '0' then if unsigned == ['0'] then .ok 0 else .error .malformed
    else if limit.any (· < digits.length) then .error .tooLong
    else if digits.length < unsigned.length then .error .malformed
    else .ok (signed negative (digitsValue plainDigit? (first :: others)))

/-- The text from the first character on that is neither a leading zero nor an underscore among
them. It has to be a digit, a hyphen or a point; a point takes the character in front of it along,
and where nothing is left the last character stands. -/
def afterZeros? (last : Char) : List Char → Option (List Char)
  | [] => some [last]
  | c :: rest =>
    if c == '0' || c == '_' then afterZeros? c rest
    else if isLeadingDigit c || c == '-' then some (c :: rest)
    else if c == '.' then some (last :: c :: rest)
    else none

/-- A text that starts with a digit or a hyphen, without its leading zeros. -/
def withoutLeadingZeros? : List Char → Option (List Char)
  | [] => none
  | c :: rest =>
    if c == '0' then afterZeros? c rest
    else if isLeadingDigit c || c == '-' then some (c :: rest)
    else none

/-- The part of a text in front of its first point, if one or more zeros and nothing else follow
it, and else the text. -/
def withoutZeroFraction (text : List Char) : List Char :=
  match text.dropWhile (· != '.') with
  | [] => text
  | _ :: fraction =>
    if fraction.isEmpty || fraction.any (· != '0') then text else text.takeWhile (· != '.')

/-- Whether no underscore stands at an end or next to another. -/
def underscoresApart : List Char → Bool
  | [] => true
  | ['_'] => false
  | '_' :: '_' :: _ => false
  | _ :: rest => underscoresApart rest

/-- Whether a text has underscores, none of them at an end or next to another. -/
def hasInnerUnderscores (text : List Char) : Bool :=
  text.contains '_' && text.head? != some '_' && underscoresApart text

/-- A text without its underscores, where they may be left out. -/
def withoutUnderscores (text : List Char) : List Char :=
  if hasInnerUnderscores text then text.filter (· != '_') else text

/-- A text without one plus sign at its beginning, which no hyphen may follow. -/
def withoutPlus? : List Char → Option (List Char)
  | '+' :: '-' :: _ => none
  | '+' :: rest => some rest
  | text => some text

/-- The plain form of a text that has no sign. It starts with a hyphen where one follows the leading
zeros. -/
def unsignedForm? (text : List Char) : Option (List Char) :=
  (withoutLeadingZeros? text).map fun rest => withoutUnderscores (withoutZeroFraction rest)

/-- The plain form that a text is taken for. -/
def cleaned? (text : List Char) : Option (List Char) := do
  match ← withoutPlus? (trim isBlank text) with
  | '-' :: unsigned => (unsignedForm? unsigned).map ('-' :: ·)
  | unsigned => unsignedForm? unsigned

/-- The integer that a text stands for. Why it is not read is told by the text as it stands. -/
def readInteger (limit : Option Nat) (text : List Char) : Except NumeralFault Int :=
  match plainInteger limit text with
  | .ok n => .ok n
  | .error fault =>
    match (cleaned? text).map (plainInteger limit) with
    | some (.ok n) => .ok n
    | _ => .error fault

/-- A real with a sign and plain digits. -/
def plainReal? (F : Format) (text : List Char) : Option (Number F) :=
  let (negative, unsigned) := splitSign text
  unsignedReal? F plainDigit? negative unsigned

/-- The real that a text stands for. -/
def readReal? (F : Format) (text : List Char) : Option (Number F) :=
  match plainReal? F (trim isBlank text) with
  | some x => some x
  | none => if hasInnerUnderscores text then plainReal? F (text.filter (· != '_')) else none

end Settings

end Lookalike
