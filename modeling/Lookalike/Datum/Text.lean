import Lookalike.Datum.Basic
import Lookalike.Number.Decimal
import Lookalike.Text.Hexadecimal
import Lookalike.Text.Printable
import Lookalike.Text.Surrogate

/-!
# The text of a datum

A text stands for itself; within a list or a record it is quoted. The quotes are single unless the
text contains single quotes and no double ones.

## Main definitions

* `Text.quote`, a text in quotes with what is not printable written as an escape
* `Text.escapeUnit`, a code unit within a text of a document
* `Datum.quoted`, a datum with its texts in quotes
* `Datum.toText`, the text by which a datum is shown and matched
-/

namespace Lookalike

namespace Text

/-- A code point within quotes of the given kind. -/
def escape (quoteMark : Char) (point : Nat) : List Char :=
  if point == quoteMark.toNat || point == '\\'.toNat then ['\\', Char.ofNat point]
  else if point == '\t'.toNat then ['\\', 't']
  else if point == '\n'.toNat then ['\\', 'n']
  else if point == '\r'.toNat then ['\\', 'r']
  else if isPrintable point then [Char.ofNat point]
  else if point < 0x100 then '\\' :: 'x' :: hex 2 point
  else if point < 0x10000 then '\\' :: 'u' :: hex 4 point
  else '\\' :: 'U' :: hex 8 point

/-- A code unit within a text of a document that has printable basic characters only. -/
def escapeUnit (unit : Nat) : List Char :=
  if unit == '"'.toNat || unit == '\\'.toNat then ['\\', Char.ofNat unit]
  else if unit == 0x08 then ['\\', 'b']
  else if unit == 0x09 then ['\\', 't']
  else if unit == 0x0a then ['\\', 'n']
  else if unit == 0x0c then ['\\', 'f']
  else if unit == 0x0d then ['\\', 'r']
  else if 0x20 ≤ unit && unit < 0x7f then [Char.ofNat unit]
  else '\\' :: 'u' :: hex 4 unit

/-- A text in quotes. -/
def quote (text : String) : String :=
  let chars := text.toList
  let quoteMark := if chars.contains '\'' && !chars.contains '"' then '"' else '\''
  String.ofList (quoteMark :: (points chars).flatMap (escape quoteMark) ++ [quoteMark])

end Text

/-- A scalar with its text, if it is one, as it stands. -/
def Scalar.toText : Scalar → String
  | null => "None"
  | bool value => if value then "True" else "False"
  | int value => Number.integerText value
  | real value => value.toText
  | text value => value

/-- A scalar with its text, if it is one, in quotes. -/
def Scalar.quoted : Scalar → String
  | text value => Text.quote value
  | other => other.toText

namespace Datum

mutual

/-- A datum with its texts in quotes. -/
def quoted : Datum → String
  | scalar value => value.quoted
  | list items => "[" ++ quotedItems items ++ "]"
  | record fields => "\x7b" ++ quotedFields fields ++ "\x7d"

/-- The items of a list, separated by commas. -/
def quotedItems : List Datum → String
  | [] => ""
  | [item] => item.quoted
  | item :: items => item.quoted ++ ", " ++ quotedItems items

/-- The fields of a record, separated by commas. -/
def quotedFields : List (String × Datum) → String
  | [] => ""
  | [(name, value)] => Text.quote name ++ ": " ++ value.quoted
  | (name, value) :: fields =>
    Text.quote name ++ ": " ++ value.quoted ++ ", " ++ quotedFields fields

end

/-- The text by which a datum is shown and matched. -/
def toText : Datum → String
  | scalar value => value.toText
  | other => other.quoted

end Datum

end Lookalike
