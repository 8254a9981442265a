/-!
# Hexadecimal numbers

Numbers are written with sixteen digits, of which the last six are letters in either case. Bytes are
written as pairs of digits, between which blanks may stand.

## Main definitions

* `Text.hex`, the digits of a number
* `Text.hexValue?`, the number that digits stand for
* `Text.hexBytes?`, the bytes that pairs of digits stand for
-/

namespace Lookalike.Text

/-- The hexadecimal digits of a number, filled up to a width. -/
def hex (width n : Nat) : List Char :=
  let digits := Nat.toDigits 16 n
  List.replicate (width - digits.length) '0' ++ digits

/-- The number that hexadecimal digits stand for. -/
def hexValue? (digits : List Char) : Option Nat :=
  digits.foldlM (fun value c =>
    let n := c.toNat
    if 48 ≤ n ∧ n < 58 then some (16 * value + (n - 48))
    else if 97 ≤ n ∧ n < 103 then some (16 * value + (n - 87))
    else if 65 ≤ n ∧ n < 71 then some (16 * value + (n - 55))
    else none) 0

/-- The bytes that pairs of hexadecimal digits stand for. -/
def hexBytes? : List Char → Option (List UInt8)
  | [] => some []
  | [c] => if c == ' ' || ('\t' ≤ c && c ≤ '\r') then some [] else none
  | c :: next :: rest =>
    if c == ' ' || ('\t' ≤ c && c ≤ '\r') then hexBytes? (next :: rest)
    else
      match hexValue? [c, next], hexBytes? rest with
      | some byte, some bytes => some (UInt8.ofNat byte :: bytes)
      | _, _ => none

end Lookalike.Text
