import Lookalike.Number.Basic

/-!
# Interchange words

A binary format also has a representation as a word: a sign bit, an exponent field and the
significand without its leading bit. Words are how numbers are stored in array files and how a
number can be shown without loss.

## Main definitions

* `Format.fractionBits`, `Format.exponentBits`, the widths of the fields
* `Number.ofWord`, the number that a word stands for
* `Number.toWord`, the word of a number, where all that is no number shares one word
-/

namespace Lookalike

namespace Format

/-- The width of the stored significand, which omits the leading bit. -/
def fractionBits : Format → Nat
  | exact => 0
  | binary precision _ _ => precision - 1

/-- The width of the exponent field, whose greatest value is set aside. -/
def exponentBits : Format → Nat
  | exact => 0
  | binary _ _ limit => limit.toNat.log2 + 1

/-- The exponent of the least positive number. -/
def leastExponent : Format → Int
  | exact => 0
  | binary _ least _ => least

end Format

namespace Number

/-- The number that a word of the format stands for; bits beyond the sign are ignored. -/
def ofWord (F : Format) (word : Nat) : Number F :=
  let fractions := Nat.pow 2 F.fractionBits
  let exponents := Nat.pow 2 F.exponentBits
  let fraction := word % fractions
  let exponent := word / fractions % exponents
  let negative := word / (fractions * exponents) % 2 == 1
  if exponent = exponents - 1 then
    if fraction = 0 then infinity negative else .nan
  else
    let significand := if exponent = 0 then fraction else fractions + fraction
    let scale := twoPow (F.leastExponent + (max exponent 1 : Nat) - 1)
    if significand = 0 then zero negative
    else
      let value : Rat := (significand : Rat) * scale
      .finite (if negative then -value else value)

/-- The word of a number that the format keeps. -/
def toWord : {F : Format} → Number F → Nat
  | F, x =>
    let fractions := Nat.pow 2 F.fractionBits
    let exponents := Nat.pow 2 F.exponentBits
    let sign := if x.isNegative then fractions * exponents else 0
    match x with
    | .nan => (exponents - 1) * fractions + fractions / 2
    | .negInf | .posInf => sign + (exponents - 1) * fractions
    | .negZero => sign
    | .finite q =>
      let unit := spacing (F.fractionBits + 1) F.leastExponent q
      let significand := (magnitude q / unit).floor.toNat
      if significand < fractions then sign + significand
      else
        let exponent := (binaryLog unit - F.leastExponent).toNat + 1
        sign + exponent * fractions + (significand - fractions)

end Number

end Lookalike
