import Lookalike.Number.Basic

/-!
# Decimals

A decimal is a natural number times a power of ten, with a sign. It is read as the nearest number
of a format, and a number is written as a decimal: either the one with the fewest digits that is
read back as the same number, or the nearest one with a given count of places.

## Main definitions

* `Decimal`, `Number.ofDecimal`
* `Number.shortest?`, the decimal with the fewest digits that reads back
* `Number.positional`, `Number.scientific`, the two forms of a decimal
* `Number.textBy`, `Number.toText`, a number with the fewest digits
* `Number.toFixed`, a number with a given count of places
-/

namespace Lookalike

/-- The power of ten with the given exponent. -/
def tenPow (exponent : Int) : Rat :=
  if 0 ≤ exponent then (Nat.pow 10 exponent.toNat : Nat)
  else mkRat 1 (Nat.pow 10 (-exponent).toNat)

/-- The decimal `digits * 10 ^ exponent` with a sign. -/
structure Decimal where
  negative : Bool
  digits : Nat
  exponent : Int
deriving DecidableEq, Repr

/-- The rational number that a decimal stands for. -/
def Decimal.value (d : Decimal) : Rat :=
  let unsigned : Rat := (d.digits : Rat) * tenPow d.exponent
  if d.negative then -unsigned else unsigned

/-- Moves the trailing zeros of the digits to the exponent. -/
def Decimal.strip (d : Decimal) : Decimal :=
  go d.digits.log2 d
where
  go : Nat → Decimal → Decimal
    | 0, d => d
    | fuel + 1, d =>
      if d.digits ≠ 0 ∧ d.digits % 10 = 0 then
        go fuel { d with digits := d.digits / 10, exponent := d.exponent + 1 }
      else d

/-- The greatest exponent whose power of ten is at most `q`, for positive `q`. -/
def decimalLog (q : Rat) : Int :=
  let estimate := binaryLog q * 1233 / 4096
  if tenPow (estimate + 1) ≤ q then estimate + 1
  else if tenPow estimate ≤ q then estimate
  else estimate - 1

/-- The count of decimal digits that always suffice to tell the numbers of a format apart. -/
def Format.decimalDigits : Format → Nat
  | .exact => 17
  | .binary precision _ _ => precision * 30103 / 100000 + 2

namespace Number

variable {F : Format}

/-- The number nearest to a decimal. Decimals that are certain to lie beyond the greatest number
or below half the least are answered without forming their power of ten. -/
def ofDecimal (F : Format) (d : Decimal) : Number F :=
  if d.digits = 0 then zero d.negative
  else
    match F with
    | .exact => .finite d.value
    | .binary precision least limit =>
      -- Powers of ten lie beyond those of two, and below one they lie below those of eight.
      if limit ≤ d.exponent ∧ 0 ≤ d.exponent then infinity d.negative
      else if d.exponent < 0 ∧ d.digits.log2 + 1 + 3 * d.exponent < least - 1 then zero d.negative
      else ofRat (.binary precision least limit) d.value

/-- The nearer of the two decimals around `q` on the grid of `10 ^ exponent` that are read back as
`x`; of two equally near the even one. -/
def readBack? (x : Number F) (q : Rat) (exponent : Int) : Option Decimal :=
  let grid := tenPow exponent
  let below := (q / grid).floor.toNat
  -- The decimal has to be told from the neighboring numbers, not only to be near.
  let reads := fun digits => ofRat F ((digits : Nat) * grid) == x
  match reads below, reads (below + 1) with
  | false, false => none
  | true, false => some ⟨false, below, exponent⟩
  | false, true => some ⟨false, below + 1, exponent⟩
  | true, true =>
    let middle : Rat := ((2 * below + 1 : Nat) : Rat) * grid
    if 2 * q < middle then some ⟨false, below, exponent⟩
    else if middle < 2 * q then some ⟨false, below + 1, exponent⟩
    else if below % 2 = 0 then some ⟨false, below, exponent⟩
    else some ⟨false, below + 1, exponent⟩

/-- The decimal with the fewest digits that is read back as the positive number `q`. -/
def shortest? (F : Format) (q : Rat) : Option Decimal :=
  let leading := decimalLog q
  ((List.range F.decimalDigits).findSome? fun (count : Nat) =>
    readBack? (.finite q : Number F) q (leading - count)).map Decimal.strip

/-- The digits of a natural number. -/
def digitText (n : Nat) : String := String.ofList (Nat.toDigits 10 n)

/-- The digits of an integer, after a hyphen if it is negative. -/
def integerText (n : Int) : String := (if n < 0 then "-" else "") ++ digitText n.natAbs

/-- A text filled up on the left to a width. -/
def padLeft (width : Nat) (fill : Char) (text : String) : String :=
  String.ofList (List.replicate (width - text.length) fill) ++ text

/-- The exponent of the leading digit of a decimal. -/
def leadingExponent (d : Decimal) : Int := d.exponent + (Nat.toDigits 10 d.digits).length - 1

/-- A positive decimal in full, with at least one place. -/
def positional (d : Decimal) : String :=
  let digits := Nat.toDigits 10 d.digits
  let leading := leadingExponent d
  if 0 ≤ d.exponent then
    String.ofList (digits ++ List.replicate d.exponent.toNat '0') ++ ".0"
  else if 0 ≤ leading then
    let whole := leading.toNat + 1
    String.ofList (digits.take whole) ++ "." ++ String.ofList (digits.drop whole)
  else
    "0." ++ String.ofList (List.replicate (-leading - 1).toNat '0' ++ digits)

/-- A positive decimal with one digit before the point and an exponent of at least two digits. -/
def scientific (d : Decimal) : String :=
  let digits := Nat.toDigits 10 d.digits
  let leading := leadingExponent d
  let fraction := digits.drop 1
  let mantissa :=
    String.ofList (digits.take 1) ++
      (if fraction.isEmpty then "" else "." ++ String.ofList fraction)
  mantissa ++ "e" ++ (if leading < 0 then "-" else "+") ++
    padLeft 2 '0' (digitText leading.natAbs)

/-- A positive decimal, in full where the exponent of its leading digit lies from -4 to 15. -/
def layOut (d : Decimal) : String :=
  if -4 ≤ leadingExponent d ∧ leadingExponent d < 16 then positional d else scientific d

/-- A number with the fewest digits that are read back as the same number, laid out in a given way.
An exact number that has too many digits is written as a fraction. -/
def textBy (layOut : Decimal → String) : Number F → String
  | .nan => "nan"
  | .negInf => "-inf"
  | .posInf => "inf"
  | .negZero => "-0.0"
  | .finite q =>
    if q = 0 then "0.0"
    else
      match shortest? F (magnitude q) with
      | some d => (if q < 0 then "-" else "") ++ layOut d
      | none => integerText q.num ++ "/" ++ digitText q.den

/-- The text of a number. -/
def toText (x : Number F) : String := x.textBy layOut

/-- A number with a count of places, a half going to the even neighbour. -/
def toFixed (places : Nat) (x : Number F) : String :=
  match x with
  | .nan => "nan"
  | .negInf => "-inf"
  | .posInf => "inf"
  | x =>
    let scale := Nat.pow 10 places
    let units := (roundHalfEven (magnitude x.value * (scale : Nat))).toNat
    (if x.isNegative then "-" else "") ++ digitText (units / scale) ++
      (if places = 0 then "" else "." ++ padLeft places '0' (digitText (units % scale)))

end Number

end Lookalike
