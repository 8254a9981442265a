/-!
# Numbers of a format

Scores and distances are computed in rounded arithmetic: every operation yields the exact result
brought back to the numbers that a format keeps. A format is either `exact`, where each rational
number is kept, or binary, where a number has a bounded significand and a bounded exponent. Both
kinds share one type of numbers and one definition of each operation, so a law that needs no
rounding is stated for `exact` and a law about the rounded program for `binary64`.

Beside the finite numbers there are a negative zero, two infinities and one value that is not a
number. Zero keeps the sign of the result it was rounded from.

## Main definitions

* `Format`, `Format.binary32`, `Format.binary64`, `Format.storage`
* `Number`, the numbers of a format
* `Number.ofRat`, the nearest number of a format, a half going to the even neighbour
* `Number.add`, `Number.sub`, `Number.mul`, `Number.div`, `Number.lt`, `Number.le`
* `Number.convert`, the nearest number of another format
* `Number.greatest`, the greatest finite number of a binary format
-/

namespace Lookalike

/-- Which numbers a computation keeps. -/
inductive Format where
  /-- Every rational number is kept. -/
  | exact
  /-- Multiples of `2 ^ leastExponent` with at most `precision` significant bits, of magnitude
  below `2 ^ limitExponent`. -/
  | binary (precision : Nat) (leastExponent limitExponent : Int)
deriving DecidableEq, Repr

namespace Format

/-- Numbers of 16 bits. -/
def binary16 : Format := .binary 11 (-24) 16

/-- Numbers of 32 bits, in which feature vectors are kept. -/
def binary32 : Format := .binary 24 (-149) 128

/-- Numbers of 64 bits, in which scores are computed. -/
def binary64 : Format := .binary 53 (-1074) 1024

/-- The format in which feature vectors are kept when scores are computed in the given one. -/
def storage : Format → Format
  | exact => exact
  | binary _ _ _ => binary32

end Format

/-- A number of the format `F`. -/
inductive Number (F : Format) where
  | nan
  | negInf
  | posInf
  | negZero
  /-- A finite number; zero stands for the positive zero. -/
  | finite (value : Rat)
deriving DecidableEq, Inhabited

/-- The power of two with the given exponent. -/
def twoPow (exponent : Int) : Rat :=
  if 0 ≤ exponent then (Nat.pow 2 exponent.toNat : Nat)
  else mkRat 1 (Nat.pow 2 (-exponent).toNat)

/-- The greatest exponent whose power of two is at most `q`, for positive `q`. -/
def binaryLog (q : Rat) : Int :=
  let estimate : Int := (q.num.toNat.log2 : Int) - (q.den.log2 : Int)
  if twoPow estimate ≤ q then estimate else estimate - 1

/-- The integer nearest to `q`; of two nearest the even one. -/
def roundHalfEven (q : Rat) : Int :=
  let below := q.floor
  let rest := q - below
  if rest < 1 / 2 then below
  else if 1 / 2 < rest then below + 1
  else if below % 2 = 0 then below
  else below + 1

/-- The magnitude of a rational number. -/
def magnitude (q : Rat) : Rat := if q < 0 then -q else q

namespace Number

variable {F G : Format}

/-- The zero with the given sign. -/
def zero (negative : Bool) : Number F := if negative then .negZero else .finite 0

/-- The infinity with the given sign. -/
def infinity (negative : Bool) : Number F := if negative then .negInf else .posInf

/-- The distance between neighbouring numbers of a binary format near `q`. -/
def spacing (precision : Nat) (leastExponent : Int) (q : Rat) : Rat :=
  twoPow (max leastExponent (binaryLog (magnitude q) - ((precision : Int) - 1)))

/-- The number of a format nearest to `q`; of two nearest the one with the even significand. From
`2 ^ limitExponent` on the result is an infinity, and a zero keeps the sign of `q`. -/
def ofRat : (F : Format) → Rat → Number F
  | .exact, q => .finite q
  | .binary precision least limit, q =>
    let unit := spacing precision least q
    let rounded := if q = 0 then 0 else roundHalfEven (q / unit) * unit
    -- Rounding comes first, since it can reach zero as well as the limit.
    if rounded = 0 then zero (q < 0)
    else if twoPow limit ≤ magnitude rounded then infinity (q < 0)
    else .finite rounded

/-- The number nearest to an integer. -/
def ofInt (F : Format) (n : Int) : Number F := ofRat F n

instance : OfNat (Number F) 0 := ⟨.finite 0⟩
instance : OfNat (Number F) 1 := ⟨.finite 1⟩

def isNaN : Number F → Bool
  | .nan => true
  | _ => false

def isFinite : Number F → Bool
  | .negZero | .finite _ => true
  | _ => false

/-- The sign that a number carries; that of a value that is no number is positive. -/
def isNegative : Number F → Bool
  | .negInf | .negZero => true
  | .finite q => q < 0
  | _ => false

/-- The rational number that a finite number stands for, and zero for the others. -/
def value : Number F → Rat
  | .finite q => q
  | _ => 0

/-- A number is zero, whichever its sign. -/
def isZero (x : Number F) : Bool := x.isFinite && x.value == 0

def neg : Number F → Number F
  | .nan => .nan
  | .negInf => .posInf
  | .posInf => .negInf
  | .negZero => .finite 0
  | .finite q => if q = 0 then .negZero else .finite (-q)

/-- The sum of two numbers. Opposite infinities have none; two negative zeros make one. -/
def add : Number F → Number F → Number F
  | .nan, _ | _, .nan => .nan
  | .posInf, .negInf | .negInf, .posInf => .nan
  | .posInf, _ | _, .posInf => .posInf
  | .negInf, _ | _, .negInf => .negInf
  | .negZero, .negZero => .negZero
  | x, y => ofRat F (x.value + y.value)

def sub (x y : Number F) : Number F := add x (neg y)

/-- The product of two numbers. Zero times an infinity has none. -/
def mul (x y : Number F) : Number F :=
  let negative := x.isNegative != y.isNegative
  if x.isNaN || y.isNaN then .nan
  else if x.isFinite && y.isFinite then
    -- A product of zero has its sign from the factors, not from rounding.
    if x.isZero || y.isZero then zero negative else ofRat F (x.value * y.value)
  else if x.isZero || y.isZero then .nan
  else infinity negative

/-- The quotient of two numbers. A number other than zero divided by zero is an infinity. -/
def div (x y : Number F) : Number F :=
  let negative := x.isNegative != y.isNegative
  if x.isNaN || y.isNaN then .nan
  else if x.isFinite && y.isFinite then
    if y.isZero then
      if x.isZero then .nan else infinity negative
    else if x.isZero then zero negative
    else ofRat F (x.value / y.value)
  else if x.isFinite then zero negative
  else if y.isFinite then infinity negative
  else .nan

/-- The strict order of the numbers. What is not a number is comparable to nothing. -/
def lt : Number F → Number F → Bool
  | .nan, _ | _, .nan => false
  | _, .negInf | .posInf, _ => false
  | .negInf, _ | _, .posInf => true
  | x, y => x.value < y.value

def le (x y : Number F) : Bool := !x.isNaN && !y.isNaN && !lt y x

instance : Neg (Number F) := ⟨neg⟩
instance : Add (Number F) := ⟨add⟩
instance : Sub (Number F) := ⟨sub⟩
instance : Mul (Number F) := ⟨mul⟩
instance : Div (Number F) := ⟨div⟩
instance : LT (Number F) := ⟨fun x y => lt x y⟩
instance : LE (Number F) := ⟨fun x y => le x y⟩
instance (x y : Number F) : Decidable (x < y) := inferInstanceAs (Decidable (lt x y = true))
instance (x y : Number F) : Decidable (x ≤ y) := inferInstanceAs (Decidable (le x y = true))

/-- The number of the format `G` nearest to a number of the format `F`. -/
def convert (G : Format) : Number F → Number G
  | .nan => .nan
  | .negInf => .negInf
  | .posInf => .posInf
  | .negZero => .negZero
  | .finite q => ofRat G q

/-- The greatest finite number of a binary format. Exact numbers have none, and the infinity above
them stands for it. -/
def greatest : (F : Format) → Number F
  | .exact => .posInf
  | .binary precision _ limit =>
    .finite ((Nat.pow 2 precision - 1 : Nat) * twoPow (limit - precision))

/-- A number, or zero where it is negative or no number. -/
def atLeastZero (x : Number F) : Number F := if 0 < x then x else 0

end Number

end Lookalike
