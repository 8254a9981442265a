import Lookalike.Fault
import Lookalike.Text.Numeral

/-!
# Units of time

Times are counts of a number of equal units. The name of such a unit is that number and the name of
a unit, and a divisor may stand behind them, which has to make them a whole number of a lesser unit.

## Main definitions

* `TimeUnit`, `TimeUnit.general`, `TimeUnit.toText`
* `TimeUnit.divided`, the lesser unit that a divisor makes of a unit
* `TimeUnit.ofText`, the unit that a text names
-/

namespace Lookalike

/-- A number of units of time of one name. The unit of a time that is only a count has no name. -/
structure TimeUnit where
  count : Int
  name : String
deriving DecidableEq, Repr

namespace TimeUnit

/-- The unit of times that are only counts. -/
def general : TimeUnit := ⟨1, ""⟩

/-- The names of each unit of time, and of which numbers of lesser units it is made up. -/
def units : List (List String × List TimeUnit) := [
  (["Y"], [⟨12, "M"⟩, ⟨52, "W"⟩, ⟨365, "D"⟩]),
  (["M"], [⟨4, "W"⟩, ⟨30, "D"⟩, ⟨720, "h"⟩]),
  (["W"], [⟨7, "D"⟩, ⟨168, "h"⟩, ⟨10080, "m"⟩, ⟨604800, "s"⟩]),
  (["D"], [⟨24, "h"⟩, ⟨1440, "m"⟩, ⟨86400, "s"⟩]),
  (["h"], [⟨60, "m"⟩, ⟨3600, "s"⟩]),
  (["m"], [⟨60, "s"⟩, ⟨60000, "ms"⟩]),
  (["s"], [⟨1000, "ms"⟩, ⟨1000000, "us"⟩]),
  (["ms"], [⟨1000, "us"⟩, ⟨1000000, "ns"⟩]),
  (["us", "\u03bcs"], [⟨1000, "ns"⟩, ⟨1000000, "ps"⟩]),
  (["ns"], [⟨1000, "ps"⟩, ⟨1000000, "fs"⟩]),
  (["ps"], [⟨1000, "fs"⟩, ⟨1000000, "as"⟩]),
  (["fs"], [⟨1000, "as"⟩]),
  (["as"], []),
  (["", "generic"], [])]

/-- An integer in a word of 32 bits. -/
def wrapped (n : Int) : Int := n.bmod (Nat.pow 2 32)

/-- An integer as a word of 64 bits keeps it, at its bounds if it lies beyond, cut to 32 bits. -/
def shortened (n : Int) : Int :=
  let bound : Int := Nat.pow 2 63
  wrapped (max (-bound) (min (bound - 1) n))

/-- The greatest number of units. -/
def greatestCount : Int := 2147483647

/-- The unit that a divisor makes of a unit that is made up of some numbers of lesser ones: the
first of these that it divides, as often. The number of units is kept in a word of 32 bits. -/
def divided (unit : TimeUnit) (parts : List TimeUnit) (divisor : Int) : Except Fault TimeUnit :=
  if divisor = 1 then .ok unit
  else
    match parts.find? fun part => part.count % divisor == 0 with
    | some part => .ok ⟨wrapped (unit.count * part.count.tdiv divisor), part.name⟩
    | none => .error .unreadable

/-- The unit that a text names, a number in front of its name and a divisor behind it. -/
def ofText (text : List Char) : Except Fault TimeUnit := do
  let (count, rest) := (Text.leadingInteger? text).getD (1, text)
  if count < 0 || greatestCount < count then throw .wrongKind
  let name := String.ofList (rest.takeWhile (· != '/'))
  match units.find? fun entry => name ≠ "" && entry.1.contains name with
  | none => throw .wrongKind
  | some (names, parts) =>
    let unit := ⟨count, names.headD name⟩
    match rest.dropWhile (· != '/') with
    | [] => pure unit
    | _ :: behind =>
      match Text.leadingInteger? behind with
      | some (divisor, []) => unit.divided parts (shortened divisor)
      | _ => throw .wrongKind

/-- The text of a unit: its name, behind its number if that is not one. -/
def toText (unit : TimeUnit) : String :=
  if unit.name = "" then ""
  else
    "[" ++ (if unit.count = 1 then "" else Number.integerText unit.count) ++ unit.name ++ "]"

end TimeUnit

end Lookalike
