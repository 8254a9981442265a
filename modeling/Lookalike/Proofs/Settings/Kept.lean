import Lookalike.Proofs.Settings
import Lookalike.Proofs.Number.Amount

/-!
# Settings hold numbers of the format

Whatever a real setting is read from, a truth value, an integer, a real or a text, it is brought to
the numbers that the format keeps.

## Main definitions

* `Settings.IsKept`, that the real settings are numbers of the format

## Main statements

* `Number.kept_convert`, `Number.kept_ofDecimal`
* `Settings.kept_of_realOf`, `Settings.isKept_of_ofFields`
-/

namespace Lookalike

variable {F : Format}

section Readers

theorem Number.kept_convert (proper : F.IsProper) {G : Format} (x : Number G) :
    (x.convert F).Kept := by
  cases x with
  | finite q => exact kept_ofRat proper q
  | nan | negInf | posInf | negZero => trivial

theorem Number.kept_zero (negative : Bool) : (zero negative : Number F).Kept := by
  cases negative with
  | true => trivial
  | false => exact ofRat_zero

theorem Number.kept_infinity (negative : Bool) : (infinity negative : Number F).Kept := by
  cases negative <;> trivial

/-- A decimal is read as a number of the format, the decimals that are read without rounding
included. -/
theorem Number.kept_ofDecimal (proper : F.IsProper) (decimal : Decimal) :
    (ofDecimal F decimal).Kept := by
  unfold ofDecimal
  split
  · exact kept_zero _
  · split
    · rfl
    · split_ifs
      · exact kept_infinity _
      · exact kept_zero _
      · exact kept_ofRat proper _

theorem Text.kept_of_unsignedReal? (proper : F.IsProper) {digit? : Char → Option ℕ}
    {negative : Bool} {text : List Char} {x : Number F}
    (read : unsignedReal? F digit? negative text = some x) : x.Kept := by
  unfold unsignedReal? at read
  split at read
  · cases read
    exact Number.kept_infinity _
  · cases read
    exact Number.kept_infinity _
  · cases read
    trivial
  · obtain ⟨decimal, -, rfl⟩ := Option.map_eq_some_iff.mp read
    exact Number.kept_ofDecimal proper decimal

end Readers

namespace Settings

theorem kept_of_readReal? (proper : F.IsProper) {text : List Char} {x : Number F}
    (read : readReal? F text = some x) : x.Kept := by
  unfold readReal? at read
  split at read
  next plain =>
    cases read
    exact Text.kept_of_unsignedReal? proper plain
  next =>
    split_ifs at read
    exact Text.kept_of_unsignedReal? proper read

/-- A raw value that can be read as a real is read as a number of the format. -/
theorem kept_of_realOf {raw : Datum} {x : Number .binary64} (read : realOf .binary64 raw = .ok x) :
    x.Kept := by
  have proper : Format.binary64.IsProper := (by decide : 1 ≤ 53)
  unfold realOf at read
  split at read
  next value =>
    cases read
    cases value <;> decide +kernel
  next value =>
    dsimp only at read
    split_ifs at read
    cases read
    exact Number.kept_ofRat proper _
  next value =>
    cases read
    exact Number.kept_convert proper value
  next value =>
    split_ifs at read
    split at read
    next known =>
      cases read
      exact kept_of_readReal? proper known
    next => cases read
  next => cases read

/-- Settings whose reals are numbers of the format. -/
structure IsKept (settings : Settings F) : Prop where
  distanceWeight : settings.distanceWeight.Kept
  baseScore : settings.baseScore.Kept
  identicalScore : settings.identicalScore.Kept
  identicalEpsilon : settings.identicalEpsilon.Kept
  minScore : settings.minScore.Kept

theorem kept_of_positive {raw : Datum} {x : Number .binary64}
    (passed : realOf .binary64 raw >>= positive = .ok x) : x.Kept := by
  obtain ⟨_, read, -, rfl⟩ := of_check_ok passed
  exact kept_of_realOf read

theorem kept_of_nonNegative {raw : Datum} {x : Number .binary64}
    (passed : realOf .binary64 raw >>= nonNegative = .ok x) : x.Kept := by
  obtain ⟨_, read, -, rfl⟩ := of_check_ok passed
  exact kept_of_realOf read

theorem isKept_standard : (standard .binary64).IsKept where
  distanceWeight := by decide +kernel
  baseScore := by decide +kernel
  identicalScore := by decide +kernel
  identicalEpsilon := by decide +kernel
  minScore := by decide +kernel

/-- Settings that are built from raw data hold numbers of the format. -/
theorem isKept_of_ofFields {given : List (String × Datum)} {settings : Settings .binary64}
    (built : ofFields .binary64 given = .sound settings) : settings.IsKept := by
  have read := isReadFrom_of_ofFields built
  have default := isKept_standard
  exact {
    distanceWeight :=
      of_readField read.distanceWeight default.distanceWeight fun _ _ => kept_of_positive
    baseScore := of_readField read.baseScore default.baseScore fun _ _ => kept_of_positive
    identicalScore :=
      of_readField read.identicalScore default.identicalScore fun _ _ => kept_of_positive
    identicalEpsilon :=
      of_readField read.identicalEpsilon default.identicalEpsilon fun _ _ => kept_of_nonNegative
    minScore := of_readField read.minScore default.minScore fun _ _ => kept_of_nonNegative }

end Settings

end Lookalike
