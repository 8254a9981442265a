import Lookalike.Datum.Basic
import Lookalike.Settings.Numeral
import Lookalike.Text.Surrogate

/-!
# Settings

The settings of one scoring call: how distances become scores, which scores are left out, how many
neighbors are asked for and how far the reordering looks ahead. They are read from raw data by
name. Each value is coerced to the kind of its field and compared with the field's bound. The
complaints about all fields come together, in the order of the fields, and only settings whose
fields are all sound are checked as a whole.

## Main definitions

* `Settings`, `Settings.standard`
* `Settings.Field`, `Settings.Complaint`, `Settings.Problem`
* `Settings.ofFields`, settings from raw data by field name
* `Settings.assign`, which changes nothing, since built settings stay as they are
-/

namespace Lookalike

/-- The tunable values of a scoring call. -/
structure Settings (F : Format) where
  /-- How much a unit of distance per feature takes off the score. -/
  distanceWeight : Number F
  /-- The score of distance zero. -/
  baseScore : Number F
  /-- The score of what is identical to the reference. -/
  identicalScore : Number F
  /-- The distance below which the content hashes are compared. -/
  identicalEpsilon : Number F
  /-- The least score that is accepted. -/
  minScore : Number F
  /-- How many neighbors are asked for. -/
  maxResults : Nat
  /-- How many of the best matches are listed and reordered. -/
  maxTop : Nat
  /-- How many positions ahead the reordering looks. -/
  rangeCheck : Nat
deriving DecidableEq

namespace Settings

/-- The names of the settings, in order. -/
inductive Field where
  | distanceWeight
  | baseScore
  | identicalScore
  | identicalEpsilon
  | minScore
  | maxResults
  | maxTop
  | rangeCheck
deriving DecidableEq, Repr

/-- All fields in order. -/
def Field.all : List Field :=
  [distanceWeight, baseScore, identicalScore, identicalEpsilon, minScore, maxResults, maxTop,
    rangeCheck]

/-- The name under which a field is given and reported. -/
def Field.name : Field → String
  | distanceWeight => "dist_to_score_mult"
  | baseScore => "base_score"
  | identicalScore => "identical_score"
  | identicalEpsilon => "identical_epsilon"
  | minScore => "min_score"
  | maxResults => "max_results"
  | maxTop => "max_top"
  | rangeCheck => "range_check"

/-- What is wrong with a raw value or with settings as a whole. -/
inductive Complaint where
  | notPositive
  | below (bound : Nat)
  | notNumber
  | unreadableNumber
  | notInteger
  | unreadableInteger
  | fractional
  | notFinite
  | oversizedInteger
  | notText
  /-- The two scores, as they are written, whose order is wrong. -/
  | identicalNotAboveBase (identical base : String)
  | frozen
deriving DecidableEq, Repr

/-- The wording of a complaint. -/
def Complaint.message : Complaint → String
  | notPositive => "Input should be greater than 0"
  | below bound => "Input should be greater than or equal to " ++ Number.digitText bound
  | notNumber => "Input should be a valid number"
  | unreadableNumber => "Input should be a valid number, unable to parse string as a number"
  | notInteger => "Input should be a valid integer"
  | unreadableInteger => "Input should be a valid integer, unable to parse string as an integer"
  | fractional => "Input should be a valid integer, got a number with a fractional part"
  | notFinite => "Input should be a finite number"
  | oversizedInteger => "Unable to parse input string as an integer, exceeded maximum size"
  | notText => "Input should be a valid string, unable to parse raw data as a unicode string"
  | identicalNotAboveBase identical base =>
    "Value error, identical_score (" ++ identical ++ ") must exceed base_score (" ++ base ++ ")"
  | frozen => "Instance is frozen"

/-- A complaint and the name of the field that it is about, if it is about one. -/
structure Problem where
  field : Option String
  complaint : Complaint
deriving DecidableEq, Repr

/-- The result of a check that may complain about several fields. -/
inductive Checked (α : Type) where
  | sound (value : α)
  | unsound (problems : List Problem)
deriving DecidableEq

namespace Checked

variable {α β : Type}

/-- Applies a checked function to a checked argument; the complaints about both are kept, those
about the function first. -/
def apply : Checked (α → β) → Checked α → Checked β
  | sound f, sound a => sound (f a)
  | sound _, unsound problems => unsound problems
  | unsound problems, sound _ => unsound problems
  | unsound problems, unsound problems' => unsound (problems ++ problems')

instance : Applicative Checked where
  pure := sound
  seq f a := apply f (a ())

/-- A further check of what has been found sound so far. -/
def andThen (checked : Checked α) (check : α → Checked β) : Checked β :=
  match checked with
  | sound value => check value
  | unsound problems => unsound problems

end Checked

section

variable (F : Format)

/-- A raw value as a real number. -/
def realOf : Datum → Except Complaint (Number F)
  | .scalar (.bool value) => .ok (if value then 1 else 0)
  | .scalar (.int value) =>
    let x := Number.ofInt F value
    if x.isFinite then .ok x else .error .notNumber
  | .scalar (.real value) => .ok (value.convert F)
  | .scalar (.text value) =>
    if Text.hasSurrogate value.toList then .error .notText
    else
      match readReal? F value.toList with
      | some x => .ok x
      | none => .error .unreadableNumber
  | _ => .error .notNumber

/-- A raw value as an integer. A real has to have no fraction and to lie between the bounds of the
integers of 64 bits. -/
def integerOf : Datum → Except Complaint Int
  | .scalar (.bool value) => .ok (if value then 1 else 0)
  | .scalar (.int value) => .ok value
  | .scalar (.real value) =>
    if !value.isFinite then .error .notFinite
    else if value.value.den ≠ 1 then .error .fractional
    else if -twoPow 63 < value.value ∧ value.value < twoPow 63 then .ok value.value.num
    else .error .oversizedInteger
  | .scalar (.text value) =>
    if Text.hasSurrogate value.toList then .error .notText
    else
      match readInteger F.numeralLimit value.toList with
      | .ok n => .ok n
      | .error .malformed => .error .unreadableInteger
      | .error .tooLong => .error .oversizedInteger
  | _ => .error .notInteger

variable {F}

/-- A real number above zero. -/
def positive (x : Number F) : Except Complaint (Number F) :=
  if 0 < x then .ok x else .error .notPositive

/-- A real number that is zero or above. -/
def nonNegative (x : Number F) : Except Complaint (Number F) :=
  if 0 ≤ x then .ok x else .error (.below 0)

/-- An integer that is one or above. -/
def count (n : Int) : Except Complaint Nat :=
  if 1 ≤ n then .ok n.toNat else .error (.below 1)

/-- The checked value of a field, which is the given default where no raw value is given. -/
def readField {α : Type} (given : List (String × Datum)) (field : Field)
    (read : Datum → Except Complaint α) (default : α) : Checked α :=
  match given.lookup field.name with
  | none => .sound default
  | some raw =>
    match read raw with
    | .ok value => .sound value
    | .error complaint => .unsound [⟨some field.name, complaint⟩]

/-- The settings in use where nothing else is said. -/
def standard (F : Format) : Settings F where
  distanceWeight := Number.ofInt F 4
  baseScore := Number.ofInt F 100
  identicalScore := Number.ofInt F 1000
  identicalEpsilon := Number.ofRat F (1 / 1000)
  minScore := 1
  maxResults := 100000
  maxTop := 2000
  rangeCheck := 100

/-- The settings with each field read on its own; names that are not fields are ignored. -/
def readFields (F : Format) (given : List (String × Datum)) : Checked (Settings F) :=
  let positiveReal := fun raw => realOf F raw >>= positive
  let nonNegativeReal := fun raw => realOf F raw >>= nonNegative
  let counted := fun raw => integerOf F raw >>= count
  let default := standard F
  Settings.mk
    <$> readField given .distanceWeight positiveReal default.distanceWeight
    <*> readField given .baseScore positiveReal default.baseScore
    <*> readField given .identicalScore positiveReal default.identicalScore
    <*> readField given .identicalEpsilon nonNegativeReal default.identicalEpsilon
    <*> readField given .minScore nonNegativeReal default.minScore
    <*> readField given .maxResults counted default.maxResults
    <*> readField given .maxTop counted default.maxTop
    <*> readField given .rangeCheck counted default.rangeCheck

/-- Settings from raw data by field name. The score of what is identical has to exceed the base
score, which is checked when every field is sound. -/
def ofFields (F : Format) (given : List (String × Datum)) : Checked (Settings F) :=
  (readFields F given).andThen fun settings =>
    if settings.identicalScore ≤ settings.baseScore then
      .unsound [⟨none, .identicalNotAboveBase settings.identicalScore.toText
        settings.baseScore.toText⟩]
    else .sound settings

/-- Built settings refuse every assignment, whether it names a setting or not. Names that start with
an underscore are free for notes, which leave the settings as they are. -/
def assign (settings : Settings F) (name : String) (_ : Datum) : Checked (Settings F) :=
  if name.toList.head? == some '_' then .sound settings else .unsound [⟨some name, .frozen⟩]

end

end Settings

end Lookalike
