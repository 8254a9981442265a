import Lookalike.Settings.Basic

/-!
# Faults

The ways in which a scoring call can fail, by cause. Faults of storage and of a hash look-up are
told apart from the others because the scan and the reordering carry on after some of them.

An `Attempt` is a computation over a state that may end in a fault. The state survives the fault:
what was written before it stays written.

## Main definitions

* `Fault`, `Fault.message?`, `entryOf`
* `Attempt`, `Attempt.outcome`, `Attempt.within`
-/

namespace Lookalike

/-- The kinds of storage fault. -/
inductive StorageKind where
  | general
  | notFound
  | alreadyThere
  | directory
  | notDirectory
  | permission
  | timeout
  | blocking
  | interrupted
  | childProcess
  | processLookup
  | connection
  | brokenPipe
  | connectionAborted
  | connectionRefused
  | connectionReset
deriving DecidableEq, Repr

/-- Why a computation ended without a result. -/
inductive Fault where
  /-- Something stored could not be read. -/
  | storage (kind : StorageKind) (detail : String)
  /-- The content hash of one item could not be fetched for the moment. -/
  | hashLookup (detail : String)
  /-- The nearest neighbors could not be queried. -/
  | scoring (detail : String)
  /-- Two vectors that are to be compared have different shapes. -/
  | shapesDiffer (left right : List Nat)
  /-- A score was asked for with a feature count that is not positive. -/
  | noFeatures
  /-- An array of feature vectors does not have rows and columns. -/
  | notMatrix (shape : List Nat)
  /-- There are not as many item handles as rows. -/
  | rowsDiffer (rows handles : Nat)
  /-- The settings are unsound. -/
  | settings (problems : List Settings.Problem)
  /-- A value cannot be read as a number, or a list is not regular. -/
  | unreadable
  /-- A value is of a kind that the operation does not take. -/
  | wrongKind
  /-- An integer is too large for a number. -/
  | tooLarge
  /-- There is no entry for a key. -/
  | noEntry
  /-- There is no such position. -/
  | outOfRange
  /-- A document is not well formed. -/
  | malformed
  /-- Lengths in the name of an element type are not well formed. -/
  | malformedLengths
  /-- A document is nested too deeply. -/
  | tooDeep
  /-- A record was expected where there is none. -/
  | notRecord
  /-- A query vector does not have the dimension of the index. -/
  | wrongDimension
  /-- Arrays have more dimensions than an operation takes. -/
  | tooManyDimensions
  /-- An index cannot be built in the layout asked for. -/
  | unusableLayout
  /-- A file ends before its content begins. -/
  | endOfData
  /-- A text has no bytes, since a surrogate stands in it on its own. -/
  | unwritable
  /-- A file does not hold text. -/
  | notText
  /-- A file begins as an archive and is none. -/
  | brokenArchive
  /-- A file is of a version that is not known. -/
  | unsupported
  /-- A fault that an index reports under a name of its own. -/
  | foreign (name detail : String)
deriving DecidableEq, Repr

/-- The shape of an array in parentheses; a single dimension is followed by a comma. -/
def shapeText : List Nat → String
  | [n] => "(" ++ Number.digitText n ++ ",)"
  | shape => "(" ++ String.intercalate ", " (shape.map Number.digitText) ++ ")"

/-- The wording of the faults that have one of their own. -/
def Fault.message? : Fault → Option String
  | storage _ detail | hashLookup detail | scoring detail => some detail
  | shapesDiffer left right =>
    some ("Feature vectors differ in shape: " ++ shapeText left ++ " vs " ++ shapeText right)
  | noFeatures => some "num_features must be positive"
  | notMatrix shape => some ("Feature vectors must be 2D (N,D). Got " ++ shapeText shape ++ ".")
  | rowsDiffer rows handles =>
    some ("Vector rows (" ++ Number.digitText rows ++ ") != item ids (" ++
      Number.digitText handles ++ ")")
  | _ => none

/-- The value of an entry, or the fault that there is none. -/
def entryOf {α : Type} : Option α → Except Fault α
  | some value => .ok value
  | none => .error .noEntry

/-- A computation over a state that may end in a fault and keeps the state reached before it. -/
abbrev Attempt (σ : Type) := EStateM Fault σ

namespace Attempt

variable {σ τ α : Type}

/-- Runs a computation to its result or fault; the state reached goes on. -/
def outcome (attempt : Attempt σ α) : Attempt σ (Except Fault α) := fun state =>
  match attempt state with
  | .ok value state' => .ok (.ok value) state'
  | .error fault state' => .ok (.error fault) state'

/-- A result or fault that does not depend on a state. -/
def ofExcept : Except Fault α → Attempt σ α
  | .ok value => pure value
  | .error fault => throw fault

/-- Runs a computation over a part of the state. -/
def within (get : σ → τ) (put : τ → σ → σ) (attempt : Attempt τ α) : Attempt σ α := fun state =>
  match attempt (get state) with
  | .ok value part => .ok value (put part state)
  | .error fault part => .error fault (put part state)

/-- The result or fault of a run, and the state reached. -/
def result (attempt : Attempt σ α) (state : σ) : Except Fault α × σ :=
  match attempt state with
  | .ok value state' => (.ok value, state')
  | .error fault state' => (.error fault, state')

end Attempt

end Lookalike
