import Lookalike.CaseIndex.Basic
import Lookalike.CaseIndex.ContentHash

/-!
# Indexes from tables, and planned faults

An index can be given by tables of its answers. Any index can be made to fail on chosen questions,
which is how the behavior of a scoring call under faults is exercised.

## Main definitions

* `Datum.handle`, a datum that is looked up
* `IndexTables`, `IndexTables.index`
* `PlannedFaults`, `CaseIndex.failing`
-/

namespace Lookalike

/-- The answers of an index, entry by entry. Of several entries for one key the last one counts. -/
structure IndexTables (F : Format) where
  neighbors : List (Datum × Number F) := []
  keys : List (Scalar × Datum) := []
  hashes : List (Scalar × Datum) := []
  vectors : List (Scalar × Option (Features F)) := []

/-- The last entry for a key. -/
def latestOf? {Value : Type} (key : Scalar) (entries : List (Scalar × Value)) : Option Value :=
  entries.reverse.lookup key

/-- A datum as a scalar, in which form it is looked up. -/
def Datum.handle (datum : Datum) : Except Fault Scalar :=
  match datum.scalar? with
  | some value => .ok value
  | none => .error .wrongKind

/-- The entries for those of some keys that have one. -/
def entriesFor {Value : Type} (entries : List (Scalar × Value)) :
    List Datum → Except Fault (List (Datum × Value))
  | [] => .ok []
  | key :: rest => do
    let handle ← key.handle
    let others ← entriesFor entries rest
    match latestOf? handle entries with
    | some value => pure ((key, value) :: others)
    | none => pure others

/-- The index that answers from tables. A query is answered with the first neighbors as they are,
and a null stands for no answer. -/
def IndexTables.index {F : Format} (tables : IndexTables F) :
    CaseIndex Datum Datum ContentHash F where
  nearest _ _ limit := .ok (Position.upTo limit tables.neighbors)
  vectors _ keys := entriesFor tables.vectors keys
  key _ item := do
    let handle ← item.handle
    pure ((latestOf? handle tables.keys).bind Datum.present)
  hash _ key := do
    let handle ← key.handle
    pure ((latestOf? handle tables.hashes).bind Datum.contentHash?)

/-- Faults with which an index is to answer, and keys whose vectors it is to leave out. Of several
faults for one key the first counts. -/
structure PlannedFaults (Key : Type) where
  nearest : Option Fault := none
  vectors : Option Fault := none
  key : Option Fault := none
  hashes : List (Key × Fault) := []
  dropped : List Key := []

/-- A planned fault, or else the answer. -/
def orAnswer {α : Type} (fault : Option Fault) (answer : Except Fault α) : Except Fault α :=
  match fault with
  | some fault => .error fault
  | none => answer

/-- The index that answers as planned where a fault is planned, and as before elsewhere. -/
def CaseIndex.failing {Item Key Hash : Type} {F : Format} [BEq Key]
    (index : CaseIndex Item Key Hash F) (faults : PlannedFaults Key) :
    CaseIndex Item Key Hash F where
  nearest calls vector limit := orAnswer faults.nearest (index.nearest calls vector limit)
  vectors calls keys := orAnswer faults.vectors do
    let vectors ← index.vectors calls keys
    pure (vectors.filter fun entry => !faults.dropped.contains entry.1)
  key calls item := orAnswer faults.key (index.key calls item)
  hash calls key := orAnswer (faults.hashes.lookup key) (index.hash calls key)

end Lookalike
