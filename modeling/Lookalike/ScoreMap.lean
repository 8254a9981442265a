import Lookalike.CaseIndex.Basic
import Lookalike.NumberArray.Basic
import Lookalike.Ranking
import Lookalike.Relevance

/-!
# Score maps

The first part of a scoring call asks the index for the nearest neighbors of the reference, turns
their relevances into scores, the best first, until a score falls below the least one that is
accepted, and writes the score of every position of the result set.

A neighbor counts as an exact duplicate when its content hash is that of the reference. A hash that
cannot be fetched for the moment is taken for a different one. A storage fault ends the scan, and
the scores accepted up to there stand.

## Main definitions

* `ScoreMap`, the scores by index key and the positions they were written to
* `ScoreMap.isDuplicate`, the comparison of content hashes
* `ScoreMap.queryNeighbors`, the neighbors, the most relevant first
* `ScoreMap.scan`, the scores of neighbors in order
* `ScoreMap.project`, which writes the scores of the result set
* `ScoreMap.build`, the three in a row; `ScoreMap.buildOfArray`, for a reference of any shape
-/

namespace Lookalike

/-- The scores of a scan by index key, the positions that they were written to, and how many
neighbors were looked at. -/
structure ScoreMap (Key : Type) (F : Format) where
  byKey : List (Key × Number F)
  matched : List Position
  seen : Nat
deriving DecidableEq

namespace ScoreMap

variable {Item Key Hash : Type} {F : Format}

/-- The map of a result set that was not scored. -/
def empty : ScoreMap Key F := ⟨[], [], 0⟩

/-- Whether the content hash of a key is that of the reference. Without a hash of the reference the
index is not asked. -/
def isDuplicate [BEq Hash] (index : CaseIndex Item Key Hash F) (referenceHash : Option Hash)
    (key : Key) : Scoring Item Key F Bool := do
  match referenceHash with
  | none => pure false
  | some reference =>
    match ← Attempt.outcome (index.askHash key) with
    | .ok (some hash) => pure (hash == reference)
    | .ok none => pure false
    -- Only this fault is taken for a different hash; every other one is passed on.
    | .error (.hashLookup _) => pure false
    | .error fault => throw fault

/-- The nearest neighbors of a vector, the most relevant first. Neighbors of equal relevance keep
the order of the index. -/
def queryNeighbors (index : CaseIndex Item Key Hash F) (vector : FeatureVector F)
    (settings : Settings F) : Scoring Item Key F (List (Key × Number F)) := do
  match ← Attempt.outcome (index.askNearest vector settings.maxResults) with
  | .ok neighbors => pure (Ranking.rank neighbors)
  | .error (.storage _ detail) => throw (.scoring ("Nearest-neighbor query failed: " ++ detail))
  | .error fault => throw fault

/-- Scores neighbors in order, on top of the scores and the count so far, until a score falls below
the least one accepted or a storage fault ends the scan. An accepted score needs a key that can be
looked up. -/
def scanFrom [BEq Key] [TableKey Key] [BEq Hash] (index : CaseIndex Item Key Hash F)
    (features : Int) (referenceHash : Option Hash) (settings : Settings F)
    (scores : List (Key × Number F)) (seen : Nat) :
    List (Key × Number F) → Scoring Item Key F (List (Key × Number F) × Nat)
  | [] => pure (scores, seen)
  | (key, relevance) :: rest => do
    match ← Attempt.outcome (Relevance.displayScore settings features relevance
        (isDuplicate index referenceHash key)) with
    -- The neighbor at which the storage failed has been looked at.
    | .error (.storage _ _) => pure (scores, seen + 1)
    | .error fault => throw fault
    | .ok score =>
      if score < settings.minScore then pure (scores, seen + 1)
      -- A score that is too low ends the scan before its key is looked up.
      else if !TableKey.isKey key then throw .wrongKind
      else
        scanFrom index features referenceHash settings (putEntry key score scores) (seen + 1) rest

/-- The scores of neighbors by key, and how many neighbors were looked at. -/
def scan [BEq Key] [TableKey Key] [BEq Hash] (index : CaseIndex Item Key Hash F) (features : Int)
    (referenceHash : Option Hash) (settings : Settings F) (neighbors : List (Key × Number F)) :
    Scoring Item Key F (List (Key × Number F) × Nat) :=
  scanFrom index features referenceHash settings [] 0 neighbors

/-- Writes the score at a position of the result set. -/
def writeScore (position : Position) (score : Number F) : Scoring Item Key F Unit :=
  Attempt.within (·.results) (fun results pass => { pass with results })
    (ResultSet.write position score)

/-- The score of a key, if it has one. -/
def scoreFor [BEq Key] [TableKey Key] (scores : List (Key × Number F)) :
    Option Key → Except Fault (Option (Number F))
  | none => .ok none
  | some key => if TableKey.isKey key then .ok (scores.lookup key) else .error .wrongKind

/-- Writes the scores of items that stand from a position on: the score of the item's key, or zero
if it has none. The positions of the former are returned in order. -/
def projectFrom [BEq Key] [TableKey Key] (index : CaseIndex Item Key Hash F)
    (scores : List (Key × Number F)) (position : Nat) :
    List Item → Scoring Item Key F (List Position)
  | [] => pure []
  | item :: rest => do
    let key ← index.askKey item
    match ← Attempt.ofExcept (scoreFor scores key) with
    | some score =>
      writeScore position score
      let matched ← projectFrom index scores (position + 1) rest
      pure ((position : Position) :: matched)
    | none =>
      writeScore position 0
      projectFrom index scores (position + 1) rest

/-- Writes the score of every position of the result set and returns the matched positions. -/
def project [BEq Key] [TableKey Key] (index : CaseIndex Item Key Hash F)
    (scores : List (Key × Number F)) : Scoring Item Key F (List Position) := do
  projectFrom index scores 0 (← get).results.items

/-- Scores the result set by its distance to a vector that counts as having so many features.
Without features or without results nothing is done. -/
def buildCounting [BEq Key] [TableKey Key] [BEq Hash] (index : CaseIndex Item Key Hash F)
    (features : Nat) (vector : FeatureVector F) (referenceHash : Option Hash)
    (settings : Settings F) : Scoring Item Key F (ScoreMap Key F) := do
  let pass ← get
  if features == 0 || pass.results.size == 0 then pure empty
  else
    let neighbors ← queryNeighbors index vector settings
    let (byKey, seen) ← scan index features referenceHash settings neighbors
    let matched ← project index byKey
    pure ⟨byKey, matched, seen⟩

/-- Scores the result set by its distance to a reference. Without a reference, without features or
without results nothing is done. -/
def build [BEq Key] [TableKey Key] [BEq Hash] (index : CaseIndex Item Key Hash F)
    (reference : Option (FeatureVector F)) (referenceHash : Option Hash) (settings : Settings F) :
    Scoring Item Key F (ScoreMap Key F) :=
  match reference with
  | none => pure empty
  | some vector => buildCounting index vector.length vector referenceHash settings

/-- Scores the result set by its distance to an array, whose numbers are taken in order while its
first dimension gives the count of features. An array without dimensions has no such count. -/
def buildOfArray [BEq Key] [TableKey Key] [BEq Hash] (index : CaseIndex Item Key Hash F)
    (reference : Option (NumberArray F.storage)) (referenceHash : Option Hash)
    (settings : Settings F) : Scoring Item Key F (ScoreMap Key F) :=
  match reference with
  | none => pure empty
  | some array =>
    match array.shape with
    | [] => throw .wrongKind
    | features :: _ => buildCounting index features array.values referenceHash settings

end ScoreMap

end Lookalike
