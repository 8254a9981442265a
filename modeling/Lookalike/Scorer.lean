import Lookalike.ScoreMap
import Lookalike.Distance
import Lookalike.Chain.Basic
import Lookalike.Chain.Spread

/-!
# Scoring by similarity to one reference

A scorer scores a result set by similarity to one reference image. Every position gets a score: the
reserved one for exact duplicates of the reference, one between the least accepted and the base
score for neighbors that are close enough, and zero otherwise. The best matches are listed, and
those that are not identical to the reference are regrouped so that similar images stand next to
each other, with their scores spread evenly anew.

The regrouping is best effort. When the features of the best matches cannot be read from storage,
or are incomplete, the order by distance stands.

## Main definitions

* `Scorer`, `Scorer.ofFeatures`, `Scorer.forItem`
* `Scorer.fetchFeatures`, the vectors of some positions in one batch
* `Scorer.organize`, the regrouping of a top list
* `Scorer.score`, the whole call; `Scorer.candidates`, its outcome for display
-/

namespace Lookalike

/-- What a scoring call compares with, and the settings it uses. -/
structure Scorer (Hash : Type) (F : Format) where
  reference : Option (FeatureVector F)
  referenceHash : Option Hash
  settings : Settings F

namespace Scorer

variable {Item Key Hash : Type} {F : Format}

/-- A scorer for some stored features, if there are any. -/
def ofFeatures (features : Option (Features F)) (hash : Option Hash) (settings : Settings F) :
    Except Fault (Scorer Hash F) :=
  match features with
  | none => .ok ⟨none, hash, settings⟩
  | some features => (features.toVector).map fun vector => ⟨some vector, hash, settings⟩

/-- A scorer for an item of the index, by its stored features and its content hash. A hash that
cannot be fetched for the moment is left out. -/
def forItem [BEq Key] (index : CaseIndex Item Key Hash F) (item : Item) (settings : Settings F) :
    Scoring Item Key F (Scorer Hash F) := do
  match ← index.askKey item with
  | none => Attempt.ofExcept (ofFeatures none none settings)
  | some key =>
    -- The features are asked for before the hash, and a fault there comes first.
    let features := ((← index.askVectors [key]).lookup key).join
    let hash ←
      match ← Attempt.outcome (index.askHash key) with
      | .ok hash => pure hash
      | .error (.hashLookup _) => pure none
      | .error fault => throw fault
    Attempt.ofExcept (ofFeatures features hash settings)

/-- The keys of positions, each position once, put behind those found so far; positions without a
key are left out. -/
def keysFrom (index : CaseIndex Item Key Hash F) (keys : List (Position × Key)) :
    List Position → Scoring Item Key F (List (Position × Key))
  | [] => pure keys
  | position :: rest => do
    let item ← Attempt.ofExcept ((← get).results.itemAt position)
    match ← index.askKey item with
    | some key => keysFrom index (putEntry position key keys) rest
    | none => keysFrom index keys rest

/-- The vectors of positions whose key has features, in order. -/
def vectorsOf [BEq Key] (vectors : List (Key × Option (Features F))) :
    List (Position × Key) → Except Fault (List (Position × FeatureVector F))
  | [] => .ok []
  | (position, key) :: rest =>
    match (vectors.lookup key).join with
    | none => vectorsOf vectors rest
    | some features => do
      let vector ← features.toVector
      let others ← vectorsOf vectors rest
      pure ((position, vector) :: others)

/-- The vectors of positions, fetched in one batch whose keys are in the order of the positions.
Positions without a key or without features are left out. -/
def fetchFeatures [BEq Key] (index : CaseIndex Item Key Hash F) (positions : List Position) :
    Scoring Item Key F (List (Position × FeatureVector F)) := do
  -- The keys are asked for in ascending order of their positions.
  let keys ← keysFrom index [] (positions.mergeSort fun a b => decide (a ≤ b))
  let vectors ← index.askVectors (keys.map (·.2))
  Attempt.ofExcept (vectorsOf vectors keys)

/-- A stored vector in the format in which scores are computed. -/
def widened (vector : FeatureVector F) : List (Number F) := vector.map (·.convert F)

/-- The distance by which a chain of widened vectors is arranged. It does not depend on what was
measured before. -/
def chainDistance : Chain.DistanceFunction Position (List (Number F)) F := fun _ => Distance.square

/-- Regroups a top list whose tail has more than two positions and spreads its scores anew. -/
def organize [BEq Key] (scorer : Scorer Hash F) (index : CaseIndex Item Key Hash F)
    (reference : FeatureVector F) (top : TopList) : Scoring Item Key F Unit := do
  if top.tailSize ≤ 2 then return
  -- The last fixed position takes part, since the chain goes on from it.
  let needed := Position.after (top.tailStart - 1) top.positions
  match ← Attempt.outcome (fetchFeatures index needed) with
  | .error (.storage _ _) => return
  | .error fault => throw fault
  | .ok vectors =>
    -- A list of which not all features are known is left as it is.
    if vectors.length < needed.length then return
    let (highest, lowest) ←
      Attempt.ofExcept (Chain.scoreBounds (← get).results top.positions top.tailStart)
    let features := fun position => (entryOf (vectors.lookup position)).map widened
    let chain := Chain.reorder chainDistance top.positions top.tailStart features
      (widened reference) scorer.settings.rangeCheck
    -- The new order stands, even where a fault has ended the measuring.
    modify fun pass => { pass with top := some { top with positions := chain.order } }
    match chain.fault with
    | some fault => throw fault
    | none =>
      Attempt.within (·.results) (fun results pass => { pass with results })
        (Chain.spread chain.order top.tailStart highest lowest)

/-- Scores the result set and regroups its best matches. Without a reference, without features or
without results nothing is done and there is no top list. -/
def score [BEq Key] [TableKey Key] [BEq Hash] (scorer : Scorer Hash F)
    (index : CaseIndex Item Key Hash F) : Scoring Item Key F (Option TopList) := do
  let pass ← get
  match scorer.reference with
  | none => pure none
  | some reference =>
    if reference.isEmpty || pass.results.size == 0 then pure none
    else
      let map ←
        ScoreMap.build index (some reference) scorer.referenceHash scorer.settings
      let top ←
        Attempt.ofExcept (TopList.select (← get).results scorer.settings map.matched)
      -- The list is kept before it is regrouped, so that a fault there leaves it in place.
      modify fun pass => { pass with top := some top }
      organize scorer index reference top
      return (← get).top

/-- The listed positions with their items and scores, in order. -/
def candidates (pass : Pass Item Key F) : Except Fault (List (Candidate Item F)) :=
  match pass.top with
  | none => .ok []
  | some top => top.positions.mapM pass.results.candidateAt

/-- Scores a result set against some features and lists the best matches. -/
def scoreBySimilarity [BEq Key] [TableKey Key] [BEq Hash] (index : CaseIndex Item Key Hash F)
    (features : Option (Features F)) (hash : Option Hash) (settings : Settings F) :
    Scoring Item Key F (List (Candidate Item F)) := do
  let scorer ← Attempt.ofExcept (ofFeatures features hash settings)
  let _ ← scorer.score index
  Attempt.ofExcept (candidates (← get))

end Scorer

end Lookalike
