import Lookalike.ResultSet
import Lookalike.TopList
import Lookalike.Features

/-!
# Case indexes

A case index stores feature vectors and answers four questions: which stored vectors are nearest to
a given one, what the vectors of some keys are, which key an item has, and what the content hash of
a key is. Its answers may fail and may depend on the questions asked before.

A `Pass` is the state of a scoring call: the result set being scored, the top list found so far and
the questions put to the index. All of it survives a fault.

## Main definitions

* `IndexCall`, `CaseIndex`
* `Pass`, `Scoring`
* `CaseIndex.askNearest`, `CaseIndex.askVectors`, `CaseIndex.askKey`, `CaseIndex.askHash`, the
  questions put in a scoring call
-/

namespace Lookalike

/-- A question put to an index. -/
inductive IndexCall (Item Key : Type) where
  | nearest (limit : Int)
  | vectors (keys : List Key)
  | key (item : Item)
  | hash (key : Key)
deriving DecidableEq, Repr

/-- The answers of an index. Each is told the questions put before, the latest first. -/
structure CaseIndex (Item Key Hash : Type) (F : Format) where
  /-- At most so many keys with their relevance to a vector, in any order. -/
  nearest : List (IndexCall Item Key) → FeatureVector F → Int →
    Except Fault (List (Key × Number F))
  /-- The entries of those of the keys that have one, each with the stored features, if any. -/
  vectors : List (IndexCall Item Key) → List Key → Except Fault (List (Key × Option (Features F)))
  /-- The key of an item, if it has one. -/
  key : List (IndexCall Item Key) → Item → Except Fault (Option Key)
  /-- The content hash of a key, if it is known. -/
  hash : List (IndexCall Item Key) → Key → Except Fault (Option Hash)

/-- The state of a scoring call. -/
structure Pass (Item Key : Type) (F : Format) where
  results : ResultSet Item F
  top : Option TopList := none
  /-- The questions put to the index, the latest first. -/
  calls : List (IndexCall Item Key) := []
deriving DecidableEq

/-- A part of a scoring call. -/
abbrev Scoring (Item Key : Type) (F : Format) := Attempt (Pass Item Key F)

namespace CaseIndex

variable {Item Key Hash : Type} {F : Format}

/-- Puts a question and records it, whatever the answer. -/
def ask {α : Type} (call : IndexCall Item Key)
    (answer : List (IndexCall Item Key) → Except Fault α) : Scoring Item Key F α := fun pass =>
  let pass' := { pass with calls := call :: pass.calls }
  match answer pass.calls with
  | .ok value => .ok value pass'
  | .error fault => .error fault pass'

def askNearest (index : CaseIndex Item Key Hash F) (vector : FeatureVector F) (limit : Int) :
    Scoring Item Key F (List (Key × Number F)) :=
  ask (.nearest limit) fun calls => index.nearest calls vector limit

def askVectors (index : CaseIndex Item Key Hash F) (keys : List Key) :
    Scoring Item Key F (List (Key × Option (Features F))) :=
  ask (.vectors keys) fun calls => index.vectors calls keys

def askKey (index : CaseIndex Item Key Hash F) (item : Item) :
    Scoring Item Key F (Option Key) :=
  ask (.key item) fun calls => index.key calls item

def askHash (index : CaseIndex Item Key Hash F) (key : Key) :
    Scoring Item Key F (Option Hash) :=
  ask (.hash key) fun calls => index.hash calls key

end CaseIndex

end Lookalike
