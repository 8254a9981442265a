import Lookalike.CaseIndex.Tables
import Lookalike.NumberArray.Basic
import Lookalike.Distance
import Lookalike.Relevance
import Lookalike.Sample

/-!
# Vector stores

A vector store keeps the feature vectors of some items as the rows of a matrix. The row number is
the index key. Queries are answered by comparing with every row, in ways that differ in rounding:
the exhaustive search computes distances and relevances in the storage format, the flat search
computes only the distances in it. They also differ in what they make of a query of another length
and of distances that are not finite. The listed search is the flat one over a list of the rows
around their center: rows too far from the center are not listed, and a query too far from it finds
nothing.

The flat and the listed search, with the center and the samples from which it is found, stand in for
those of a search library that is no part of the program. They are written as that library is known
to answer, so that the program can run on its own. What is proved about a program with such a
library assumes no more of it than it says, see `VectorStore.RowSearch`, and holds of these two as
of any other.

## Main definitions

* `VectorStore`, `VectorStore.create`
* `VectorStore.rowOf?`, `VectorStore.hashAt?`, `VectorStore.vectorAt?`, `VectorStore.vectorsOf`
* `VectorStore.exhaustiveSearch`, `VectorStore.flatSearch`, `VectorStore.listedSearch`
* `VectorStore.index`, the store as a case index
-/

namespace Lookalike

/-- How a store answers queries. -/
inductive SearchLayout where
  | exhaustive
  | flat
  | listed
deriving DecidableEq, Repr

/-- Feature vectors by row, with the handle and, where known, the content hash of each row. -/
structure VectorStore (F : Format) where
  columns : Nat
  rows : Array (FeatureVector F)
  handles : List Scalar
  /-- Content hashes by row; of several for one row the last counts. -/
  hashes : List (Nat × Datum)
  layout : SearchLayout

/-- The row that a datum stands for as an index key. -/
def Datum.row (key : Datum) : Except Fault Int := do
  let key ← key.handle
  key.toInteger

namespace VectorStore

variable {F : Format}

/-- The last row that has a handle. -/
def rowOf? (handles : List Scalar) (handle : Scalar) : Option Nat :=
  handles.zipIdx.reverse.lookup handle

/-- A store for a matrix with one handle per row, and content hashes by handle. Hashes of handles
that no row has are left out. -/
def create (array : NumberArray .exact) (handles : List Datum) (hashes : List (Scalar × Datum))
    (layout : SearchLayout) : Except Fault (VectorStore F) :=
  match array.rows? with
  | none => .error (.notMatrix array.shape)
  | some (columns, rows) =>
    if handles.length ≠ rows.length then .error (.rowsDiffer rows.length handles.length)
    else do
      let handles ← handles.mapM Datum.handle
      let hashes := hashes.filterMap fun (handle, hash) =>
        (rowOf? handles handle).map fun row => (row, hash)
      let vectors := rows.map fun row => row.map (·.convert F.storage)
      pure ⟨columns, vectors.toArray, handles, hashes, layout⟩

def size (store : VectorStore F) : Nat := store.rows.size

/-- The content hash of a row. -/
def hashAt? (store : VectorStore F) (row : Int) : Option ContentHash :=
  if row < 0 then none else (store.hashes.reverse.lookup row.toNat).bind Datum.contentHash?

/-- The vector of a row. -/
def vectorAt? (store : VectorStore F) (row : Int) : Option (FeatureVector F) :=
  if row < 0 then none else store.rows[row.toNat]?

/-- The vectors of those keys that stand for a row. -/
def vectorsOf (store : VectorStore F) :
    List Datum → Except Fault (List (Int × FeatureVector F))
  | [] => .ok []
  | key :: rest => do
    let row ← key.row
    let others ← vectorsOf store rest
    match store.vectorAt? row with
    | some vector => pure ((row, vector) :: others)
    | none => pure others

/-- The differences of the features of a row and a query. A query of one feature is compared with
every feature of the row, and a row of one feature with every feature of the query. -/
def differences (row query : FeatureVector F) : Except Fault (List (Number F.storage)) :=
  match row, query with
  | row, [feature] => .ok (row.map (· - feature))
  | [feature], query => .ok (query.map (feature - ·))
  | row, query =>
    if row.length = query.length then .ok (List.zipWith (· - ·) row query) else .error .unreadable

/-- Whether one of two distances may stand in front of the other. What is no number comes last. -/
def nearer (a b : Nat × Number F.storage) : Bool := b.2.isNaN || decide (a.2 ≤ b.2)

/-- The rows with the least distances, by ascending distance. Rows of equal distance keep their
order. -/
def nearestRows (distances : List (Number F.storage)) (limit : Int) :
    List (Nat × Number F.storage) :=
  ((distances.zipIdx.map fun (distance, row) => (row, distance)).mergeSort nearer).take limit.toNat

/-- Compares a query with every row; relevances are computed in the storage format. -/
def exhaustiveSearch (store : VectorStore F) (query : FeatureVector F) (limit : Int) :
    Except Fault (List (Nat × Number F)) :=
  if store.size = 0 ∨ limit ≤ 0 then .ok []
  else do
    let distances ← store.rows.toList.mapM fun row =>
      (differences row query).map Distance.sumOfSquares
    pure ((nearestRows distances limit).map fun (row, distance) =>
      (row, (Relevance.ofDistance distance).convert F))

/-- The square distance of two vectors of one length in the storage format. -/
def storedDistance (a b : FeatureVector F) : Number F.storage :=
  Distance.sumOfSquares (List.zipWith (· - ·) a b)

/-- Whether a distance counts in a search: it has to lie below the greatest number. -/
def isWithin (distance : Number F.storage) : Bool := distance < Number.greatest F.storage

/-- The rows whose distance counts, the least first; relevances are computed in the format of the
scores. -/
def found (distances : List (Number F.storage)) (limit : Int) : List (Nat × Number F) :=
  ((nearestRows distances limit).filter fun entry => isWithin entry.2).map fun (row, distance) =>
    (row, Relevance.ofDistance (distance.convert F).atLeastZero)

/-- Compares a query of the store's dimension with every row. It stands in for the flat search of a
library. -/
def flatSearch (store : VectorStore F) (query : FeatureVector F) (limit : Int) :
    Except Fault (List (Nat × Number F)) :=
  if store.size = 0 ∨ limit ≤ 0 then .ok []
  else if query.length ≠ store.columns then .error .wrongDimension
  else .ok (found (store.rows.toList.map (storedDistance query)) limit)

/-- The mean of some vectors: their sum, in order, times the reciprocal of their count. -/
def meanOf (columns : Nat) (vectors : List (FeatureVector F)) : FeatureVector F :=
  let sum := vectors.foldl (List.zipWith (· + ·)) (List.replicate columns 0)
  sum.map (· * (1 / Number.ofInt F.storage vectors.length))

/-- The sum of the products of the features of two vectors in the storage format. -/
def storedProduct (a b : FeatureVector F) : Number F.storage :=
  (List.zipWith (· * ·) a b).foldl (· + ·) 0

/-- The square distance of a row to a center by products: the square of the center less twice their
product, plus the square of the row. It is less exact than the sum of the squared differences, and
no number where the squares are infinite. As in `storedProduct`, products are added in order, which
a library may do otherwise. -/
def productDistance (row center : FeatureVector F) : Number F.storage :=
  storedProduct center center - Number.ofInt F.storage 2 * storedProduct row center +
    storedProduct row row

/-- From how many rows on the distances to a center are computed by products. -/
def batchSize : Nat := 20

/-- Whether the distance to a center counts for one of so many rows. -/
def isAround (count : Nat) (center row : FeatureVector F) : Bool :=
  isWithin (if count < batchSize then storedDistance row center else productDistance row center)

/-- The mean of those of some rows whose distance to a vector counts. -/
def recentered (columns : Nat) (rows : List (FeatureVector F)) (center : FeatureVector F) :
    FeatureVector F :=
  meanOf columns (rows.filter (isAround rows.length center))

/-- To how many rows a center is fitted. -/
def sampleSize : Nat := 256

/-- The center of the rows, found in ten rounds of taking the mean of a sample of them. It starts
from one of the sample. It stands in for the training of a library's list. -/
def center (store : VectorStore F) : FeatureVector F :=
  let sample := Sample.take 1234 sampleSize store.rows
  let start := ((Sample.shuffled 1235 sample)[0]?).getD []
  Nat.repeat (recentered store.columns sample.toList) 10 start

/-- Compares a query of the store's dimension with the rows around their center. The query and each
row have to lie at a distance from it that counts. It stands in for the search of a library in one
list. -/
def listedSearch (store : VectorStore F) (query : FeatureVector F) (limit : Int) :
    Except Fault (List (Nat × Number F)) :=
  if store.size = 0 ∨ limit ≤ 0 then .ok []
  else if query.length ≠ store.columns then .error .wrongDimension
  else
    let center := store.center
    -- A row away from the center is found at no distance that counts.
    let distances := store.rows.toList.map fun row =>
      if isAround store.size center row then storedDistance query row else .posInf
    .ok (if isWithin (storedDistance query center) then found distances limit else [])

/-- The answer of a store to a query. -/
def search (store : VectorStore F) (query : FeatureVector F) (limit : Int) :
    Except Fault (List (Nat × Number F)) :=
  match store.layout with
  | .exhaustive => store.exhaustiveSearch query limit
  | .flat => store.flatSearch query limit
  | .listed => store.listedSearch query limit

/-- A row number as an index key. -/
def rowKey (row : Int) : Datum := .scalar (.int row)

/-- A store as a case index. Its answers do not depend on the questions put before. -/
def index (store : VectorStore F) : CaseIndex Datum Datum ContentHash F where
  nearest _ query limit := do
    let neighbors ← store.search query limit
    pure (neighbors.map fun (row, relevance) => (rowKey row, relevance))
  vectors _ keys := do
    let vectors ← store.vectorsOf keys
    pure (vectors.map fun (row, vector) => (rowKey row, some (.vector vector)))
  key _ item := do
    let handle ← item.handle
    pure ((rowOf? store.handles handle).map fun row => rowKey row)
  hash _ key := do
    let row ← key.row
    pure (store.hashAt? row)

end VectorStore

end Lookalike
