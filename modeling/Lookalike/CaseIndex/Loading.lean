import Lookalike.CaseIndex.VectorStore
import Lookalike.Files.Content

/-!
# Vector stores from files

A vector store is loaded from an array file with one feature vector per row and a document with the
handle of each row. The handles are a list in the order of the rows, or a record whose field names
are the row numbers. A further document, a record, may give content hashes by the texts of the
handles.

## Main definitions

* `VectorStore.handlesOf`, the handles of a document in the order of the rows
* `VectorStore.hashesOf`, the content hashes of a document by handle
* `VectorStore.load`
-/

namespace Lookalike

namespace VectorStore

variable {F : Format}

/-- A row number that a field name stands for, with the value of the field. -/
def numbered (field : String × Datum) : Except Fault (Int × Datum) :=
  match Text.integer? field.1.toList with
  | some n => .ok (n, field.2)
  | none => .error .unreadable

/-- The handles of a document in the order of the rows. A text stands for its code points. -/
def handlesOf : Datum → Except Fault (List Datum)
  | .list items => .ok items
  | .record fields => do
    let numberedFields ← fields.mapM numbered
    pure ((numberedFields.mergeSort fun a b => decide (a.1 ≤ b.1)).map (·.2))
  | .scalar (.text characters) =>
    .ok ((Text.points characters.toList).map fun point =>
      .scalar (.text (String.ofList (Text.spell point))))
  | .scalar _ => .error .wrongKind

/-- The last handle that has a text. -/
def handleOfText? (handles : List Datum) (text : String) : Option Datum :=
  handles.reverse.find? fun handle => handle.toText == text

/-- The content hashes of a document by handle, for the field names that are the text of one. The
texts of the values are the hashes. -/
def hashesOf (handles : List Datum) : Datum → Except Fault (List (Scalar × Datum))
  | .record fields =>
    let hashes := fields.filterMap fun (text, value) =>
      (handleOfText? handles text).map fun handle => (handle, Datum.scalar (.text value.toText))
    hashes.mapM fun (handle, hash) => do pure (← handle.handle, hash)
  | _ => .error .notRecord

/-- The store in the layout with a given name. A layout with a list of its own has to be fitted to
vectors that are all finite. A search library has layouts of other names as well, which are not
known here. -/
def withLayout (store : VectorStore F) : Option String → Except Fault (VectorStore F)
  | none | some "" => .ok store
  | some "Flat" => .ok { store with layout := .flat }
  | some "IVF1,Flat" =>
    if store.size ≠ 0 ∧ store.rows.all fun row => row.all (·.isFinite) then
      .ok { store with layout := .listed }
    else .error .unusableLayout
  | some _ => .error .unusableLayout

/-- The content at a path where something has to be found. -/
def require (files : Files) (path what : String) : Except Fault Content := do
  match ← files.contentAt path with
  | some content => pure content
  | none => throw (.storage .notFound (what ++ " not found at " ++ Path.normal path))

/-- The content hashes in the file at a path, if there is one. -/
def hashesAt (files : Files) (handles : List Datum) :
    Option String → Except Fault (List (Scalar × Datum))
  | none => pure []
  | some path => do
    match ← files.contentAt path with
    | none => pure []
    | some content => hashesOf handles (← content.toDatum path)

/-- Loads a store. Both the array file and the handles have to exist; hashes that do not exist are
left out. The numbers of the array are asked for last. -/
def load (files : Files) (vectorsPath handlesPath : String) (hashesPath layout : Option String) :
    Except Fault (VectorStore F) := do
  let vectors ← require files vectorsPath "Embeddings"
  let handlesFile ← require files handlesPath "ID mapping"
  let array ← vectors.toArray vectorsPath
  let handles ← handlesOf (← handlesFile.toDatum handlesPath)
  let hashes ← hashesAt files handles hashesPath
  (← create (← array) handles hashes .exhaustive).withLayout layout

end VectorStore

end Lookalike
