import Lookalike.CaseIndex.Loading
import Lookalike.Proofs.VectorStore

/-!
# Content hashes of a loaded store

A file of content hashes gives them by the texts of the handles, and handles that are different may
have one text, as the number one and its digit have. Of those the last one gets the hash when the
store is loaded, and the others get none. So every handle has the hash that the file gives to its
text exactly where no text in the file is that of two handles.

## Main definitions

* `VectorStore.lastWith`, the last handle that has a text
* `VectorStore.hashFor`, the hash that a file gives to the text of a handle
* `VectorStore.Sources`, the files that a store is loaded from
* `VectorStore.HasHash`, what a store answers when it is asked for the key and the hash of an item

## Main statements

* `VectorStore.load_eq`, `VectorStore.hasHash_of_load`
* `VectorStore.load_hashes`
-/

namespace Lookalike

/-- A path that is a single short part leads to what stands there. -/
theorem Files.contentAt_of_part (files : Files) {path : String}
    (single : Path.parts path = [path]) (relative : Path.root path = "") (named : path ≠ "")
    (short : (Path.byteCount? path).any (· ≤ Path.partLimit)) :
    files.contentAt path = .ok (files path) := by
  obtain ⟨count, counted, short⟩ := (Option.any_eq_true _ _).mp short
  have normal : Path.normal path = path := by
    rw [Path.normal, single, relative, Path.join, String.intercalate_singleton, String.empty_append]
    exact if_neg (by simpa using named)
  have fits : ∀ bound, Path.partLimit ≤ bound → Files.isLonger bound path = false := by
    intro bound enough
    rw [Files.isLonger, counted, Option.any_some, decide_eq_false_iff_not, not_lt]
    exact (of_decide_eq_true short).trans enough
  have within : files.isTooLong path = false := by
    simp only [Files.isTooLong, normal, single, List.any_cons, List.any_nil,
      fits _ (by decide : Path.partLimit ≤ Path.limit), fits _ le_rfl, Bool.or_false,
      Bool.false_and]
  rw [Files.contentAt, counted, within, normal]
  rfl

namespace VectorStore

variable {F : Format}

section Named

variable {handles : List Scalar} {a b handle : Scalar} {row : ℕ} {text : String}

/-- The last of some handles that has a text. -/
def lastWith (handles : List Scalar) (text : String) : Option Scalar :=
  handles.reverse.find? fun handle => handle.toText == text

theorem handleOfText?_scalars :
    handleOfText? (handles.map .scalar) text = (lastWith handles text).map .scalar := by
  rw [handleOfText?, lastWith, ← List.map_reverse, List.find?_map]
  rfl

theorem lastWith_eq_some (found : lastWith handles text = some handle) :
    handle ∈ handles ∧ handle.toText = text := by
  have spelled := List.find?_some found
  exact ⟨List.mem_reverse.mp (List.mem_of_find?_eq_some found), eq_of_beq spelled⟩

/-- The text of a handle is that of some last one. -/
theorem exists_lastWith (member : handle ∈ handles) :
    ∃ last, lastWith handles handle.toText = some last := by
  rw [← Option.isSome_iff_exists, lastWith, List.find?_isSome]
  exact ⟨handle, List.mem_reverse.mpr member, BEq.rfl⟩

/-- A handle of the store names a row. -/
theorem exists_rowOf? (member : handle ∈ handles) : ∃ row, rowOf? handles handle = some row := by
  -- Looking up fails only where no handle is equal, but a handle is equal to itself.
  by_contra unnamed
  have none : rowOf? handles handle = none :=
    Option.eq_none_iff_forall_ne_some.mpr fun row named => unnamed ⟨row, named⟩
  obtain ⟨row, found⟩ := List.getElem?_of_mem member
  have listed : (handle, row) ∈ handles.zipIdx.reverse :=
    List.mem_reverse.mpr (List.mk_mem_zipIdx_iff_getElem?.mpr found)
  have different : (handle != handle) = true := List.lookup_eq_none_iff.mp none _ listed
  rw [bne, BEq.rfl] at different
  cases different

/-- Handles that name one row are equal. -/
theorem beq_of_rowOf?_eq_some (named : rowOf? handles a = some row)
    (named' : rowOf? handles b = some row) : a == b := by
  obtain ⟨known, found, same⟩ := exists_of_rowOf?_eq_some named
  obtain ⟨known', found', same'⟩ := exists_of_rowOf?_eq_some named'
  obtain rfl : known = known' := Option.some.inj (found.symm.trans found')
  exact PartialEquivBEq.trans same (PartialEquivBEq.symm same')

end Named

section Hashes

variable {handles : List Scalar} {fields : List (String × Datum)} {handle : Scalar} {row : ℕ}

/-- The text of a value, as which it is recorded. -/
def hashText (value : Datum) : Datum := .scalar (.text value.toText)

/-- The hash that a file gives to the text of a handle: the text of the last value that stands under
it. -/
def hashFor (fields : List (String × Datum)) (handle : Scalar) : Option ContentHash :=
  (fields.reverse.lookup handle.toText).map fun value => ⟨hashText value⟩

/-- The hashes of a file by handle. -/
def hashesByHandle (handles : List Scalar) (fields : List (String × Datum)) :
    List (Scalar × Datum) :=
  fields.filterMap fun (text, value) =>
    (lastWith handles text).map fun handle => (handle, hashText value)

theorem hashesOf_scalars (handles : List Scalar) (fields : List (String × Datum)) :
    hashesOf (handles.map .scalar) (.record fields) = .ok (hashesByHandle handles fields) := by
  have hashes : (fields.filterMap fun (text, value) =>
      (handleOfText? (handles.map .scalar) text).map fun handle =>
        (handle, Datum.scalar (.text value.toText))) =
      (hashesByHandle handles fields).map fun entry => (.scalar entry.1, entry.2) := by
    rw [hashesByHandle, List.map_filterMap]
    congr 1
    funext ⟨text, value⟩
    simp only [handleOfText?_scalars, Option.map_map]
    rfl
  rw [hashesOf, hashes, List.mapM_map]
  refine (mapM_eq_ok (g := id) fun entry _ => ?_).trans ?_
  · rfl
  · rw [List.map_id]

/-- A text of the file stands for the row of the last handle that has it. -/
theorem hashesByRow_hashesByHandle (handles : List Scalar) (fields : List (String × Datum)) :
    hashesByRow handles (hashesByHandle handles fields) = fields.filterMap fun field =>
      ((lastWith handles field.1).bind (rowOf? handles)).map fun row =>
        (row, hashText field.2) := by
  rw [hashesByRow, hashesByHandle, List.filterMap_filterMap]
  congr 1
  funext field
  cases found : lastWith handles field.1 <;> simp [found]

/-- The hash of a row is the one that the file gives to the handle of the row, if that is the last
one with its text. -/
theorem hashAt?_of_hashes {store : VectorStore F}
    (recorded : store.hashes = hashesByRow handles (hashesByHandle handles fields))
    (distinct : ∀ a ∈ handles, ∀ b ∈ handles, a == b → a = b) (member : handle ∈ handles)
    (named : rowOf? handles handle = some row) :
    store.hashAt? row =
      if lastWith handles handle.toText = some handle then hashFor fields handle else none := by
  -- A text stands for the row only through the handle itself.
  have through : ∀ text, (lastWith handles text).bind (rowOf? handles) = some row →
      lastWith handles text = some handle := by
    intro text stands
    obtain ⟨last, found, named'⟩ := Option.bind_eq_some_iff.mp stands
    have same := distinct last (lastWith_eq_some found).1 handle member
      (beq_of_rowOf?_eq_some named' named)
    rw [found, same]
  rw [hashAt?, if_neg (by omega), Int.toNat_natCast, recorded, hashesByRow_hashesByHandle,
    ← List.filterMap_reverse]
  split_ifs with last
  · have stands : ∀ text, (lastWith handles text).bind (rowOf? handles) = some row ↔
        handle.toText == text := by
      intro text
      rw [beq_iff_eq]
      constructor
      · exact fun stands => (lastWith_eq_some (through text stands)).2
      · rintro rfl
        rw [last, Option.bind_some, named]
    have found := lookup_filterMap_of_iff stands hashText fields.reverse
    rw [found, hashFor]
    cases fields.reverse.lookup handle.toText <;> rfl
  · have never : ∀ text, (lastWith handles text).bind (rowOf? handles) ≠ some row := by
      intro text stands
      have found := through text stands
      rw [(lastWith_eq_some found).2] at last
      exact last found
    have found := lookup_filterMap_eq_none never hashText fields.reverse
    rw [found, Option.bind_none]

end Hashes

section Load

variable {files : Files} {vectorsPath handlesPath hashesPath : String} {handles : List Scalar}
  {fields : List (String × Datum)} {handle : Scalar}

/-- What is found at the paths of a store: a matrix, a document with a handle for each of its rows,
and a record of hashes. -/
structure Sources (files : Files) (vectorsPath handlesPath hashesPath : String)
    (handles : List Scalar) (fields : List (String × Datum)) : Prop where
  matrix : ∃ array columns rows, files.contentAt vectorsPath = .ok (some (.array (.ok array))) ∧
    array.rows? = some (columns, rows) ∧ rows.length = handles.length
  named : ∃ content document, files.contentAt handlesPath = .ok (some content) ∧
    content.toDatum handlesPath = .ok document ∧ handlesOf document = .ok (handles.map .scalar)
  hashed : ∃ content, files.contentAt hashesPath = .ok (some content) ∧
    content.toDatum hashesPath = .ok (.record fields)

/-- A matrix and a document with a handle for each of its rows are loaded into a store with the
hashes that are found for the handles, which is then brought to its layout. -/
theorem load_eq {array : NumberArray .exact} {columns : ℕ} {rows : List (List (Number .exact))}
    {content : Content} {document : Datum}
    (vectors : files.contentAt vectorsPath = .ok (some (.array (.ok array))))
    (matrix : array.rows? = some (columns, rows)) (count : rows.length = handles.length)
    (named : files.contentAt handlesPath = .ok (some content))
    (read : content.toDatum handlesPath = .ok document)
    (told : handlesOf document = .ok (handles.map .scalar)) (hashesPath layout : Option String) :
    load (F := F) files vectorsPath handlesPath hashesPath layout = (do
      let hashes ← hashesAt files (handles.map .scalar) hashesPath
      (⟨columns, (rows.map fun row => row.map (·.convert F.storage)).toArray, handles,
        hashesByRow handles hashes, .exhaustive⟩ : VectorStore F).withLayout layout) := by
  -- Both files are there, so what follows is what is read from them.
  have present : require files vectorsPath "Embeddings" = .ok (.array (.ok array)) := by
    rw [require, vectors]
    rfl
  have present' : require files handlesPath "ID mapping" = .ok content := by
    rw [require, named]
    rfl
  simp only [load, present, present', Content.toArray, read, told, bind, Except.bind]
  cases hashesAt files (handles.map .scalar) hashesPath with
  | error fault => rfl
  | ok hashes => simp only [create_scalars matrix count]

/-- The hashes of a record are found for handles that can be looked up. -/
theorem hashesAt_of_record {content : Content} {path : String}
    (hashed : files.contentAt path = .ok (some content))
    (read : content.toDatum path = .ok (.record fields)) :
    hashesAt files (handles.map .scalar) (some path) = .ok (hashesByHandle handles fields) := by
  rw [← hashesOf_scalars]
  simp only [hashesAt, hashed, bind, Except.bind, read]

/-- A store is loaded with the handles of the one document and the hashes of the other by row, and
then brought to its layout. -/
theorem load_eq_withLayout
    (sources : Sources files vectorsPath handlesPath hashesPath handles fields)
    (layout : Option String) :
    ∃ columns rows, load (F := F) files vectorsPath handlesPath (some hashesPath) layout =
      (⟨columns, rows, handles, hashesByRow handles (hashesByHandle handles fields), .exhaustive⟩ :
        VectorStore F).withLayout layout := by
  obtain ⟨array, columns, rows, vectors, matrix, count⟩ := sources.matrix
  obtain ⟨content, document, named, read, told⟩ := sources.named
  obtain ⟨content', hashed, read'⟩ := sources.hashed
  have loaded := load_eq (F := F) vectors matrix count named read told (some hashesPath) layout
  rw [hashesAt_of_record hashed read'] at loaded
  exact ⟨columns, _, loaded⟩

/-- A layout says how a store is searched, and changes nothing else. -/
theorem withLayout_eq_ok {store store' : VectorStore F} {layout : Option String}
    (brought : store.withLayout layout = .ok store') :
    ∃ searched, store' = { store with layout := searched } := by
  unfold withLayout at brought
  split at brought
  · cases brought
    exact ⟨store.layout, rfl⟩
  · cases brought
    exact ⟨store.layout, rfl⟩
  · cases brought
    exact ⟨.flat, rfl⟩
  · split at brought
    · cases brought
      exact ⟨.listed, rfl⟩
    · cases brought
  · cases brought

/-- A store answers an item with a key, and the key with a hash, whatever it has been asked before.
-/
def HasHash (store : VectorStore F) (handle : Scalar) (hash : Option ContentHash) : Prop :=
  ∃ key, ∀ calls, store.index.key calls (.scalar handle) = .ok (some key) ∧
    store.index.hash calls key = .ok hash

/-- There is one hash of an item at most. -/
theorem HasHash.eq {store : VectorStore F} {hash hash' : Option ContentHash}
    (has : store.HasHash handle hash) (has' : store.HasHash handle hash') : hash = hash' := by
  obtain ⟨key, answers⟩ := has
  obtain ⟨key', answers'⟩ := has'
  obtain rfl : key = key' :=
    Option.some.inj (Except.ok.inj ((answers []).1.symm.trans (answers' []).1))
  exact Except.ok.inj ((answers []).2.symm.trans (answers' []).2)

/-- After loading, the last handle with a text has the hash that the file gives to the text, and any
other handle with the text has none. -/
theorem hasHash_of_load
    (sources : Sources files vectorsPath handlesPath hashesPath handles fields)
    (distinct : ∀ a ∈ handles, ∀ b ∈ handles, a == b → a = b) {layout : Option String}
    {store : VectorStore F}
    (loaded : load files vectorsPath handlesPath (some hashesPath) layout = .ok store)
    (member : handle ∈ handles) :
    store.HasHash handle
      (if lastWith handles handle.toText = some handle then hashFor fields handle else none) := by
  obtain ⟨columns, rows, same⟩ := load_eq_withLayout (F := F) sources layout
  obtain ⟨searched, brought⟩ := withLayout_eq_ok (same.symm.trans loaded)
  have known : store.handles = handles := by rw [brought]
  have recorded : store.hashes = hashesByRow handles (hashesByHandle handles fields) := by
    rw [brought]
  obtain ⟨row, named⟩ := exists_rowOf? member
  refine ⟨rowKey row, fun calls => ⟨?_, ?_⟩⟩
  · rw [key_scalar]
    simp only [keyOf, Datum.scalar?, Option.bind_some, known, named]
    rfl
  · rw [← hashAt?_of_hashes recorded distinct member named]
    rfl

/-- A store is loaded from a matrix, as many handles and a record of hashes, in the exhaustive and
the flat layout at least. Whichever its layout is, the last handle with a text has the hash that the
record gives to the text, and any other handle with the text has none. So every handle has the hash
of its text, or none where the record gives none, exactly if no two handles have one text that the
record names. -/
theorem load_hashes
    (sources : Sources files vectorsPath handlesPath hashesPath handles fields)
    (distinct : ∀ a ∈ handles, ∀ b ∈ handles, a == b → a = b) :
    (∀ layout ∈ [none, some "", some "Flat"], ∃ store : VectorStore F,
      load files vectorsPath handlesPath (some hashesPath) layout = .ok store) ∧
    ∀ (layout : Option String) (store : VectorStore F),
      load files vectorsPath handlesPath (some hashesPath) layout = .ok store →
        (∀ handle ∈ handles, store.HasHash handle
          (if lastWith handles handle.toText = some handle then hashFor fields handle else none)) ∧
        ((∀ handle ∈ handles, store.HasHash handle (hashFor fields handle)) ↔
          ∀ a ∈ handles, ∀ b ∈ handles, a.toText = b.toText → (hashFor fields a).isSome →
            a = b) := by
  refine ⟨fun layout offered => ?_, fun layout store loaded => ?_⟩
  · obtain ⟨columns, rows, same⟩ := load_eq_withLayout (F := F) sources layout
    simp only [List.mem_cons, List.not_mem_nil, or_false] at offered
    rcases offered with rfl | rfl | rfl <;> exact ⟨_, same⟩
  have answers : ∀ handle ∈ handles, store.HasHash handle
      (if lastWith handles handle.toText = some handle then hashFor fields handle else none) :=
    fun handle => hasHash_of_load sources distinct loaded
  refine ⟨answers, fun whole a member b member' same named => ?_, fun apart handle member => ?_⟩
  · -- Whoever has a hash is the last one with its text, so the two are the same.
    have last : ∀ handle ∈ handles, (hashFor fields handle).isSome →
        lastWith handles handle.toText = some handle := by
      intro handle member named
      by_contra other
      have agree := (answers handle member).eq (whole handle member)
      rw [if_neg other] at agree
      rw [← agree] at named
      cases named
    have named' : (hashFor fields b).isSome := by
      rwa [hashFor, ← same]
    have found := last a member named
    rw [same, last b member' named'] at found
    exact (Option.some.inj found).symm
  · -- A text that the record names belongs to one handle, which is then the last one with it.
    have answer := answers handle member
    by_cases named : (hashFor fields handle).isSome
    · obtain ⟨last, found⟩ := exists_lastWith member
      obtain ⟨member', same⟩ := lastWith_eq_some found
      obtain rfl : handle = last := apart handle member last member' same.symm named
      rwa [if_pos found] at answer
    · have none := Option.not_isSome_iff_eq_none.mp named
      rw [none] at answer ⊢
      rwa [ite_self] at answer

/-- A path of one letter is its only part. The second step of cutting it finds its end. -/
theorem parts_letter : ∀ path ∈ ["v", "i", "l", "h"], Path.parts path = [path] := by
  intro path
  unfold Path.parts String.splitOn String.splitOnAux String.splitOnAux
  revert path
  decide +kernel

theorem contentAt_letter (files : Files) :
    ∀ path ∈ ["v", "i", "l", "h"], files.contentAt path = .ok (files path) := by
  intro path letter
  have simple : ∀ path ∈ ["v", "i", "l", "h"], Path.root path = "" ∧ path ≠ "" ∧
      (Path.byteCount? path).any (· ≤ Path.partLimit) := by
    decide +kernel
  obtain ⟨relative, named, short⟩ := simple path letter
  exact files.contentAt_of_part (parts_letter path letter) relative named short

/-- Files with a matrix of two rows, a document of handles, and a hash under the digit one. -/
def twoFiles (document : String) : Files := fun path =>
  if path = "v" then some (.array (.ok ⟨[2, 1], [1, .finite 2]⟩))
  else if path = "i" then some (.text document)
  else if path = "h" then some (.text "\x7b\"1\": \"first\"\x7d")
  else none

/-- The fields of the record with that hash. -/
def oneHash : List (String × Datum) := [("1", .scalar (.text "first"))]

theorem sources_twoFiles {handles : List Scalar} {document : String} (count : handles.length = 2)
    (read : Content.toDatum "i" (.text document) = .ok (.list (handles.map .scalar))) :
    Sources (twoFiles document) "v" "i" "h" handles oneHash := by
  have vectors := contentAt_letter (twoFiles document) "v" (by decide)
  have named := contentAt_letter (twoFiles document) "i" (by decide)
  have hashed := contentAt_letter (twoFiles document) "h" (by decide)
  refine ⟨⟨_, 1, [[1], [.finite 2]], vectors, rfl, count.symm⟩, ⟨_, _, named, read, rfl⟩,
    ⟨_, hashed, ?_⟩⟩
  decide +kernel

/-- The number one has the hash that the file gives to its text, and an item with another text has
none. -/
theorem load_hashes_numberAndText :
    ∃ store : VectorStore .binary64,
      load (twoFiles "[1, \"b\"]") "v" "i" (some "h") none = .ok store ∧
        store.HasHash (.int 1) (some ⟨.scalar (.text "first")⟩) ∧
          store.HasHash (.text "b") none := by
  have read : Content.toDatum "i" (.text "[1, \"b\"]") =
      .ok (.list ([.int 1, .text "b"].map .scalar)) := by
    decide +kernel
  obtain ⟨loads, answers⟩ := load_hashes (F := .binary64) (sources_twoFiles rfl read) (by decide)
  obtain ⟨store, loaded⟩ := loads none List.mem_cons_self
  obtain ⟨-, whole⟩ := answers none store loaded
  have reached := whole.mpr (by decide)
  exact ⟨store, loaded, reached (.int 1) (by simp), reached (.text "b") (by simp)⟩

/-- The number one loses its hash to the text that is its digit. So not every hash reaches its
item. -/
theorem hash_can_be_lost :
    ¬ ∀ (files : Files) (vectorsPath handlesPath hashesPath : String) (handles : List Scalar)
        (fields : List (String × Datum)) (store : VectorStore .binary64),
      Sources files vectorsPath handlesPath hashesPath handles fields →
      (∀ a ∈ handles, ∀ b ∈ handles, a == b → a = b) →
      load files vectorsPath handlesPath (some hashesPath) none = .ok store →
      ∀ handle ∈ handles, store.HasHash handle (hashFor fields handle) := by
  intro always
  have read : Content.toDatum "i" (.text "[1, \"1\"]") =
      .ok (.list ([.int 1, .text "1"].map .scalar)) := by
    decide +kernel
  have sources := sources_twoFiles rfl read
  obtain ⟨columns, rows, loaded⟩ := load_eq_withLayout (F := .binary64) sources none
  have distinct : ∀ a ∈ [Scalar.int 1, .text "1"], ∀ b ∈ [Scalar.int 1, .text "1"],
      a == b → a = b := by
    decide
  have has := hasHash_of_load sources distinct loaded (List.mem_cons_self)
  have lost := has.eq (always _ _ _ _ _ _ _ sources distinct loaded _ List.mem_cons_self)
  cases lost

end Load

end VectorStore

end Lookalike
