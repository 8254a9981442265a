import Lookalike.Proofs.VectorStore.Loading

/-!
# Handles given as a record

The handles of a store may be given as a record whose field names are row numbers. The names are
read as integers, so blanks around them, a sign, leading zeros and underscores make no difference,
and the fields may stand in any order. They are sorted by the numbers and not by the names. If the
names are read as the numbers of all rows, each handle comes to stand at the row that its name is
read as, although nothing but the order of the numbers has been used. The store is then the one that
is loaded from a list of the handles, and every handle leads to the vector of its own row.

## Main definitions

* `VectorStore.rowNumber?`, the number that a field name is read as
* `VectorStore.NumbersRows`, that the field names are read as the numbers of all rows
* `VectorStore.IsAligned`, that handles stand at the rows of their fields
* `VectorStore.RecordSources`, a matrix and a record of handles in some files
* `VectorStore.Holds`, what a store tells of a row

## Main statements

* `VectorStore.handlesOf_record`, `VectorStore.isAligned_inOrder`
* `VectorStore.load_record`
-/

namespace Lookalike.VectorStore

variable {F : Format}

section Fields

variable {fields : List (String × Scalar)} {field : String × Scalar} {handles : List Scalar}
  {row : ℕ}

/-- The number that the name of a field is read as. -/
def rowNumber? (field : String × Scalar) : Option ℤ := Text.integer? field.1.toList

/-- That the names of some fields are read as the numbers of as many rows. -/
def NumbersRows (fields : List (String × Scalar)) : Prop :=
  (fields.map rowNumber?).Perm ((List.range fields.length).map fun row : ℕ => some (row : ℤ))

instance (fields : List (String × Scalar)) : Decidable (NumbersRows fields) :=
  inferInstanceAs (Decidable (List.Perm _ _))

/-- That handles stand at the rows which the names of their fields are read as. -/
structure IsAligned (fields : List (String × Scalar)) (handles : List Scalar) : Prop where
  length_eq : handles.length = fields.length
  placed : ∀ field ∈ fields, ∀ row : ℕ, rowNumber? field = some (row : ℤ) →
    handles[row]? = some field.2

/-- The record of some fields. -/
def recordOf (fields : List (String × Scalar)) : Datum :=
  .record (fields.map fun field => (field.1, .scalar field.2))

/-- The values of some fields with their numbers, the least number first. -/
def byNumber (fields : List (String × Scalar)) : List (ℤ × Scalar) :=
  (fields.map fun field => ((rowNumber? field).getD 0, field.2)).mergeSort fun a b =>
    decide (a.1 ≤ b.1)

/-- The values of some fields in the order of their numbers. -/
def inOrder (fields : List (String × Scalar)) : List Scalar := (byNumber fields).map (·.2)

theorem byNumber_perm (fields : List (String × Scalar)) :
    (byNumber fields).Perm (fields.map fun field => ((rowNumber? field).getD 0, field.2)) :=
  List.mergeSort_perm _ _

theorem inOrder_perm (fields : List (String × Scalar)) :
    (inOrder fields).Perm (fields.map (·.2)) := by
  have values := (byNumber_perm fields).map (·.2)
  rwa [List.map_map] at values

theorem length_inOrder (fields : List (String × Scalar)) :
    (inOrder fields).length = fields.length := by
  rw [(inOrder_perm fields).length_eq, List.length_map]

/-- The numbers of all rows, sorted, are what they count. -/
theorem map_fst_byNumber (numbered : NumbersRows fields) :
    (byNumber fields).map (·.1) = (List.range fields.length).map fun row : ℕ => (row : ℤ) := by
  have perm : ((byNumber fields).map (·.1)).Perm
      ((List.range fields.length).map fun row : ℕ => (row : ℤ)) := by
    have numbers := numbered.map (·.getD 0)
    have read := (byNumber_perm fields).map (·.1)
    rw [List.map_map] at numbers read
    rw [List.map_map] at numbers
    exact read.trans numbers
  have sorted : ((byNumber fields).map (·.1)).Pairwise (· ≤ ·) := by
    rw [List.pairwise_map]
    exact Ranking.pairwise_mergeSort_key (fun entry : ℤ × Scalar => entry.1) _
  have counted : ((List.range fields.length).map fun row : ℕ => (row : ℤ)).Pairwise (· ≤ ·) :=
    List.pairwise_map.mpr (List.pairwise_lt_range.imp fun below => Int.ofNat_le.mpr below.le)
  -- The same numbers sorted in two ways are one list.
  exact perm.eq_of_pairwise (fun a b _ _ => le_antisymm) sorted counted

/-- Sorting by numbers brings every value to the row that its name is read as. -/
theorem isAligned_inOrder (numbered : NumbersRows fields) : IsAligned fields (inOrder fields) := by
  refine ⟨length_inOrder fields, fun field member row read => ?_⟩
  have listed : ((row : ℤ), field.2) ∈ byNumber fields := by
    refine (byNumber_perm fields).mem_iff.mpr (List.mem_map.mpr ⟨field, member, ?_⟩)
    rw [read, Option.getD_some]
  obtain ⟨place, found⟩ := List.getElem?_of_mem listed
  -- The number stands where it counts to, so the place is the row.
  have number : ((byNumber fields).map (·.1))[place]? = some (row : ℤ) := by
    rw [List.getElem?_map, found, Option.map_some]
  rw [map_fst_byNumber numbered, List.getElem?_map, Option.map_eq_some_iff] at number
  obtain ⟨place', counted, same⟩ := number
  obtain rfl : place = place' := by
    rw [(List.getElem?_eq_some_iff.mp counted).2.symm, List.getElem_range]
  obtain rfl : place = row := Int.ofNat_inj.mp same
  rw [inOrder, List.getElem?_map, found, Option.map_some]

/-- Every row has a field. -/
theorem exists_field (numbered : NumbersRows fields) (within : row < fields.length) :
    ∃ field ∈ fields, rowNumber? field = some (row : ℤ) :=
  List.mem_map.mp (numbered.mem_iff.mpr (List.mem_map.mpr ⟨row, List.mem_range.mpr within, rfl⟩))

/-- There is one list of handles that stand at the rows of their fields. -/
theorem IsAligned.eq (numbered : NumbersRows fields) (aligned : IsAligned fields handles) :
    handles = inOrder fields := by
  have aligned' := isAligned_inOrder numbered
  apply List.ext_getElem?
  intro row
  by_cases within : row < fields.length
  · obtain ⟨field, member, read⟩ := exists_field numbered within
    rw [aligned.placed field member row read, aligned'.placed field member row read]
  · rw [List.getElem?_eq_none (by rw [aligned.length_eq]; omega),
      List.getElem?_eq_none (by rw [aligned'.length_eq]; omega)]

/-- Every field has a row. -/
theorem exists_rowNumber (numbered : NumbersRows fields) (member : field ∈ fields) :
    ∃ row < fields.length, rowNumber? field = some (row : ℤ) := by
  obtain ⟨row, within, same⟩ :=
    List.mem_map.mp (numbered.mem_iff.mp (List.mem_map_of_mem (f := rowNumber?) member))
  exact ⟨row, List.mem_range.mp within, same.symm⟩

/-- The handles of a record are the values in the order of the numbers. -/
theorem handlesOf_record (numbered : NumbersRows fields) :
    handlesOf (recordOf fields) = .ok ((inOrder fields).map .scalar) := by
  let read (field : String × Scalar) : ℤ × Scalar := ((rowNumber? field).getD 0, field.2)
  let told (entry : ℤ × Scalar) : ℤ × Datum := (entry.1, .scalar entry.2)
  have numbers : (fields.map fun field => (field.1, Datum.scalar field.2)).mapM
      VectorStore.numbered = .ok ((fields.map read).map told) := by
    rw [List.mapM_map, List.map_map]
    refine mapM_eq_ok fun field member => ?_
    obtain ⟨row, -, known⟩ := exists_rowNumber numbered member
    have known' : Text.integer? field.1.toList = some (row : ℤ) := known
    simp only [VectorStore.numbered, known', read, told, Function.comp_apply, known]
    rfl
  -- The sort looks at the numbers alone, so it may be done before the values are told as data.
  have sorted : ((fields.map read).map told).mergeSort (fun a b => decide (a.1 ≤ b.1)) =
      (byNumber fields).map told :=
    (List.map_mergeSort (f := told) fun _ _ _ _ => rfl).symm
  rw [recordOf, handlesOf, numbers]
  change Except.ok _ = Except.ok _
  rw [sorted, inOrder, List.map_map, List.map_map]
  rfl

/-- Values that are pairwise different are so in any order. -/
theorem pairwise_inOrder
    (distinct : (fields.map (·.2)).Pairwise fun a b => (a == b) = false) :
    (inOrder fields).Pairwise fun a b => (a == b) = false := by
  refine ((inOrder_perm fields).pairwise_iff ?_).mpr distinct
  intro a b different
  rwa [BEq.comm]

end Fields

section Load

variable {files : Files} {vectorsPath recordPath : String} {fields : List (String × Scalar)}
  {rows : List (List (Number .exact))} {store : VectorStore F} {row : ℕ} {handle : Scalar}
  {vector : FeatureVector F}

/-- What is found at the paths of a store whose handles are given as a record: a matrix, and a
record with a field for each of its rows. -/
structure RecordSources (files : Files) (vectorsPath recordPath : String)
    (fields : List (String × Scalar)) (rows : List (List (Number .exact))) : Prop where
  matrix : ∃ array columns, files.contentAt vectorsPath = .ok (some (.array (.ok array))) ∧
    array.rows? = some (columns, rows)
  count : rows.length = fields.length
  named : ∃ content, files.contentAt recordPath = .ok (some content) ∧
    content.toDatum recordPath = .ok (recordOf fields)

/-- That hashes can be read: none are asked for, or nothing is found at their path, or a record
is. -/
def HashesReadable (files : Files) : Option String → Prop
  | none => True
  | some path => ∃ found, files.contentAt path = .ok found ∧
    ∀ content ∈ found, ∃ fields, content.toDatum path = .ok (.record fields)

/-- What a store tells of a row: its handle, that it is the row of the handle, and its vector. -/
structure Holds (store : VectorStore F) (row : ℕ) (handle : Scalar) (vector : FeatureVector F) :
    Prop where
  stands : store.handles[row]? = some handle
  key : ∀ calls, store.index.key calls (.scalar handle) = .ok (some (rowKey row))
  vectors : ∀ calls, store.index.vectors calls [rowKey row] =
    .ok [(rowKey row, some (.vector vector))]

/-- Where no two handles are equal, a store tells of a row what stands there. -/
theorem holds_of_getElem? (distinct : store.handles.Pairwise fun a b => (a == b) = false)
    (known : store.handles[row]? = some handle) (stored : store.rows[row]? = some vector) :
    store.Holds row handle vector where
  stands := known
  key calls := by
    have named : rowOf? store.handles handle = some row :=
      (rowOf?_eq_some_iff distinct known).mpr BEq.rfl
    rw [key_scalar]
    simp only [keyOf, Datum.scalar?, Option.bind_some, named]
    rfl
  vectors calls := by
    have read : store.vectorsOf [rowKey row] = .ok [((row : ℤ), vector)] := by
      rw [vectorsOf_cons rfl, stored]
    simp only [index, read]
    rfl

/-- Hashes that can be read are found for handles that can be looked up. -/
theorem exists_hashesAt_eq_ok {hashesPath : Option String}
    (readable : HashesReadable files hashesPath) (handles : List Scalar) :
    ∃ hashes, hashesAt files (handles.map .scalar) hashesPath = .ok hashes := by
  cases hashesPath with
  | none => exact ⟨[], rfl⟩
  | some path =>
    obtain ⟨found, answered, records⟩ := readable
    cases found with
    | none =>
      refine ⟨[], ?_⟩
      simp only [hashesAt, answered]
      rfl
    | some content =>
      obtain ⟨fields, read⟩ := records content rfl
      exact ⟨_, hashesAt_of_record answered read⟩

/-- A store whose handles are given as a record is the one whose handles are given as a list, each
at the row that the name of its field is read as. It is loaded, in the exhaustive and the flat
layout at least, where hashes can be read, and then every handle is that of its row and leads to the
vector of the row, whatever the layout. Handles are different if none would be found in the place of
another. JSON has no literal for a value that is no number. Where a document has the word for it
that readers accept beyond the standard, every such word stands for one value, so that a handle
which is no number is equal to itself. -/
theorem load_record (sources : RecordSources files vectorsPath recordPath fields rows)
    (numbered : NumbersRows fields)
    (distinct : (fields.map (·.2)).Pairwise fun a b => (a == b) = false) :
    (∀ (handles : List Scalar) (listPath : String) (content : Content),
      IsAligned fields handles → files.contentAt listPath = .ok (some content) →
      content.toDatum listPath = .ok (.list (handles.map .scalar)) →
      ∀ hashesPath layout,
        load (F := F) files vectorsPath recordPath hashesPath layout =
          load files vectorsPath listPath hashesPath layout) ∧
    (∀ hashesPath, HashesReadable files hashesPath → ∀ layout ∈ [none, some "", some "Flat"],
      ∃ store : VectorStore F,
        load files vectorsPath recordPath hashesPath layout = .ok store) ∧
    ∀ (hashesPath layout : Option String) (store : VectorStore F),
      load files vectorsPath recordPath hashesPath layout = .ok store →
        store.size = fields.length ∧ IsAligned fields store.handles ∧
        ∀ field ∈ fields, ∀ row : ℕ, rowNumber? field = some (row : ℤ) → ∃ vector ∈ rows[row]?,
          store.Holds row field.2 (vector.map (·.convert F.storage)) := by
  obtain ⟨array, columns, vectors, matrix⟩ := sources.matrix
  obtain ⟨content, named, read⟩ := sources.named
  have count : rows.length = (inOrder fields).length := by
    rw [sources.count, length_inOrder]
  have loads := load_eq (F := F) vectors matrix count named read (handlesOf_record numbered)
  refine ⟨fun handles listPath content' aligned named' read' hashesPath layout => ?_,
    fun hashesPath readable layout offered => ?_, fun hashesPath layout store loaded => ?_⟩
  · obtain rfl := aligned.eq numbered
    rw [loads, load_eq vectors matrix count named' read' rfl]
  · obtain ⟨hashes, told⟩ := exists_hashesAt_eq_ok readable (inOrder fields)
    rw [loads, told]
    simp only [List.mem_cons, List.not_mem_nil, or_false] at offered
    rcases offered with rfl | rfl | rfl <;> exact ⟨_, rfl⟩
  · -- The layout changes neither the handles nor the rows.
    rw [loads] at loaded
    obtain ⟨hashes, -, brought⟩ := exists_of_bind_eq_ok loaded
    obtain ⟨searched, rfl⟩ := withLayout_eq_ok brought
    have aligned := isAligned_inOrder numbered
    refine ⟨?_, aligned, fun field member row known => ?_⟩
    · simp [size, sources.count]
    · have within : row < rows.length := by
        rw [count]
        exact (List.getElem?_eq_some_iff.mp (aligned.placed field member row known)).1
      exact ⟨rows[row], List.getElem?_eq_getElem within,
        holds_of_getElem? (pairwise_inOrder distinct) (aligned.placed field member row known)
          (by simp [within])⟩

/-- The fields of a record whose names are the numbers of three rows, written in other ways. -/
def threeFields : List (String × Scalar) := [(" 1", .text "b"), ("+0", .int 7), ("0_2", .null)]

/-- Files with a matrix of three rows, these fields, a list of the handles, and hashes. -/
def threeRowFiles : Files := fun path =>
  if path = "v" then some (.array (.ok ⟨[3, 1], [1, .finite 2, .finite 3]⟩))
  else if path = "i" then some (.text "\x7b\" 1\": \"b\", \"+0\": 7, \"0_2\": null\x7d")
  else if path = "l" then some (.text "[7, \"b\", null]")
  else if path = "h" then some (.text "\x7b\"b\": \"second\"\x7d")
  else none

/-- The first field leads to the second row. -/
theorem load_record_threeFields :
    ∃ store : VectorStore .binary64,
      load threeRowFiles "v" "i" (some "h") none = .ok store ∧
        load threeRowFiles "v" "l" (some "h") none = .ok store ∧
          store.Holds 1 (.text "b") [.finite 2] := by
  have vectors := contentAt_letter threeRowFiles "v" (by decide)
  have named := contentAt_letter threeRowFiles "i" (by decide)
  have listed := contentAt_letter threeRowFiles "l" (by decide)
  have hashed := contentAt_letter threeRowFiles "h" (by decide)
  have sources : RecordSources threeRowFiles "v" "i" threeFields [[1], [.finite 2], [.finite 3]] :=
    ⟨⟨_, 1, vectors, rfl⟩, rfl, ⟨_, named, by decide +kernel⟩⟩
  have readable : HashesReadable threeRowFiles (some "h") := by
    refine ⟨_, hashed, ?_⟩
    rintro content ⟨⟩
    exact ⟨[("b", .scalar (.text "second"))], by decide +kernel⟩
  have numbers : threeFields.map rowNumber? = [some 1, some 0, some 2] := by decide +kernel
  have numbered : NumbersRows threeFields := by
    rw [NumbersRows, numbers]
    decide
  have placed : ∀ field ∈ threeFields,
      (rowNumber? field).map (fun row => [.int 7, .text "b", .null][row.toNat]?) =
        some (some field.2) := by
    decide +kernel
  have aligned : IsAligned threeFields [.int 7, .text "b", .null] := by
    refine ⟨rfl, fun field member row read => ?_⟩
    have place := placed field member
    rw [read] at place
    exact Option.some.inj place
  obtain ⟨alike, loads, answers⟩ := load_record (F := .binary64) sources numbered (by decide)
  obtain ⟨store, loaded⟩ := loads (some "h") readable none List.mem_cons_self
  have same := alike _ "l" _ aligned listed (by decide +kernel) (some "h") none
  obtain ⟨-, -, rows⟩ := answers (some "h") none store loaded
  obtain ⟨vector, found, holds⟩ := rows (" 1", .text "b") List.mem_cons_self 1 (by decide +kernel)
  refine ⟨store, loaded, same.symm.trans loaded, ?_⟩
  cases found
  have stored : [(.finite 2 : Number .exact)].map (·.convert Format.binary64.storage) =
      [.finite 2] := by
    decide +kernel
  rwa [stored] at holds

end Load

end Lookalike.VectorStore
