import Lookalike.Proofs.Scorer.Named
import Lookalike.Proofs.Scorer.Questions

/-!
# Features in one batch

The features of some positions are asked for in one question. Its keys stand in the order of the
positions, and the answer is given by keys, of which several positions may share one and some may
be missing. Where an index answers for each key on its own, every position gets the vector of its
own key, and it is left out only if it has no key or its key has no vector. In which order the
positions were given makes no difference. So a regrouping that compares how many vectors it needs
with how many it has got goes on exactly where no position is left out.

## Main definitions

* `CaseIndex.AnswersEach`, that an index answers for each item and each key on its own
* `Scorer.keyAt`, `Scorer.vectorAt`, the key and the vector of the item at a position
* `Scorer.IsBatch`, what is fetched for some positions, and what is asked for it

## Main statements

* `Scorer.fetchFeatures_of_perm`, `Scorer.exists_isBatch`
* `Scorer.fetches_own_vectors`
-/

namespace Lookalike

variable {Item Key Hash : Type} [BEq Key] {F : Format} {index : CaseIndex Item Key Hash F}

/-- An index that has one key for each of some items, if any, and tells the features of each key of
theirs whichever others it is asked for. They can be cast to a vector. -/
structure CaseIndex.AnswersEach (index : CaseIndex Item Key Hash F) (items : List Item)
    (keyOf : Item → Option Key) (stored : Key → Option (Features F)) : Prop where
  key : ∀ item ∈ items, ∀ calls, index.key calls item = .ok (keyOf item)
  vectors : ∀ calls keys, (∀ key ∈ keys, ∃ item ∈ items, keyOf item = some key) →
    ∃ entries, index.vectors calls keys = .ok entries ∧
      ∀ key ∈ keys, (entries.lookup key).join = stored key
  castable : ∀ item ∈ items, ∀ key ∈ keyOf item, ∀ features ∈ stored key,
    ∃ vector, features.toVector = .ok vector

namespace Scorer

section Sorted

variable {positions positions' : List Position}

/-- Positions in any order are sorted into one. -/
theorem mergeSort_of_perm (same : positions'.Perm positions) :
    (positions'.mergeSort fun a b => decide (a ≤ b)) =
      positions.mergeSort fun a b => decide (a ≤ b) := by
  have sorted := Ranking.pairwise_mergeSort_key (id : Position → Position)
  refine List.Perm.eq_of_pairwise (fun _ _ _ _ => le_antisymm) (sorted positions')
    (sorted positions) ?_
  exact (List.mergeSort_perm _ _).trans (same.trans (List.mergeSort_perm _ _).symm)

/-- Distinct positions are sorted into an ascending list. -/
theorem pairwise_lt_mergeSort (distinct : positions.Nodup) :
    (positions.mergeSort fun a b => decide (a ≤ b)).Pairwise (· < ·) := by
  have sorted := Ranking.pairwise_mergeSort_key (id : Position → Position) positions
  have distinct' := (List.mergeSort_perm positions fun a b => decide (a ≤ b)).nodup_iff.mpr distinct
  exact (sorted.and distinct').imp fun both => lt_of_le_of_ne both.1 both.2

/-- Features are fetched alike for positions in any order. -/
theorem fetchFeatures_of_perm (index : CaseIndex Item Key Hash F)
    (same : positions'.Perm positions) :
    fetchFeatures index positions' = fetchFeatures index positions := by
  rw [fetchFeatures, fetchFeatures, mergeSort_of_perm same]

end Sorted

section Batch

variable {keyOf : Item → Option Key} {stored : Key → Option (Features F)}
  {pass : Pass Item Key F} {positions : List Position} {results : ResultSet Item F}

/-- The key of the item at a position. -/
def keyAt (results : ResultSet Item F) (keyOf : Item → Option Key) (position : Position) :
    Option Key :=
  (results.itemAt position).toOption.bind keyOf

/-- The vector that is stored under the key of the item at a position. -/
def vectorAt (results : ResultSet Item F) (keyOf : Item → Option Key)
    (stored : Key → Option (Features F)) (position : Position) : Option (FeatureVector F) :=
  (keyAt results keyOf position).bind fun key =>
    (stored key).bind fun features => features.toVector.toOption

omit [BEq Key] in
/-- A key at a position is that of an item. -/
theorem exists_item_of_keyAt {position : Position} {key : Key}
    (known : keyAt results keyOf position = some key) :
    ∃ item ∈ results.items, keyOf item = some key := by
  obtain ⟨item, found, named⟩ := Option.bind_eq_some_iff.mp known
  cases told : results.itemAt position with
  | ok item' =>
    rw [told] at found
    cases found
    exact ⟨item, ResultSet.mem_items_of_itemAt told, named⟩
  | error fault =>
    rw [told] at found
    cases found

/-- An answer that tells the features of each key on its own is read position by position. -/
theorem vectorsOf_keyed (answers : index.AnswersEach results.items keyOf stored)
    {entries : List (Key × Option (Features F))}
    (told : ∀ key ∈ (keyed (keyAt results keyOf) positions).map (·.2),
      (entries.lookup key).join = stored key) :
    vectorsOf entries (keyed (keyAt results keyOf) positions) =
      .ok (keyed (vectorAt results keyOf stored) positions) := by
  have told' : ∀ entry ∈ keyed (keyAt results keyOf) positions,
      (entries.lookup entry.2).join = stored entry.2 :=
    fun entry member => told _ (List.mem_map_of_mem member)
  have castable : ∀ entry ∈ keyed (keyAt results keyOf) positions,
      ∀ features ∈ (entries.lookup entry.2).join, ∃ vector, features.toVector = .ok vector := by
    intro entry member features known
    obtain ⟨item, listed, named⟩ := exists_item_of_keyAt (mem_keyed_iff.mp member).2
    rw [told' entry member] at known
    exact answers.castable item listed entry.2 named features known
  rw [vectorsOf_eq_ok castable]
  refine congrArg Except.ok ?_
  have each : ∀ entry ∈ keyed (keyAt results keyOf) positions,
      (vectorOf entries entry.2).map (entry.1, ·) =
        ((stored entry.2).bind fun features => features.toVector.toOption).map (entry.1, ·) := by
    intro entry member
    rw [vectorOf, told' entry member]
  -- Both lists go through the positions once, one of them by way of the keys.
  rw [List.filterMap_congr each, keyed, keyed, List.filterMap_filterMap]
  refine List.filterMap_congr fun position _ => ?_
  rw [vectorAt]
  cases keyAt results keyOf position <;> rfl

/-- What is fetched for some positions and what is asked for it: the keys of items, and then the
vectors of the keys that have been found, in ascending order of the positions. Each position has its
own vector, and some are left out only if they have none. -/
structure IsBatch (pass : Pass Item Key F) (positions : List Position)
    (keyAt : Position → Option Key) (vectorAt : Position → Option (FeatureVector F))
    (vectors : List (Position × FeatureVector F)) (fetched : Pass Item Key F) : Prop where
  inOrder : ∃ ascending : List Position, ascending.Perm positions ∧ ascending.Pairwise (· < ·) ∧
    (∃ put : List (IndexCall Item Key), (∀ call ∈ put, call.isForKey) ∧
      fetched = { pass with
        calls := .vectors (ascending.filterMap keyAt) :: (put ++ pass.calls) }) ∧
    vectors = ascending.filterMap fun position => (vectorAt position).map (position, ·)
  own : ∀ position ∈ positions, vectors.lookup position = vectorAt position
  incomplete : vectors.length < positions.length ↔
    ∃ position ∈ positions, vectorAt position = none

/-- Where keys and vectors are told each on its own, a fetch succeeds. -/
theorem exists_isBatch (answers : index.AnswersEach pass.results.items keyOf stored)
    (distinct : positions.Nodup)
    (valid : ∀ position ∈ positions, ∃ item, pass.results.itemAt position = .ok item) :
    ∃ vectors fetched, (fetchFeatures index positions).result pass = (.ok vectors, fetched) ∧
      IsBatch pass positions (keyAt pass.results keyOf) (vectorAt pass.results keyOf stored) vectors
        fetched := by
  let ascending := positions.mergeSort fun a b => decide (a ≤ b)
  have perm : ascending.Perm positions := List.mergeSort_perm _ _
  have told : ∀ position ∈ positions, ∃ item, pass.results.itemAt position = .ok item ∧
      ∀ calls, index.key calls item = .ok (keyAt pass.results keyOf position) := by
    intro position member
    obtain ⟨item, found⟩ := valid position member
    refine ⟨item, found, fun calls => ?_⟩
    rw [answers.key item (ResultSet.mem_items_of_itemAt found) calls, keyAt, found]
    rfl
  -- All that is asked in front of the vectors is asked for keys.
  obtain ⟨asked, keys_run, run⟩ := result_fetchFeatures distinct told
  obtain ⟨put, asked_eq, forKeys⟩ := putsOnly_keysFrom index ascending [] pass
  rw [keys_run] at asked_eq
  let keys := keyed (keyAt pass.results keyOf) ascending
  let vectors := keyed (vectorAt pass.results keyOf stored) ascending
  have named : ∀ key ∈ keys.map (·.2), ∃ item ∈ pass.results.items, keyOf item = some key :=
    List.forall_mem_map.mpr fun entry member => exists_item_of_keyAt (mem_keyed_iff.mp member).2
  obtain ⟨entries, answered, found⟩ := answers.vectors asked (keys.map (·.2)) named
  have read : vectorsOf entries keys = .ok vectors := vectorsOf_keyed answers found
  refine ⟨vectors, { pass with calls := .vectors (keys.map (·.2)) :: asked }, ?_, ?_⟩
  · rw [run, answered]
    exact congrArg (·, _) read
  constructor
  case inOrder =>
    refine ⟨ascending, perm, pairwise_lt_mergeSort distinct, ⟨put, forKeys, ?_⟩, rfl⟩
    rw [← map_snd_keyed, ← asked_eq]
  case own =>
    exact fun position member =>
      lookup_keyed (perm.nodup_iff.mpr distinct) (perm.mem_iff.mpr member)
  case incomplete =>
    rw [← perm.length_eq, length_keyed_lt_iff]
    simp only [perm.mem_iff]

/-- The features of distinct positions are fetched in one batch. Where the index answers for each
item and each key on its own, every position gets the vector of its own key, in whichever order the
positions were given, and a regrouping goes on exactly where none of the positions that it needs is
left out. -/
theorem fetches_own_vectors (answers : index.AnswersEach pass.results.items keyOf stored)
    (distinct : positions.Nodup)
    (valid : ∀ position ∈ positions, ∃ item, pass.results.itemAt position = .ok item) :
    ∃ vectors fetched,
      IsBatch pass positions (keyAt pass.results keyOf) (vectorAt pass.results keyOf stored) vectors
        fetched ∧
      (∀ positions', positions'.Perm positions →
        (fetchFeatures index positions').result pass = (.ok vectors, fetched)) ∧
      ∀ (scorer : Scorer Hash F) (reference : FeatureVector F) (top : TopList),
        2 < top.tailSize → (neededFor top).Perm positions →
          (organize scorer index reference top).result pass =
            if ∃ position ∈ positions, vectorAt pass.results keyOf stored position = none
            then (.ok (), fetched)
            else (regroup scorer reference top vectors).result fetched := by
  obtain ⟨vectors, fetched, run, batch⟩ := exists_isBatch answers distinct valid
  have alike : ∀ positions', positions'.Perm positions →
      (fetchFeatures index positions').result pass = (.ok vectors, fetched) := by
    intro positions' same
    rw [fetchFeatures_of_perm index same, run]
  refine ⟨vectors, fetched, batch, alike, fun scorer reference top long needed => ?_⟩
  have count := needed.length_eq
  split_ifs with missing
  · refine organize_of_incomplete scorer reference long (alike _ needed) ?_
    rw [count]
    exact batch.incomplete.mpr missing
  · refine organize_of_complete scorer reference long (alike _ needed) ?_
    rw [count]
    exact not_lt.mp (mt batch.incomplete.mp missing)

/-- The features of three keys, of which one has none. -/
def threeKeys : List (String × Option (Features .binary64)) :=
  [("a", some (.bytes [1, 255])), ("b", some (.vector [.finite 2])), ("c", none)]

/-- The keys of five items, of which two share one and one has none. -/
def sharedKey (item : ℕ) : Option String :=
  [some "a", some "b", none, some "a", some "c"].getD item none

/-- An index of these items. -/
def sharingIndex : CaseIndex ℕ String String .binary64 where
  nearest _ _ _ := .ok []
  vectors _ _ := .ok threeKeys
  key _ item := .ok (sharedKey item)
  hash _ _ := .ok none

/-- A result set of the five items. -/
def fiveItems : Pass ℕ String .binary64 where
  results := .ofItems [0, 1, 2, 3, 4] 0

theorem answersEach_sharingIndex :
    sharingIndex.AnswersEach fiveItems.results.items sharedKey
      fun key => (threeKeys.lookup key).join where
  key _ _ _ := rfl
  vectors _ _ _ := ⟨threeKeys, rfl, fun _ _ => rfl⟩
  castable item _ key _ features known := by
    obtain ⟨entry, member, -, same⟩ := exists_of_lookup_eq_some (Option.join_eq_some_iff.mp known)
    simp only [threeKeys, List.mem_cons, List.not_mem_nil, or_false] at member
    rcases member with rfl | rfl | rfl <;> cases same <;> exact ⟨_, rfl⟩

/-- The two items with one key get its vector both, and the regrouping is left, since two others get
none. The last item is named from the end and is asked for first. -/
theorem fetches_own_vectors_sharedKey :
    ∃ fetched : Pass ℕ String .binary64,
      (∀ positions, positions.Perm [3, 0, -1, 2, 1] →
        (fetchFeatures sharingIndex positions).result fiveItems =
          (.ok [(0, [1, .finite (-1)]), (1, [.finite 2]), (3, [1, .finite (-1)])], fetched)) ∧
      fetched.calls.head? = some (.vectors ["c", "a", "b", "a"]) ∧
      ∀ (scorer : Scorer String .binary64) reference,
        (organize scorer sharingIndex reference ⟨[3, 0, -1, 2, 1], 1⟩).result fiveItems =
          (.ok (), fetched) := by
  have valid : ∀ position ∈ ([3, 0, -1, 2, 1] : List Position),
      ∃ item, fiveItems.results.itemAt position = .ok item := by
    simp only [List.forall_mem_cons, List.not_mem_nil, false_imp_iff, implies_true, and_true]
    exact ⟨⟨3, rfl⟩, ⟨0, rfl⟩, ⟨4, rfl⟩, ⟨2, rfl⟩, ⟨1, rfl⟩⟩
  obtain ⟨vectors, fetched, batch, alike, regroups⟩ :=
    fetches_own_vectors answersEach_sharingIndex (by decide) valid
  obtain ⟨ascending, perm, sorted, ⟨put, -, calls⟩, vectors_eq⟩ := batch.inOrder
  obtain rfl : ascending = [-1, 0, 1, 2, 3] :=
    perm.trans (by decide) |>.eq_of_pairwise (fun a b _ _ below above => absurd below above.asymm)
      sorted (by decide)
  have read : vectors = [(0, [1, .finite (-1)]), (1, [.finite 2]), (3, [1, .finite (-1)])] := by
    rw [vectors_eq]
    decide +kernel
  have keys : [-1, 0, 1, 2, 3].filterMap (keyAt fiveItems.results sharedKey) =
      ["c", "a", "b", "a"] := by
    decide +kernel
  refine ⟨fetched, fun positions same => read ▸ alike positions same, ?_, ?_⟩
  · rw [calls, keys]
    rfl
  · intro scorer reference
    rw [regroups scorer reference ⟨[3, 0, -1, 2, 1], 1⟩ (by decide) (by decide), if_pos]
    exact ⟨2, by decide, by decide +kernel⟩

end Batch

end Scorer

end Lookalike
