import Lookalike.Proofs.Scorer.Classes
import Lookalike.Proofs.VectorStore

/-!
# An item recognizes itself

A stored item that has a content hash is scored as identical to itself, and so is every item with
equal stored features and the same hash. Such items lie at distance zero. Whatever is ranked in
front of them lies at distance zero as well and has at least the base score, so the scan gets to
them, however much distances weigh. What is spread anew along the tail of the top list leaves them
alone, since they are no part of it.

## Main definitions

* `Settings.weighing`, the standard settings with another weight of distances
* `VectorStore.IsTwin`, an item with the stored features and the content hash of the reference

## Main statements

* `Scorer.result_forItem`
* `Scorer.Returns.scoreAt_of_identical`
* `VectorStore.lookup_acceptedScores_twin`
* `VectorStore.exists_returns_index`
* `VectorStore.score_twins`
-/

namespace Lookalike

section Weighing

variable {F : Format}

/-- The standard settings with another weight of distances. -/
def Settings.weighing (weight : Number F) : Settings F :=
  { Settings.standard F with distanceWeight := weight }

variable {weight relevance : Number .binary64}

theorem Settings.isSound_weighing (positive : 0 < weight) : (weighing weight).IsSound :=
  { isSound_standard with distanceWeight := positive }

/-- What lies at distance zero is accepted, whatever its content hash is. -/
theorem Relevance.minScore_le_scoreOf (positive : 0 < weight) (finite : weight.isFinite) {c : ℚ}
    (count : 0 < c) (zero : toDistance relevance = 0) (isCopy : Bool) :
    (Settings.weighing weight).minScore ≤
      scoreOf (Settings.weighing weight) (.finite c) relevance isCopy := by
  have hundred : (Settings.weighing weight).baseScore = .finite 100 := by
    change (Settings.standard .binary64).baseScore = .finite 100
    decide +kernel
  rw [scoreOf, zero]
  split_ifs
  · change (Settings.standard .binary64).minScore ≤ (Settings.standard .binary64).identicalScore
    decide +kernel
  · rcases Number.eq_posInf_or_finite_of_pos positive with rfl | ⟨w, weighs, rfl⟩
    · cases finite
    · rw [distanceScore_zero weighs count (by norm_num) rfl hundred (by decide +kernel)]
      change (Settings.standard .binary64).minScore ≤ .finite 100
      decide +kernel

/-- What lies at distance zero and is known as a copy has the score of identical items. -/
theorem Relevance.scoreOf_copy (count : Number .binary64) (zero : toDistance relevance = 0) :
    scoreOf (Settings.weighing weight) count relevance true =
      (Settings.weighing weight).identicalScore := by
  have near : isNearZero (Settings.weighing weight) 0 := by
    change decide ((0 : Number .binary64) < (Settings.standard .binary64).identicalEpsilon) = true
    decide +kernel
  rw [scoreOf, zero, near]
  rfl

end Weighing

namespace Scorer

variable {Item Key Hash : Type} {F : Format}

/-- An item whose key, features and hash are told is the reference of a scorer with these. -/
theorem result_forItem [BEq Key] {index : CaseIndex Item Key Hash F} {item : Item} {key : Key}
    {stored : List (Key × Option (Features F))} {hash : Option Hash}
    (named : ∀ calls, index.key calls item = .ok (some key))
    (fetched : ∀ calls, index.vectors calls [key] = .ok stored)
    (hashed : ∀ calls, index.hash calls key = .ok hash) (settings : Settings F)
    (pass : Pass Item Key F) :
    ∃ calls, (forItem index item settings).result pass =
      (ofFeatures (stored.lookup key).join hash settings, { pass with calls }) := by
  have asked : (index.askKey item).result pass =
      (.ok (some key), { pass with calls := .key item :: pass.calls }) := by
    rw [CaseIndex.askKey, CaseIndex.result_ask, named]
  refine ⟨.hash key :: .vectors [key] :: .key item :: pass.calls, ?_⟩
  have answered : (index.askVectors [key]).result { pass with calls := .key item :: pass.calls } =
      (.ok stored, { pass with calls := .vectors [key] :: .key item :: pass.calls }) := by
    rw [CaseIndex.askVectors, CaseIndex.result_ask, fetched]
  rw [forItem, Attempt.result_bind_ok asked]
  dsimp only
  rw [Attempt.result_bind_ok answered, Attempt.result_bind_ok (Attempt.result_outcome _ _),
    CaseIndex.askHash, CaseIndex.result_ask, hashed]
  dsimp only
  rw [Attempt.result_bind_ok (Attempt.result_pure _ _), Attempt.result_ofExcept]

variable [BEq Key] [TableKey Key] [BEq Hash] {scorer : Scorer Hash F}
  {index : CaseIndex Item Key Hash F} {pass primary final : Pass Item Key F}
  {reference : FeatureVector F} {map : ScoreMap Key F} {chosen top : TopList}

/-- Where all scores of the scan reach the least one, matched positions hold numbers. -/
theorem Returns.isNaN_held
    (returned : Returns scorer index pass reference map primary chosen top final)
    (reach : ∀ entry ∈ map.byKey, scorer.settings.minScore ≤ entry.2) {position : Position}
    (matched : position ∈ map.matched) : (primary.results.held position).isNaN = false := by
  obtain ⟨entry, member, held⟩ := returned.exists_entry matched
  rw [held]
  exact (Number.le_iff_place.mp (reach entry member)).2.1

/-- A position that the scoring pass has given the score of identical items keeps it to the end of
the call, whether the tail is regrouped or not. -/
theorem Returns.scoreAt_of_identical
    (returned : Returns scorer index pass reference map primary chosen top final)
    (numbers : ∀ position ∈ map.matched, (primary.results.held position).isNaN = false) {k : ℕ}
    (identical : primary.results.scores[k]? = some scorer.settings.identicalScore) :
    final.results.scoreAt (k : Position) = .ok scorer.settings.identicalScore := by
  have held : primary.results.held k = scorer.settings.identicalScore :=
    ResultSet.held_of_scoreAt (ResultSet.scoreAt_eq_ok_iff.mpr identical)
  have outside : (k : Position) ∉ chosen.tail := by
    rw [returned.chosen_eq.1, TopList.tail_ofScores]
    intro member
    have descending := (TopList.pairwise_ranked numbers).sublist
      (List.take_sublist scorer.settings.maxTop _)
    have below := TopList.lt_of_mem_drop_anchorCount descending member
    rw [held] at below
    exact Number.lt_irrefl below
  rw [ResultSet.scoreAt_eq_ok_iff]
  rcases returned.ended with ⟨-, -, same⟩ | ⟨-, regrouping⟩
  · rw [same, identical]
  · rw [regrouping.outside k outside, identical]

end Scorer

namespace VectorStore

open ScoreMap

/-- The features of an image as they are stored. -/
def stored (F : Format) (vector : List (Number .exact)) : FeatureVector F :=
  vector.map (·.convert F.storage)

/-- An item whose features are stored as the same numbers as those of the reference, and whose
content hash is that of the reference. -/
def IsTwin (F : Format) (images : List (Scalar × List (Number .exact)))
    (hashes : List (Scalar × Datum)) (reference : List (Number .exact)) (hash : ContentHash)
    (item : Scalar) : Prop :=
  ∃ vector hash', images.lookup item = some vector ∧
    (stored F vector).map (·.value) = (stored F reference).map (·.value) ∧
    (latestOf? item hashes).bind Datum.contentHash? = some hash' ∧ hash' == hash

/-- Finite vectors of the same numbers lie at distance zero, also by their relevance. -/
theorem toDistance_storedDistance {a b : FeatureVector .binary64} (left : ∀ x ∈ a, x.isFinite)
    (right : ∀ x ∈ b, x.isFinite) (same : a.map (·.value) = b.map (·.value)) :
    Relevance.toDistance ((Relevance.ofDistance (storedDistance a b)).convert .binary64) = 0 := by
  have zero : storedDistance a b = 0 := Distance.sumOfSquares_sub_eq_zero left right same
  rw [zero]
  decide +kernel

section Twin

variable {store : VectorStore .binary64} {query vector : FeatureVector .binary64}
  {weight : Number .binary64} {hash hash' : ContentHash}
  {hashOf : Datum → Except Fault (Option ContentHash)}
  {neighbors : List (Datum × Number .binary64)} {row : ℕ}

/-- A row with the numbers and the hash of the reference is accepted as identical, whatever the
rows in front of it are. -/
theorem lookup_acceptedScores_twin (positive : 0 < weight) (finite : weight.isFinite)
    (features : query ≠ []) (countable : (Number.ofInt .binary64 query.length).isFinite)
    (rows : ∀ vector ∈ store.rows.toList, ∀ x ∈ vector, x.isFinite)
    (reference : ∀ x ∈ query, x.isFinite) (whole : neighbors.Perm (store.relevances query))
    (found : store.rows[row]? = some vector) (same : vector.map (·.value) = query.map (·.value))
    (told : hashOf (rowKey row) = .ok (some hash')) (copy : hash' == hash) :
    (acceptedScores (Settings.weighing weight) query (some hash) hashOf neighbors).lookup
      (rowKey row) = some (Settings.weighing weight).identicalScore := by
  have proper : Format.binary64.IsProper := (by decide : 1 ≤ 53)
  have proper' : Format.binary64.storage.IsProper := (by decide : 1 ≤ 24)
  have counted : 0 < (query.length : Int) := by exact_mod_cast List.length_pos_of_ne_nil features
  obtain ⟨c, atLeast, count⟩ := Relevance.exists_ofInt_eq counted countable
  let neighbor : Datum × Number .binary64 :=
    (rowKey row, (Relevance.ofDistance (storedDistance vector query)).convert .binary64)
  have zero : Relevance.toDistance neighbor.2 = 0 :=
    toDistance_storedDistance
      (rows vector (Array.mem_toList_iff.mpr (Array.mem_of_getElem? found))) reference same
  have copied : isCopy (some hash) (hashOf (rowKey row)) = true :=
    isCopy_iff.mpr ⟨hash, hash', rfl, told, copy⟩
  let score := neighborScore (Settings.weighing weight) query.length (some hash) hashOf
  have identical : score neighbor = (Settings.weighing weight).identicalScore := by
    change Relevance.scoreOf _ _ _ (isCopy (some hash) (hashOf (rowKey row))) = _
    rw [copied]
    exact Relevance.scoreOf_copy _ zero
  have accepts : ∀ other : Datum × Number .binary64, Relevance.toDistance other.2 = 0 →
      (Settings.weighing weight).minScore ≤ score other := by
    intro other zero
    change _ ≤ Relevance.scoreOf _ (Number.ofInt .binary64 query.length) _ _
    rw [count]
    exact Relevance.minScore_le_scoreOf positive finite (zero_lt_one.trans_le atLeast) zero _
  have member : neighbor ∈ Ranking.rank neighbors :=
    ((Ranking.rank_perm neighbors).trans whole).mem_iff.mpr
      (mem_relevances_iff.mpr ⟨row, vector, found, rfl⟩)
  have distinct : neighbors.Pairwise fun a b => (a.1 == b.1) = false :=
    (whole.pairwise_iff fun different => by rwa [BEq.comm]).mpr (store.distinct_relevances query)
  have numbers : ∀ other ∈ neighbors, other.2.isNaN = false := fun other member =>
    isNaN_relevances proper' rows reference other (whole.mem_iff.mp member)
  rw [acceptedScores, ← identical]
  refine lookup_accepted_of_le (distinct_rank distinct) member BEq.rfl (accepts neighbor zero) ?_
  -- What stands in front is at least as relevant, so it lies at distance zero as well.
  refine (Ranking.pairwise_rank numbers).imp fun {other _} le is => ?_
  subst is
  exact accepts other (Relevance.toDistance_eq_zero_of_le proper zero le)

end Twin

section Score

open Scorer

variable {F : Format} {store : VectorStore F} {query : FeatureVector F} {settings : Settings F}
  {pass : Pass Datum Datum F} {neighbors : List (Datum × Number F)}

/-- The keys that are told for items are rows. -/
theorem exists_eq_rowKey_of_keyOf {item key : Datum} (named : store.keyOf item = some key) :
    ∃ row : ℕ, key = rowKey row := by
  obtain ⟨handle, -, named⟩ := Option.bind_eq_some_iff.mp named
  cases known : rowOf? store.handles handle with
  | none =>
    rw [known] at named
    cases named
  | some row =>
    rw [known] at named
    cases named
    exact ⟨row, rfl⟩

/-- All vectors that a store is asked for have the length of its rows. -/
theorem exists_fetchFeatures_eq_ok {columns : ℕ}
    (lengths : ∀ vector ∈ store.rows.toList, vector.length = columns)
    (scalars : ∀ item ∈ pass.results.items, ∃ handle, item = .scalar handle)
    {positions : List Position} (distinct : positions.Nodup)
    (within : ∀ position ∈ positions, ∃ k < pass.results.size, position = (k : ℕ)) :
    ∃ vectors, ((fetchFeatures store.index positions).result pass).1 = .ok vectors ∧
      ∀ entry ∈ vectors, entry.2.length = columns := by
  let keyAt (position : Position) : Option Datum :=
    match pass.results.itemAt position with
    | .ok item => store.keyOf item
    | .error _ => none
  have told : ∀ position ∈ positions, ∃ item, pass.results.itemAt position = .ok item ∧
      ∀ calls, store.index.key calls item = .ok (keyAt position) := by
    intro position member
    obtain ⟨k, small, rfl⟩ := within position member
    obtain ⟨item, found⟩ : ∃ item, pass.results.items[k]? = some item :=
      ⟨_, List.getElem?_eq_getElem (by simpa using small)⟩
    have read := ResultSet.itemAt_eq_ok_iff.mpr found
    obtain ⟨handle, rfl⟩ := scalars item (List.mem_of_getElem? found)
    refine ⟨_, read, fun calls => ?_⟩
    simp only [keyAt, read]
    exact store.key_scalar calls handle
  obtain ⟨asked, -, run⟩ := result_fetchFeatures distinct told
  have rows : ∀ key ∈ (keyed keyAt (positions.mergeSort fun a b => decide (a ≤ b))).map (·.2),
      ∃ row : ℕ, key = rowKey row := by
    intro key member
    obtain ⟨⟨position, key⟩, listed, rfl⟩ := List.mem_map.mp member
    obtain ⟨position', -, paired⟩ := List.mem_filterMap.mp listed
    obtain ⟨key', named, is⟩ := Option.map_eq_some_iff.mp paired
    obtain ⟨rfl, rfl⟩ := Prod.mk.inj is
    cases read : pass.results.itemAt position' with
    | ok item =>
      simp only [keyAt, read] at named
      exact exists_eq_rowKey_of_keyOf named
    | error fault =>
      simp only [keyAt, read] at named
      cases named
  obtain ⟨entries, answered, stored⟩ := @exists_vectors_eq_ok F store _ asked rows
  have castable : ∀ entry ∈ entries, ∀ features, entry.2 = some features →
      ∃ vector, features.toVector = .ok vector ∧ vector.length = columns := by
    intro entry member features is
    obtain ⟨vector, present, is'⟩ := stored entry member
    obtain rfl := Option.some.inj (is.symm.trans is')
    exact ⟨vector, rfl, lengths vector present⟩
  obtain ⟨vectors, read, meets⟩ := exists_vectorsOf_eq_ok castable _
  refine ⟨vectors, ?_, meets⟩
  rw [run, answered]
  exact read

/-- A scorer whose reference has the length of the rows returns a top list, having scored as told.
-/
theorem exists_returns_index {referenceHash : Option ContentHash} (sound : settings.IsSound)
    (call : OrdinaryCall store.index pass query settings neighbors store.keyOf)
    (whole : neighbors.Perm (store.relevances query))
    (lengths : ∀ vector ∈ store.rows.toList, vector.length = query.length)
    (scalars : ∀ item ∈ pass.results.items, ∃ handle, item = .scalar handle) :
    let scorer : Scorer ContentHash F := ⟨some query, referenceHash, settings⟩
    let scores := acceptedScores settings query referenceHash (store.index.hash []) neighbors
    ∃ map primary chosen top final,
      (scorer.score store.index).result pass = (.ok (some top), final) ∧
      Returns scorer store.index pass query map primary chosen top final ∧
      map.byKey = scores ∧ final.results.items = pass.results.items ∧
      primary.results.scores = pass.results.items.map
        fun item => (itemScore? scores store.keyOf item).getD 0 := by
  intro scorer scores
  have answered : ∀ neighbor ∈ neighbors, referenceHash = none ∨
      Answered store.index neighbor.1 (store.index.hash [] neighbor.1) := by
    intro neighbor member
    obtain ⟨row, vector, -, rfl⟩ := mem_relevances_iff.mp (whole.mem_iff.mp member)
    exact .inr ⟨fun _ => rfl, .inl ⟨_, rfl⟩⟩
  obtain ⟨seen, calls, built⟩ := result_build call sound referenceHash _ answered
  obtain ⟨_, _, _, -, -, -, -, projected⟩ := build_eq_ok call.features call.results built
  obtain ⟨selected, fits⟩ := select_of_projected projected settings
  -- All vectors that a regrouping fetches have the length of the reference, so it succeeds.
  generalize primary_eq : ({ pass with results := _, calls } : Pass Datum Datum F) = primary
    at built projected selected fits
  have kept : primary.results.items = pass.results.items := by
    rw [← primary_eq]
    exact items_rescored _
  have written : primary.results.scores = pass.results.items.map
      fun item => (itemScore? scores store.keyOf item).getD 0 := by
    rw [← primary_eq]
    exact scores_rescored _
  generalize TopList.ofScores _ _ _ = chosen at selected fits
  let listed : Pass Datum Datum F := { primary with top := some chosen }
  have top_eq : listed.top = some chosen := rfl
  obtain ⟨vectors, fetched, same⟩ := @exists_fetchFeatures_eq_ok F store listed query.length
    lengths (by rwa [← kept] at scalars) (neededFor chosen)
    (fits.distinct.sublist (List.drop_sublist _ _))
    fun position member => fits.within position (List.mem_of_mem_drop member)
  have succeeds : ((organize scorer store.index query chosen).result listed).1 = .ok () :=
    organize_eq_ok_of_length_eq scorer fits top_eq fetched same
  have known : scorer.reference = some query := rfl
  obtain ⟨top, final, run, items⟩ : ∃ top final,
      (scorer.score store.index).result pass = (.ok (some top), final) ∧
        final.results.items = primary.results.items := by
    rcases organize_cases scorer store.index query listed fits top_eq with
      ⟨outcome, calls, ended, -, -⟩ | ⟨regrouped, results, calls, ended, -, regrouping⟩
    · obtain rfl : outcome = .ok () := by rwa [ended] at succeeds
      have run := result_score known call.features call.results built selected ended
      exact ⟨_, _, run, rfl⟩
    · have run := result_score known call.features call.results built selected ended
      exact ⟨_, _, run, regrouping.items⟩
  obtain ⟨chosen', returned⟩ := exists_returns_of_built known built run
  exact ⟨_, primary, chosen', top, final, run, returned, rfl, items.trans kept, written⟩

end Score

section Images

open Scorer

variable {columns : ℕ} {images : List (Scalar × List (Number .exact))}
  {hashes : List (Scalar × Datum)} {reference item : Scalar} {vector : List (Number .exact)}
  {hash : ContentHash} {weight : Number .binary64}

/-- The exhaustive store of some images in which scores are computed with 53 bits. -/
abbrev imageStore (columns : ℕ) (images : List (Scalar × List (Number .exact)))
    (hashes : List (Scalar × Datum)) : VectorStore .binary64 :=
  .ofImages .binary64 columns images hashes .exhaustive

/-- What holds of the stored features of every image holds of every row. -/
theorem forall_rows_imageStore {P : FeatureVector .binary64 → Prop}
    (meets : ∀ image ∈ images, P (stored .binary64 image.2)) :
    ∀ vector ∈ (imageStore columns images hashes).rows.toList, P vector := by
  intro vector member
  obtain ⟨image, known, rfl⟩ := List.mem_map.mp member
  exact meets image known

/-- What is known of an item of the store: its row, the features and the hash there. -/
theorem exists_row (distinct : (images.map (·.1)).Pairwise fun a b => (a == b) = false)
    (known : images.lookup item = some vector) :
    ∃ row : ℕ, (imageStore columns images hashes).keyOf (.scalar item) = some (rowKey row) ∧
      (imageStore columns images hashes).rows[row]? = some (stored .binary64 vector) ∧
      (imageStore columns images hashes).hashAt? row =
        (latestOf? item hashes).bind Datum.contentHash? := by
  obtain ⟨⟨handle, vector⟩, member, same, rfl⟩ := exists_of_lookup_eq_some known
  obtain ⟨row, found⟩ := List.getElem?_of_mem member
  refine ⟨row, keyOf_ofImages distinct found same, getElem?_rows_ofImages found, ?_⟩
  rw [hashAt?_ofImages distinct found, latestOf?, latestOf?, lookup_congr same]

/-- An item of the store is the reference of a scorer with its stored features and its hash. -/
theorem result_forItem_imageStore
    (distinct : (images.map (·.1)).Pairwise fun a b => (a == b) = false)
    (known : images.lookup reference = some vector) (settings : Settings .binary64)
    (pass : Pass Datum Datum .binary64) :
    ∃ calls, (forItem (imageStore columns images hashes).index (.scalar reference) settings).result
      pass = (.ok ⟨some (stored .binary64 vector),
        (latestOf? reference hashes).bind Datum.contentHash?, settings⟩, { pass with calls }) := by
  let store := imageStore columns images hashes
  obtain ⟨row, key, found, hash⟩ :=
    @exists_row columns images hashes reference vector distinct known
  have named : ∀ calls, store.index.key calls (.scalar reference) = .ok (some (rowKey row)) := by
    intro calls
    rw [key_scalar, key]
  have fetched : ∀ calls, store.index.vectors calls [rowKey row] =
      .ok [(rowKey row, some (.vector (stored .binary64 vector)))] := by
    intro calls
    have read : store.vectorsOf [rowKey row] = .ok [((row : Int), stored .binary64 vector)] := by
      rw [vectorsOf_cons rfl, found]
    simp only [index, read]
    rfl
  have hashed : ∀ calls, store.index.hash calls (rowKey row) =
      .ok ((latestOf? reference hashes).bind Datum.contentHash?) := by
    intro calls
    rw [← hash]
    rfl
  obtain ⟨calls, run⟩ := result_forItem named fetched hashed settings pass
  refine ⟨calls, run.trans ?_⟩
  rw [List.lookup_cons, BEq.rfl]
  rfl

/-- A twin of the reference has the score of identical items. -/
theorem itemScore?_twin (distinct : (images.map (·.1)).Pairwise fun a b => (a == b) = false)
    (positive : 0 < weight) (weighs : weight.isFinite) (features : vector ≠ [])
    (countable : (Number.ofInt .binary64 vector.length).isFinite)
    (finite : ∀ image ∈ images, ∀ x ∈ stored .binary64 image.2, x.isFinite)
    (known : images.lookup reference = some vector)
    {neighbors : List (Datum × Number .binary64)}
    (whole : neighbors.Perm
      ((imageStore columns images hashes).relevances (stored .binary64 vector)))
    (twin : IsTwin .binary64 images hashes vector hash item) :
    itemScore? (acceptedScores (Settings.weighing weight) (stored .binary64 vector) (some hash)
        ((imageStore columns images hashes).index.hash []) neighbors)
      (imageStore columns images hashes).keyOf (.scalar item) =
        some (Settings.weighing weight).identicalScore := by
  obtain ⟨vector', hash', known', same, recorded, copy⟩ := twin
  obtain ⟨row, key, found, told⟩ :=
    @exists_row columns images hashes item vector' distinct known'
  have rows := @forall_rows_imageStore columns images hashes
    (fun vector => ∀ x ∈ vector, x.isFinite) finite
  obtain ⟨image, member, -, rfl⟩ := exists_of_lookup_eq_some known
  rw [itemScore?, key]
  refine lookup_acceptedScores_twin positive weighs ?_ ?_ rows (finite image member) whole found
    same ?_ copy
  · simpa [stored] using features
  · simpa [stored] using countable
  · rw [← recorded, ← told]
    rfl

/-- An item of the store recognizes itself. Over finite vectors of one length, with distinct items
and whatever finite weight of distances, a call for a stored item that has a hash succeeds, and
every position that holds the item or a twin of it ends with the score of identical items. -/
theorem score_twins (wide : 1 ≤ columns) (countable : (Number.ofInt .binary64 columns).isFinite)
    (lengths : ∀ image ∈ images, image.2.length = columns)
    (distinct : (images.map (·.1)).Pairwise fun a b => (a == b) = false)
    (finite : ∀ image ∈ images, ∀ x ∈ stored .binary64 image.2, x.isFinite)
    (positive : 0 < weight) (weighs : weight.isFinite)
    (room : images.length ≤ (Settings.weighing weight).maxResults)
    (known : images.lookup reference = some vector)
    (recorded : (latestOf? reference hashes).bind Datum.contentHash? = some hash)
    (same : hash == hash) {items : List Scalar} (busy : items ≠ [])
    {pass : Pass Datum Datum .binary64} (listed : pass.results.items = items.map .scalar) :
    ∃ (store : VectorStore .binary64) (top : TopList) (final : Pass Datum Datum .binary64),
      VectorStore.create (.ofRows columns (images.map (·.2))) (images.map (.scalar ·.1)) hashes
        .exhaustive = .ok store ∧
      (forItem store.index (.scalar reference) (Settings.weighing weight) >>= fun scorer =>
        scorer.score store.index).result pass = (.ok (some top), final) ∧
      final.results.items = pass.results.items ∧
      ∀ (k : ℕ) (item : Scalar), items[k]? = some item →
        item == reference ∨ IsTwin .binary64 images hashes vector hash item →
        final.results.scoreAt (k : Position) = .ok (Settings.weighing weight).identicalScore := by
  let store := imageStore columns images hashes
  have proper : Format.binary64.storage.IsProper := (by decide : 1 ≤ 24)
  have sound := Settings.isSound_weighing positive
  obtain ⟨image, member, -, rfl⟩ := exists_of_lookup_eq_some known
  have length : (stored .binary64 image.2).length = columns := by
    simp [stored, lengths image member]
  have features : stored .binary64 image.2 ≠ [] := by
    rw [← List.length_pos_iff, length]
    exact wide
  have lengths' : ∀ row ∈ store.rows.toList, row.length = (stored .binary64 image.2).length := by
    apply forall_rows_imageStore
    intro other member
    rw [length]
    simp [stored, lengths other member]
  have rows := @forall_rows_imageStore columns images hashes
    (fun vector => ∀ x ∈ vector, x.isFinite) finite
  have size : store.size ≤ (Settings.weighing weight).maxResults := by
    simpa [store, ofImages, VectorStore.size] using room
  obtain ⟨calls, told⟩ := @result_forItem_imageStore columns images hashes reference image.2
    distinct known (Settings.weighing weight) pass
  rw [recorded] at told
  let asked : Pass Datum Datum .binary64 := { pass with calls }
  obtain ⟨neighbors, found, whole⟩ := exists_nearest_perm rfl features lengths' size calls
  have numbers := isNaN_relevances proper rows (finite image member)
  have scalars : ∀ item ∈ asked.results.items, ∃ handle, item = .scalar handle := by
    simp [asked, listed]
  have filled : asked.results.size ≠ 0 := by
    rw [← ResultSet.length_items]
    simpa [asked, listed] using busy
  have call := ordinaryCall_index features found whole numbers scalars (length ▸ countable) filled
  obtain ⟨map, primary, chosen, top, final, run, returned, byKey, items_eq, scores_eq⟩ :=
    exists_returns_index sound call whole lengths' scalars
  refine ⟨store, top, final, create_ofImages lengths, ?_, items_eq, ?_⟩
  · rw [Attempt.result_bind_ok told]
    exact run
  · intro k item held is
    have twin : IsTwin .binary64 images hashes image.2 hash item := by
      rcases is with itself | twin
      · refine ⟨image.2, hash, (lookup_congr itself images).trans known, rfl, ?_, same⟩
        rw [← recorded, latestOf?, latestOf?, lookup_congr itself]
      · exact twin
    have identical := itemScore?_twin distinct positive weighs (by simpa [stored] using features)
      (lengths image member ▸ countable) finite known whole twin
    have primary_score : primary.results.scores[k]? =
        some (Settings.weighing weight).identicalScore := by
      have found : asked.results.items[k]? = some (.scalar item) := by
        simp [asked, listed, held]
      rw [scores_eq, List.getElem?_map, found, Option.map_some, identical]
      rfl
    refine returned.scoreAt_of_identical (fun position matched => ?_) primary_score
    refine returned.isNaN_held (fun entry accepted => ?_) matched
    rw [byKey] at accepted
    exact minScore_le_of_mem_accepted accepted

/-- An image, a rival with its features, a twin with zero of the other sign, and an image that is
infinitely far from them. -/
def fourImages : List (Scalar × List (Number .exact)) :=
  [(.text "rival", [0, 1]), (.text "image", [0, 1]), (.text "twin", [.negZero, 1]),
    (.text "far", [.finite (3 * 10 ^ 38), .finite (-3 * 10 ^ 38)])]

/-- The rival has a hash of its own, and the one that is far has none. -/
def threeHashes : List (Scalar × Datum) :=
  [(.text "rival", .scalar (.text "other")), (.text "image", .scalar (.text "same")),
    (.text "twin", .scalar (.text "same"))]

/-- The images before they are scored. -/
def imagesToScore : Pass Datum Datum .binary64 where
  results := .ofItems ((fourImages.map (·.1)).map .scalar) 1

/-- The image and its twin are recognized behind the rival, though distances weigh a million. -/
theorem score_twins_fourImages :
    ∃ (store : VectorStore .binary64) (top : TopList) (final : Pass Datum Datum .binary64),
      VectorStore.create (.ofRows 2 (fourImages.map (·.2))) (fourImages.map (.scalar ·.1))
        threeHashes .exhaustive = .ok store ∧
      (forItem store.index (.scalar (.text "image")) (Settings.weighing (.finite 1000000)) >>=
        fun scorer => scorer.score store.index).result imagesToScore = (.ok (some top), final) ∧
      final.results.scoreAt 1 = .ok (.finite 1000) ∧
        final.results.scoreAt 2 = .ok (.finite 1000) := by
  have lengths : ∀ image ∈ fourImages, image.2.length = 2 := by decide
  have distinct : (fourImages.map (·.1)).Pairwise fun a b => (a == b) = false := by decide
  have finite : ∀ image ∈ fourImages, ∀ x ∈ stored .binary64 image.2, x.isFinite := by
    decide +kernel
  have positive : (0 : Number .binary64) < .finite 1000000 := by decide
  have weighs : (.finite 1000000 : Number .binary64).isFinite := by decide
  have known : fourImages.lookup (.text "image") = some [0, 1] := by rfl
  have recorded : (latestOf? (.text "image") threeHashes).bind Datum.contentHash? =
      some ⟨.scalar (.text "same")⟩ := by rfl
  have twin : IsTwin .binary64 fourImages threeHashes [0, 1] ⟨.scalar (.text "same")⟩
      (.text "twin") :=
    ⟨[.negZero, 1], ⟨.scalar (.text "same")⟩, by rfl, by decide +kernel, by rfl, by decide⟩
  have listed : imagesToScore.results.items = (fourImages.map (·.1)).map .scalar := by rfl
  have thousand : (Settings.weighing (.finite 1000000 : Number .binary64)).identicalScore =
      .finite 1000 := by decide +kernel
  obtain ⟨store, top, final, created, run, -, identical⟩ :=
    score_twins one_le_two (by decide +kernel) lengths distinct finite positive weighs
      (by decide) known recorded (by decide) (by decide) listed
  rw [thousand] at identical
  exact ⟨store, top, final, created, run, identical 1 (.text "image") rfl (.inl (by decide)),
    identical 2 (.text "twin") rfl (.inr twin)⟩

end Images

end VectorStore

end Lookalike
