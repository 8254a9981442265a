import Mathlib.Algebra.Order.BigOperators.Group.List
import Lookalike.Proofs.ResultSet
import Lookalike.Proofs.ScoreMap.Build
import Lookalike.Proofs.VectorStore

/-!
# The direct formula

Without rounding and without a hash of the reference, a scoring pass over a vector store is a
function of each item alone. The relevance that stands for a square distance gives it back, the
scores fall along the ranking, so that the early exit loses none that is high enough, and the row
that is the key of an item leads to the item's own vector.

## Main definitions

* `ScoreMap.squareDistance`, `ScoreMap.directScore`, the formula for one vector
* `ScoreMap.itemScore`, the score of an item by the formula

## Main statements

* `Relevance.toDistance_ofDistance`
* `ScoreMap.build_eq_formula`
-/

namespace Lookalike

open VectorStore

namespace Relevance

variable {d : ℚ}

theorem ofDistance_exact (nonnegative : 0 ≤ d) :
    ofDistance (.finite d : Number .exact) = .finite (1 / (1 + d)) := by
  have positive : 0 < 1 + d := by linarith
  exact Number.finite_div_finite zero_le_one positive

/-- The relevance of a square distance gives the distance back. -/
theorem toDistance_ofDistance (nonnegative : 0 ≤ d) :
    toDistance (ofDistance (.finite d : Number .exact)) = .finite d := by
  have positive : 0 < 1 / (1 + d) := one_div_pos.mpr (by linarith)
  have reciprocal : (1 / .finite (1 / (1 + d)) : Number .exact) = .finite (1 + d) :=
    (Number.finite_div_finite zero_le_one positive).trans
      (congrArg Number.finite (one_div_one_div (1 + d)))
  have rest : (.finite (1 + d) - 1 : Number .exact) = .finite d :=
    Number.finite_sub_finite.trans (congrArg Number.finite (by ring))
  rw [ofDistance_exact nonnegative, toDistance_of_pos (Number.finite_lt_finite.mpr positive),
    reciprocal, rest, Number.atLeastZero_finite, max_eq_right nonnegative]

end Relevance

namespace ScoreMap

/-- The square distance of two vectors of rational numbers. -/
def squareDistance (vector reference : List ℚ) : ℚ :=
  (List.zipWith (fun x y => (x - y) ^ 2) vector reference).sum

/-- The score of a vector by its square distance to the reference. -/
def directScore (settings : Settings .exact) (reference vector : List ℚ) : ℚ :=
  max 0 (settings.baseScore.value -
    squareDistance vector reference * settings.distanceWeight.value / reference.length)

/-- The score of an item whose vector is known or not: that of the vector where it reaches the least
one, and zero otherwise. -/
def itemScore (settings : Settings .exact) (reference : List ℚ) : Option (List ℚ) → ℚ
  | none => 0
  | some vector =>
    let score := directScore settings reference vector
    if settings.minScore.value ≤ score then score else 0

/-- A vector of rational numbers, which is stored without rounding. -/
def exactly (vector : List ℚ) : FeatureVector .exact := vector.map .finite

theorem length_exactly (vector : List ℚ) : (exactly vector).length = vector.length :=
  List.length_map _

section Exact

variable {settings : Settings .exact} {reference vector : List ℚ}

theorem squareDistance_nonneg (vector reference : List ℚ) :
    0 ≤ squareDistance vector reference := by
  apply List.sum_nonneg
  intro square member
  rw [← List.map_uncurry_zip_eq_zipWith] at member
  obtain ⟨pair, -, rfl⟩ := List.mem_map.mp member
  exact sq_nonneg _

/-- Squares are added up without rounding. -/
theorem sumOfSquares_finite (differences : List ℚ) :
    Distance.sumOfSquares (differences.map (Number.finite (F := .exact))) =
      .finite (differences.map (· ^ 2)).sum := by
  have square : ∀ q : ℚ, (.finite q * .finite q : Number .exact) = .finite (q ^ 2) := by
    intro q
    change Number.mul (.finite q) (.finite q) = _
    by_cases zero : q = 0
    · simp [Number.mul, Number.isNaN, Number.isFinite, Number.isZero, Number.value, Number.zero,
        zero]
    · simp [Number.mul, Number.isNaN, Number.isFinite, Number.isZero, Number.value, Number.ofRat,
        zero, pow_two]
  -- The sum starts at zero; the induction needs it to start anywhere.
  suffices ∀ sum : ℚ, (differences.map Number.finite).foldl
      (fun sum difference => sum + difference * difference) (.finite sum : Number .exact) =
      .finite (sum + (differences.map (· ^ 2)).sum) by
    exact (this 0).trans (congrArg Number.finite (zero_add _))
  induction differences with
  | nil => simp
  | cons difference rest ih =>
    intro sum
    simp only [List.map_cons, List.foldl_cons, List.sum_cons, square, ← add_assoc]
    exact ih (sum + difference ^ 2)

/-- The square distance is computed without rounding. -/
theorem storedDistance_exactly (vector reference : List ℚ) :
    storedDistance (exactly vector) (exactly reference) =
      .finite (squareDistance vector reference) := by
  have differences : List.zipWith (· - ·) (exactly vector) (exactly reference) =
      (List.zipWith (· - ·) vector reference).map Number.finite := by
    rw [exactly, exactly, List.zipWith_map, List.map_zipWith]
    exact congrFun₂ (congrArg List.zipWith (funext₂ fun _ _ => Number.finite_sub_finite)) _ _
  have squares : squareDistance vector reference =
      ((List.zipWith (· - ·) vector reference).map (· ^ 2)).sum := by
    rw [squareDistance, List.map_zipWith]
  rw [squares]
  exact (congrArg Distance.sumOfSquares differences).trans (sumOfSquares_finite _)

/-- The score of the distance of a vector is the direct one. -/
theorem distanceScore_exactly (sound : settings.IsSound)
    (weight : settings.distanceWeight.isFinite) (features : 1 ≤ reference.length) :
    Relevance.distanceScore settings (Number.ofInt .exact reference.length)
        (.finite (squareDistance vector reference)) =
      .finite (directScore settings reference vector) := by
  obtain ⟨base, -, baseScore⟩ := sound.exists_baseScore_eq
  rcases Number.eq_posInf_or_finite_of_pos sound.distanceWeight with infinite | ⟨w, weighs, finite⟩
  · rw [infinite] at weight
    cases weight
  have count : (0 : ℚ) < reference.length := by exact_mod_cast features
  have weighed := mul_nonneg (squareDistance_nonneg vector reference) weighs.le
  have product : (.finite (squareDistance vector reference) * .finite w : Number .exact) =
      .finite (squareDistance vector reference * w) :=
    Number.finite_mul_finite (squareDistance_nonneg vector reference) weighs
  have share : (.finite (squareDistance vector reference * w) / .finite (reference.length : ℚ) :
      Number .exact) = .finite (squareDistance vector reference * w / reference.length) :=
    Number.finite_div_finite weighed count
  have length : Number.ofInt .exact reference.length = .finite (reference.length : ℚ) := rfl
  rw [Relevance.distanceScore, directScore, length, baseScore, finite, product, share,
    Number.finite_sub_finite]
  exact Number.atLeastZero_finite _

end Exact

section Formula

variable {columns : ℕ} {images : List (Scalar × List ℚ)} {hashes : List (Scalar × Datum)}
  {settings : Settings .exact} {reference : List ℚ}

/-- Images whose vectors are rational, as they are given to a store. -/
def exactImages (images : List (Scalar × List ℚ)) : List (Scalar × List (Number .exact)) :=
  images.map fun image => (image.1, image.2.map .finite)

theorem map_fst_exactImages (images : List (Scalar × List ℚ)) :
    (exactImages images).map (·.1) = images.map (·.1) := by
  simp [exactImages]

theorem getElem?_exactImages {row : ℕ} {handle : Scalar} {vector : List ℚ}
    (found : images[row]? = some (handle, vector)) :
    (exactImages images)[row]? = some (handle, vector.map .finite) := by
  simp [exactImages, found]

/-- The exhaustive store of images whose vectors are rational. -/
def exactStore (columns : ℕ) (images : List (Scalar × List ℚ)) (hashes : List (Scalar × Datum)) :
    VectorStore .exact :=
  .ofImages .exact columns (exactImages images) hashes .exhaustive

/-- Nothing is rounded when a vector is stored. -/
theorem getElem?_rows_exactStore (row : ℕ) :
    (exactStore columns images hashes).rows[row]? =
      images[row]?.map fun image => exactly image.2 := by
  have kept : ∀ vector : List ℚ, (vector.map (Number.finite (F := .exact))).map
      (·.convert Format.exact.storage) = exactly vector := by
    intro vector
    rw [List.map_map]
    rfl
  simp only [exactStore, ofImages, exactImages, List.map_map, List.getElem?_toArray,
    List.getElem?_map, Function.comp_def, kept]

/-- The rows of the store, each as relevant as its exact square distance makes it. -/
theorem mem_relevances_exactStore {neighbor : Datum × Number .exact} :
    neighbor ∈ (exactStore columns images hashes).relevances (exactly reference) ↔
      ∃ (row : ℕ) (handle : Scalar) (vector : List ℚ), images[row]? = some (handle, vector) ∧
        neighbor = (rowKey row,
          Relevance.ofDistance (.finite (squareDistance vector reference))) := by
  have kept : ∀ x : Number .exact, x.convert .exact = x := by
    intro x
    cases x <;> rfl
  have relevance : ∀ vector : List ℚ, (Relevance.ofDistance
      (storedDistance (exactly vector) (exactly reference))).convert .exact =
        Relevance.ofDistance (.finite (squareDistance vector reference) : Number .exact) := by
    intro vector
    rw [storedDistance_exactly]
    exact kept _
  rw [mem_relevances_iff]
  constructor
  · rintro ⟨row, _, stored, rfl⟩
    rw [getElem?_rows_exactStore] at stored
    obtain ⟨⟨handle, vector⟩, found, rfl⟩ := Option.map_eq_some_iff.mp stored
    exact ⟨row, handle, vector, found, by rw [relevance]⟩
  · rintro ⟨row, handle, vector, found, rfl⟩
    exact ⟨row, exactly vector, by rw [getElem?_rows_exactStore, found]; rfl, by rw [relevance]⟩

theorem isNaN_of_mem_relevances_exactStore {neighbor : Datum × Number .exact}
    (member : neighbor ∈ (exactStore columns images hashes).relevances (exactly reference)) :
    neighbor.2.isNaN = false := by
  obtain ⟨row, handle, vector, -, rfl⟩ := mem_relevances_exactStore.mp member
  rw [Relevance.ofDistance_exact (squareDistance_nonneg vector reference)]
  rfl

/-- Without a hash of the reference a neighbor has the score of its distance. -/
theorem neighborScore_none (features : Int)
    (hashOf : Datum → Except Fault (Option ContentHash)) (neighbor : Datum × Number .exact) :
    neighborScore settings features none hashOf neighbor = Relevance.distanceScore settings
      (Number.ofInt .exact features) (Relevance.toDistance neighbor.2) := by
  have noCopy : isCopy (none : Option ContentHash) (hashOf neighbor.1) = false := rfl
  rw [neighborScore, Relevance.scoreOf, noCopy, Bool.and_false, if_neg Bool.false_ne_true]

/-- A row has the direct score of its vector. -/
theorem neighborScore_exactStore (sound : settings.IsSound)
    (weight : settings.distanceWeight.isFinite) (features : 1 ≤ reference.length) (key : Datum)
    (hashOf : Datum → Except Fault (Option ContentHash)) (vector : List ℚ) :
    neighborScore settings (exactly reference).length none hashOf
        (key, Relevance.ofDistance (.finite (squareDistance vector reference))) =
      .finite (directScore settings reference vector) := by
  rw [neighborScore_none, length_exactly,
    Relevance.toDistance_ofDistance (squareDistance_nonneg vector reference)]
  exact distanceScore_exactly sound weight features

section Accepted

variable (distinct : (images.map (·.1)).Pairwise fun a b => (a == b) = false)
  (sound : settings.IsSound) (weight : settings.distanceWeight.isFinite)
  (least : settings.minScore.isFinite) (features : 1 ≤ reference.length)
  {neighbors : List (Datum × Number .exact)}
  (whole : neighbors.Perm ((exactStore columns images hashes).relevances (exactly reference)))
  (hashOf : Datum → Except Fault (Option ContentHash))

include sound weight least features whole

/-- The early exit loses no row that reaches the least score, and every other row is left out. -/
theorem lookup_acceptedScores_exactStore {row : ℕ} {handle : Scalar} {vector : List ℚ}
    (found : images[row]? = some (handle, vector)) :
    (acceptedScores settings (exactly reference) none hashOf neighbors).lookup (rowKey row) =
      if settings.minScore.value ≤ directScore settings reference vector then
        some (.finite (directScore settings reference vector))
      else none := by
  let store := exactStore columns images hashes
  let score := neighborScore settings (exactly reference).length none hashOf
  let neighbor : Datum × Number .exact :=
    (rowKey row, Relevance.ofDistance (.finite (squareDistance vector reference)))
  have scored : score neighbor = .finite (directScore settings reference vector) :=
    neighborScore_exactStore sound weight features _ hashOf vector
  have ranked : ∀ other, other ∈ Ranking.rank neighbors ↔
      other ∈ store.relevances (exactly reference) := fun other =>
    ((Ranking.rank_perm neighbors).trans whole).mem_iff
  have reaches : settings.minScore ≤ score neighbor ↔
      settings.minScore.value ≤ directScore settings reference vector := by
    rw [scored]
    exact Number.le_finite_iff_value least
  rw [acceptedScores]
  split_ifs with high
  · have member : neighbor ∈ Ranking.rank neighbors :=
      (ranked neighbor).mpr (mem_relevances_exactStore.mpr ⟨row, handle, vector, found, rfl⟩)
    rw [← scored]
    refine lookup_accepted_of_le ?_ member BEq.rfl (reaches.mpr high) ?_
    · exact distinct_rank ((whole.pairwise_iff fun different => by rwa [BEq.comm]).mpr
        (store.distinct_relevances _))
    · -- Whatever stands in front is more relevant and has no lower score.
      have numbers : ∀ other ∈ neighbors, other.2.isNaN = false := by
        intro other member
        exact isNaN_of_mem_relevances_exactStore (whole.mem_iff.mp member)
      have count : (0 : ℚ) < (exactly reference).length := by
        rw [length_exactly]
        exact_mod_cast features
      refine (Ranking.pairwise_rank numbers).imp fun {a b} le is => ?_
      subst is
      have mono := Relevance.distanceScore_toDistance_mono (F := .exact) trivial sound count le
      have plain : ∀ other, score other = Relevance.distanceScore settings
          (.finite (exactly reference).length) (Relevance.toDistance other.2) :=
        neighborScore_none _ hashOf
      rw [← plain, ← plain] at mono
      exact Number.le_trans (reaches.mpr high) mono
  · apply lookup_accepted_eq_none
    intro other member same
    obtain ⟨row', handle', vector', found', rfl⟩ :=
      mem_relevances_exactStore.mp ((ranked other).mp member)
    rw [beq_rowKey, decide_eq_true_iff] at same
    subst same
    obtain rfl : vector = vector' := congrArg Prod.snd (Option.some.inj (found.symm.trans found'))
    exact mt reaches.mp high

include distinct

/-- The score of an item's key is the direct score of the item's own vector. -/
theorem itemScore?_exactStore (item : Scalar) :
    itemScore? (acceptedScores settings (exactly reference) none hashOf neighbors)
        (exactStore columns images hashes).keyOf (.scalar item) =
      ((images.lookup item).filter fun vector =>
        settings.minScore.value ≤ directScore settings reference vector).map fun vector =>
          .finite (directScore settings reference vector) := by
  cases looked : images.lookup item with
  | none =>
    have unknown : (exactStore columns images hashes).keyOf (.scalar item) = none := by
      apply keyOf_ofImages_eq_none
      intro image member
      obtain ⟨entry, member', rfl⟩ := List.mem_map.mp member
      exact by simpa [bne] using (List.lookup_eq_none_iff.mp looked entry member')
    rw [itemScore?, unknown]
    rfl
  | some vector =>
    obtain ⟨⟨handle, vector⟩, member, same, rfl⟩ := exists_of_lookup_eq_some looked
    obtain ⟨row, found⟩ := List.getElem?_of_mem member
    have key : (exactStore columns images hashes).keyOf (.scalar item) = some (rowKey row) :=
      keyOf_ofImages (by rwa [map_fst_exactImages]) (getElem?_exactImages found) same
    have lookup := lookup_acceptedScores_exactStore sound weight least features whole hashOf found
    rw [itemScore?, key, Option.bind_some, lookup, Option.filter_some]
    simp only [decide_eq_true_eq]
    split_ifs <;> rfl

end Accepted

/-- Rational vectors of one length make up an exhaustive store. -/
theorem create_exactStore (lengths : ∀ image ∈ images, image.2.length = columns)
    (hashes : List (Scalar × Datum)) :
    VectorStore.create (F := .exact) (.ofRows columns (images.map fun image => image.2.map .finite))
      (images.map (.scalar ·.1)) hashes .exhaustive = .ok (exactStore columns images hashes) := by
  have lengths' : ∀ image ∈ exactImages images, image.2.length = columns := by
    intro image member
    obtain ⟨entry, known, rfl⟩ := List.mem_map.mp member
    simpa using lengths entry known
  have made : VectorStore.create (.ofRows columns ((exactImages images).map (·.2)))
      ((exactImages images).map (.scalar ·.1)) hashes .exhaustive =
      .ok (exactStore columns images hashes) := create_ofImages lengths'
  rwa [exactImages, List.map_map, List.map_map] at made

/-- Scoring scalars against a rational vector of the length of the rows is an ordinary call. -/
theorem exists_ordinaryCall_exactStore (features : 1 ≤ reference.length)
    (lengths : ∀ image ∈ images, image.2.length = reference.length)
    (room : images.length ≤ settings.maxResults) {pass : Pass Datum Datum .exact}
    (scalars : ∀ item ∈ pass.results.items, ∃ handle, item = .scalar handle)
    (busy : pass.results.size ≠ 0) :
    let store := exactStore columns images hashes
    ∃ neighbors : List (Datum × Number .exact),
      neighbors.Perm (store.relevances (exactly reference)) ∧
      OrdinaryCall store.index pass (exactly reference) settings neighbors store.keyOf := by
  intro store
  have some : exactly reference ≠ [] := by
    rw [← List.length_pos_iff, length_exactly]
    exact features
  have stored : ∀ vector ∈ store.rows.toList, vector.length = (exactly reference).length := by
    intro vector member
    obtain ⟨row, found⟩ := List.getElem?_of_mem member
    rw [Array.getElem?_toList, getElem?_rows_exactStore] at found
    obtain ⟨image, known, rfl⟩ := Option.map_eq_some_iff.mp found
    rw [length_exactly, length_exactly]
    exact lengths image (List.mem_of_getElem? known)
  have size : store.size = images.length := by
    simp [store, exactStore, ofImages, exactImages, VectorStore.size]
  obtain ⟨neighbors, found, whole⟩ :=
    exists_nearest_perm rfl some stored (size ▸ room) pass.calls
  refine ⟨neighbors, whole, ordinaryCall_index some found whole ?_ scalars rfl busy⟩
  intro neighbor member
  obtain ⟨row, handle, vector, -, rfl⟩ := mem_relevances_exactStore.mp member
  rw [Relevance.ofDistance_exact (squareDistance_nonneg vector reference)]
  rfl

/-- A scoring pass over the exhaustive store of some images, without a hash of the reference, gives
every item the direct score of the item's own vector where that reaches the least one, and zero
otherwise, and to items that are none of the images. The matched positions are those of the
former. -/
theorem build_eq_formula (wide : 1 ≤ columns) (lengths : ∀ image ∈ images, image.2.length = columns)
    (distinct : (images.map (·.1)).Pairwise fun a b => (a == b) = false)
    (hashes : List (Scalar × Datum)) (dimension : reference.length = columns)
    (sound : settings.IsSound) (weight : settings.distanceWeight.isFinite)
    (least : settings.minScore.isFinite) (room : images.length ≤ settings.maxResults)
    {items : List Scalar} (busy : items ≠ []) {pass : Pass Datum Datum .exact}
    (listed : pass.results.items = items.map .scalar) :
    ∃ (store : VectorStore .exact) (map : ScoreMap Datum .exact) (final : Pass Datum Datum .exact),
      VectorStore.create (.ofRows columns (images.map fun image => image.2.map .finite))
        (images.map (.scalar ·.1)) hashes .exhaustive = .ok store ∧
      (build store.index (some (exactly reference)) none settings).result pass =
        (.ok map, final) ∧
      final.results.items = pass.results.items ∧
      final.results.scores = items.map (fun item =>
        .finite (itemScore settings reference (images.lookup item))) ∧
      map.matched.Pairwise (· < ·) ∧
      ∀ position, position ∈ map.matched ↔ ∃ (k : ℕ) (item : Scalar) (vector : List ℚ),
        items[k]? = some item ∧ images.lookup item = some vector ∧
          settings.minScore.value ≤ directScore settings reference vector ∧ position = k := by
  subst dimension
  have scalars : ∀ item ∈ pass.results.items, ∃ handle, item = .scalar handle := by
    simp [listed]
  have some : pass.results.size ≠ 0 := by
    rw [← ResultSet.length_items, listed, List.length_map]
    simpa using busy
  obtain ⟨neighbors, whole, call⟩ := exists_ordinaryCall_exactStore wide lengths room scalars some
  obtain ⟨seen, calls, built⟩ :=
    result_build call sound none (fun _ => .ok none) fun _ _ => .inl rfl
  have scored := itemScore?_exactStore distinct sound weight least wide whole fun _ => .ok none
  refine ⟨_, _, _, create_exactStore lengths hashes, built, items_rescored _, ?_,
    pairwise_matchedFrom, ?_⟩
  · rw [scores_rescored, listed, List.map_map]
    refine List.map_congr_left fun item _ => ?_
    rw [Function.comp_apply, scored item]
    cases images.lookup item with
    | none => rfl
    | some vector =>
      simp only [itemScore, Option.filter_some, decide_eq_true_eq]
      split_ifs <;> rfl
  · intro position
    rw [mem_matchedFrom_iff]
    constructor
    · rintro ⟨k, datum, found, matched, rfl⟩
      rw [listed, List.getElem?_map, Option.map_eq_some_iff] at found
      obtain ⟨item, found, rfl⟩ := found
      rw [scored item, Option.isSome_map, Option.isSome_iff_exists] at matched
      obtain ⟨vector, kept⟩ := matched
      obtain ⟨looked, high⟩ := Option.filter_eq_some_iff.mp kept
      exact ⟨k, item, vector, found, looked, of_decide_eq_true high, by rw [Nat.zero_add]⟩
    · rintro ⟨k, item, vector, found, looked, high, rfl⟩
      refine ⟨k, .scalar item, by simp [listed, found], ?_, by rw [Nat.zero_add]⟩
      rw [scored item, looked]
      simp [high]

/-- Three images of two features each. -/
def threeImages : List (Scalar × List ℚ) :=
  [(.text "near", [1, 2]), (.text "far", [9, 2]), (.text "same", [1, 1])]

/-- Four items to be scored, one of which is none of the images. -/
def fourItems : List Scalar := [.text "far", .text "near", .text "other", .text "same"]

/-- The items before they are scored. -/
def unscoredItems : Pass Datum Datum .exact where
  results := .ofItems (fourItems.map .scalar) 1

/-- Two of the items are near enough to the reference to be matched. -/
theorem build_eq_formula_threeImages :
    ∃ (store : VectorStore .exact) (map : ScoreMap Datum .exact) (final : Pass Datum Datum .exact),
      VectorStore.create (.ofRows 2 (threeImages.map fun image => image.2.map .finite))
        (threeImages.map (.scalar ·.1)) [] .exhaustive = .ok store ∧
      (build store.index (some (exactly [1, 1])) none (Settings.standard .exact)).result
        unscoredItems = (.ok map, final) ∧
      final.results.scores = [0, .finite 98, 0, .finite 100] ∧
      (1 : Position) ∈ map.matched ∧ (0 : Position) ∉ map.matched := by
  have lengths : ∀ image ∈ threeImages, image.2.length = 2 := by decide
  have distinct : (threeImages.map (·.1)).Pairwise fun a b => (a == b) = false := by decide
  have listed : unscoredItems.results.items = fourItems.map .scalar := by rfl
  have dimension : ([1, 1] : List ℚ).length = 2 := by decide
  have room : threeImages.length ≤ (Settings.standard .exact).maxResults := by decide
  have busy : fourItems ≠ [] := by decide
  obtain ⟨store, map, final, created, built, -, scores, -, matched⟩ :=
    build_eq_formula (by decide) lengths distinct [] dimension Settings.isSound_standard_exact
      (by decide) (by decide) room busy listed
  refine ⟨store, map, final, created, built, scores.trans (by decide +kernel), ?_, ?_⟩
  · exact (matched 1).mpr ⟨1, .text "near", [1, 2], rfl, by decide +kernel, by decide +kernel, rfl⟩
  · intro member
    obtain ⟨k, item, vector, found, looked, high, first⟩ := (matched 0).mp member
    obtain rfl : k = 0 := by exact_mod_cast first.symm
    obtain rfl : .text "far" = item := Option.some.inj found
    obtain rfl : [9, 2] = vector := Option.some.inj looked
    exact absurd high (by decide +kernel)

end Formula

end ScoreMap

end Lookalike
