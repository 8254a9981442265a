import Lookalike.Proofs.CaseIndex
import Lookalike.Proofs.Chain.Cap
import Lookalike.Proofs.Chain.Loop
import Lookalike.Proofs.Entries
import Lookalike.Proofs.TopList

/-!
# Fetching features

The features of distinct positions are fetched without a change to the result set or the top list.
Each position gets at most one vector, so a fetch that brings as many vectors as were asked for
leaves out none of the positions.

A chain of fetched vectors is arranged by square distances, which can be measured exactly where the
vectors have the length of the reference. So a fault arises while the distances to the reference are
measured, before anything has moved.

## Main statements

* `Scorer.onlyAsks_fetchFeatures`, `Scorer.exists_lookup_of_complete`
* `Scorer.upTo_reorder`, `Scorer.after_reorder_perm`
* `Scorer.fault_reorder_of_length_eq`, `Scorer.order_reorder_of_fault`
-/

namespace Lookalike.Scorer

variable {Item Key Hash : Type} {F : Format} {index : CaseIndex Item Key Hash F}

section Fetch

open Scoring

/-- Asking for keys changes nothing but the record of questions. The induction is on the positions
to come, with whatever keys have been found before. -/
theorem onlyAsks_keysFrom (index : CaseIndex Item Key Hash F) (positions : List Position) :
    ∀ keys, OnlyAsks (keysFrom index keys positions) := by
  induction positions with
  | nil => exact fun keys => .pure keys
  | cons position rest ih =>
    intro keys
    refine .bind .get fun pass => .bind (.ofExcept _) fun item => .bind (.ask _ _) fun key => ?_
    cases key with
    | none => exact ih keys
    | some key => exact ih _

/-- Fetching features changes nothing but the record of questions. -/
theorem onlyAsks_fetchFeatures [BEq Key] (index : CaseIndex Item Key Hash F)
    (positions : List Position) : OnlyAsks (fetchFeatures index positions) :=
  .bind (onlyAsks_keysFrom index _ []) fun _ => .bind (.ask _ _) fun _ => .ofExcept _

variable {pass pass' : Pass Item Key F} {positions : List Position}

/-- Of distinct positions some get a key, in order. -/
theorem sublist_of_keysFrom_eq_ok {keys keys' : List (Position × Key)}
    (distinct : (keys.map (·.1) ++ positions).Nodup)
    (run : (keysFrom index keys positions).result pass = (.ok keys', pass')) :
    (keys'.map (·.1)).Sublist (keys.map (·.1) ++ positions) := by
  induction positions generalizing keys pass with
  | nil =>
    cases run
    exact List.sublist_append_left _ _
  | cons position rest ih =>
    obtain ⟨state, pass₁, -, run⟩ := Attempt.bind_eq_ok run
    obtain ⟨item, pass₂, -, run⟩ := Attempt.bind_eq_ok run
    obtain ⟨key, pass₃, -, run⟩ := Attempt.bind_eq_ok run
    cases key with
    | none =>
      have fewer : (keys.map (·.1) ++ rest).Sublist (keys.map (·.1) ++ position :: rest) :=
        (List.sublist_cons_self position rest).append_left _
      exact (ih (distinct.sublist fewer) run).trans fewer
    | some key =>
      have new : ∀ entry ∈ keys, (position == entry.1) = false := by
        intro entry member
        rw [beq_eq_false_iff_ne]
        exact ((List.nodup_append.mp distinct).2.2 _ (List.mem_map_of_mem member) _
          List.mem_cons_self).symm
      dsimp only at run
      rw [putEntry_of_forall_ne new] at run
      simpa using ih (by simpa using distinct) run

/-- Of the positions with a key some get a vector, in order. -/
theorem sublist_of_vectorsOf_eq_ok [BEq Key] {stored : List (Key × Option (Features F))}
    {keys : List (Position × Key)} {vectors : List (Position × FeatureVector F)}
    (fetched : vectorsOf stored keys = .ok vectors) :
    (vectors.map (·.1)).Sublist (keys.map (·.1)) := by
  induction keys generalizing vectors with
  | nil =>
    cases fetched
    exact .slnil
  | cons entry rest ih =>
    obtain ⟨position, key⟩ := entry
    rw [vectorsOf] at fetched
    cases known : (stored.lookup key).join with
    | none =>
      rw [known] at fetched
      exact (ih fetched).cons _
    | some features =>
      simp only [known] at fetched
      obtain ⟨vector, -, fetched⟩ := exists_of_bind_eq_ok fetched
      obtain ⟨others, rest_fetched, done⟩ := exists_of_bind_eq_ok fetched
      cases done
      exact (ih rest_fetched).cons_cons _

/-- The fetched vectors belong to some of the positions, each to another, in ascending order. -/
theorem sublist_of_fetchFeatures_eq_ok [BEq Key] {vectors : List (Position × FeatureVector F)}
    (distinct : positions.Nodup)
    (run : (fetchFeatures index positions).result pass = (.ok vectors, pass')) :
    (vectors.map (·.1)).Sublist (positions.mergeSort fun a b => decide (a ≤ b)) := by
  obtain ⟨keys, pass₁, asked, run⟩ := Attempt.bind_eq_ok run
  obtain ⟨stored, pass₂, -, run⟩ := Attempt.bind_eq_ok run
  rw [Attempt.result_ofExcept, Prod.mk.injEq] at run
  have sorted : (positions.mergeSort fun a b => decide (a ≤ b)).Nodup :=
    (List.mergeSort_perm _ _).nodup_iff.mpr distinct
  exact (sublist_of_vectorsOf_eq_ok run.1).trans (sublist_of_keysFrom_eq_ok sorted asked)

/-- A fetch that brings as many vectors as were asked for leaves out no position. -/
theorem exists_lookup_of_complete [BEq Key] {vectors : List (Position × FeatureVector F)}
    (distinct : positions.Nodup)
    (run : (fetchFeatures index positions).result pass = (.ok vectors, pass'))
    (complete : positions.length ≤ vectors.length) {position : Position}
    (member : position ∈ positions) :
    ∃ vector, vectors.lookup position = some vector ∧ (position, vector) ∈ vectors := by
  have all : vectors.map (·.1) = positions.mergeSort fun a b => decide (a ≤ b) :=
    (sublist_of_fetchFeatures_eq_ok distinct run).eq_of_length_le (by simpa using complete)
  have fetched : position ∈ vectors.map (·.1) := by
    rw [all]
    exact List.mem_mergeSort.mpr member
  have keys : (vectors.map (·.1)).Nodup := by
    rw [all]
    exact (List.mergeSort_perm _ _).nodup_iff.mpr distinct
  obtain ⟨⟨position, vector⟩, listed, rfl⟩ := List.mem_map.mp fetched
  exact ⟨vector, lookup_of_nodup keys listed, listed⟩

/-- Positions with the keys that they have, in order; those without a key are left out. -/
def keyed (keyAt : Position → Option Key) (positions : List Position) : List (Position × Key) :=
  positions.filterMap fun position => (keyAt position).map fun key => (position, key)

theorem mem_keyed_iff {keyAt : Position → Option Key} {entry : Position × Key} :
    entry ∈ keyed keyAt positions ↔ entry.1 ∈ positions ∧ keyAt entry.1 = some entry.2 := by
  simp only [keyed, List.mem_filterMap, Option.map_eq_some_iff]
  constructor
  · rintro ⟨position, member, key, found, rfl⟩
    exact ⟨member, found⟩
  · rintro ⟨member, found⟩
    exact ⟨entry.1, member, entry.2, found, rfl⟩

/-- Where all positions have keys, none is left out. -/
theorem length_keyed {keyAt : Position → Option Key}
    (all : ∀ position ∈ positions, (keyAt position).isSome) :
    (keyed keyAt positions).length = positions.length := by
  rw [keyed, List.filterMap_length_eq_length]
  intro position member
  rw [Option.isSome_map]
  exact all position member

theorem map_snd_keyed (keyAt : Position → Option Key) (positions : List Position) :
    (keyed keyAt positions).map (·.2) = positions.filterMap keyAt := by
  rw [keyed, List.map_filterMap]
  refine List.filterMap_congr fun position _ => ?_
  cases keyAt position <;> rfl

/-- Some position is left out exactly where one has no key. -/
theorem length_keyed_lt_iff {keyAt : Position → Option Key} :
    (keyed keyAt positions).length < positions.length ↔
      ∃ position ∈ positions, keyAt position = none := by
  rw [keyed, List.length_filterMap_lt_length_iff_exists]
  simp only [exists_prop, Option.map_eq_none_iff]

/-- Under each of distinct positions its own value is found, if it has one. -/
theorem lookup_keyed {keyAt : Position → Option Key} {position : Position}
    (distinct : positions.Nodup) (member : position ∈ positions) :
    (keyed keyAt positions).lookup position = keyAt position :=
  lookup_filterMap_of_mem (by rwa [List.map_id]) member

/-- Where the keys of all positions are told, they are found in order. The induction is on the
positions to come; what has been found before stays in front. -/
theorem result_keysFrom {keyAt : Position → Option Key} {keys : List (Position × Key)}
    (told : ∀ position ∈ positions, ∃ item, pass.results.itemAt position = .ok item ∧
      ∀ calls, index.key calls item = .ok (keyAt position))
    (distinct : (keys.map (·.1) ++ positions).Nodup) :
    ∃ calls, (keysFrom index keys positions).result pass =
      (.ok (keys ++ keyed keyAt positions), { pass with calls }) := by
  induction positions generalizing keys pass with
  | nil => exact ⟨pass.calls, by simp [keysFrom, keyed]⟩
  | cons position rest ih =>
    rw [List.forall_mem_cons] at told
    obtain ⟨⟨item, found, known⟩, others⟩ := told
    have asked : (index.askKey item).result pass =
        (.ok (keyAt position), { pass with calls := .key item :: pass.calls }) := by
      rw [CaseIndex.askKey, CaseIndex.result_ask, known]
    have read : (Attempt.ofExcept (pass.results.itemAt position) :
        Scoring Item Key F Item).result pass = (.ok item, pass) := by
      rw [Attempt.result_ofExcept, found]
    -- What is asked next is asked of the same result set.
    have next := fun keys => @ih { pass with calls := .key item :: pass.calls } keys others
    rw [keysFrom, Attempt.result_bind_ok (Attempt.result_get pass), Attempt.result_bind_ok read,
      Attempt.result_bind_ok asked]
    cases key : keyAt position with
    | none =>
      have fewer : (keys.map (·.1) ++ rest).Nodup :=
        distinct.sublist ((List.sublist_cons_self position rest).append_left _)
      obtain ⟨calls, run⟩ := next keys fewer
      exact ⟨calls, by simpa [keyed, key] using run⟩
    | some key' =>
      have new : ∀ entry ∈ keys, (position == entry.1) = false := by
        intro entry member
        rw [beq_eq_false_iff_ne]
        exact ((List.nodup_append.mp distinct).2.2 _ (List.mem_map_of_mem member) _
          List.mem_cons_self).symm
      have longer : ((keys ++ [(position, key')]).map (·.1) ++ rest).Nodup := by
        simpa using distinct
      obtain ⟨calls, run⟩ := next _ longer
      refine ⟨calls, ?_⟩
      dsimp only
      rw [putEntry_of_forall_ne new, run]
      simp [keyed, key]

/-- Where the keys of all positions are told, a fetch asks for the keys, then for their vectors in
ascending order of the positions, and reads what it is answered. -/
theorem result_fetchFeatures [BEq Key] {keyAt : Position → Option Key} (distinct : positions.Nodup)
    (told : ∀ position ∈ positions, ∃ item, pass.results.itemAt position = .ok item ∧
      ∀ calls, index.key calls item = .ok (keyAt position)) :
    let sorted := positions.mergeSort fun a b => decide (a ≤ b)
    let keys := keyed keyAt sorted
    ∃ asked, (keysFrom index [] sorted).result pass = (.ok keys, { pass with calls := asked }) ∧
      (fetchFeatures index positions).result pass =
        (index.vectors asked (keys.map (·.2)) >>= fun stored => vectorsOf stored keys,
          { pass with calls := .vectors (keys.map (·.2)) :: asked }) := by
  intro sorted keys
  have kept := List.mergeSort_perm positions fun a b => decide (a ≤ b)
  obtain ⟨asked, run⟩ : ∃ calls, (keysFrom index [] sorted).result pass =
      (.ok ([] ++ keys), { pass with calls }) :=
    result_keysFrom (fun position member => told position (kept.mem_iff.mp member))
      (kept.nodup_iff.mpr distinct)
  refine ⟨asked, run, ?_⟩
  have answered : (index.askVectors (keys.map (·.2))).result { pass with calls := asked } =
      (index.vectors asked (keys.map (·.2)),
        { pass with calls := .vectors (keys.map (·.2)) :: asked }) := by
    rw [CaseIndex.askVectors, CaseIndex.result_ask]
  rw [fetchFeatures, Attempt.result_bind_ok run, List.nil_append]
  cases vectors : index.vectors asked (keys.map (·.2)) with
  | error fault => exact Attempt.result_bind_error (vectors ▸ answered)
  | ok stored =>
    rw [Attempt.result_bind_ok (vectors ▸ answered), Attempt.result_ofExcept]
    rfl

/-- Where all features that are stored can be cast to vectors, they are, and every vector that is
read is one of these. -/
theorem exists_vectorsOf_eq_ok [BEq Key] {P : FeatureVector F → Prop}
    {stored : List (Key × Option (Features F))}
    (castable : ∀ entry ∈ stored, ∀ features, entry.2 = some features →
      ∃ vector, features.toVector = .ok vector ∧ P vector) (keys : List (Position × Key)) :
    ∃ vectors, vectorsOf stored keys = .ok vectors ∧ ∀ entry ∈ vectors, P entry.2 := by
  induction keys with
  | nil => exact ⟨[], rfl, by simp⟩
  | cons entry rest ih =>
    obtain ⟨position, key⟩ := entry
    obtain ⟨others, read, meets⟩ := ih
    rw [vectorsOf]
    cases known : (stored.lookup key).join with
    | none => exact ⟨others, read, meets⟩
    | some features =>
      obtain ⟨found, member, same⟩ := exists_of_lookup_eq_some (Option.join_eq_some_iff.mp known)
      obtain ⟨vector, cast, meets'⟩ := castable found member features same.2
      refine ⟨(position, vector) :: others, ?_, ?_⟩
      · simp only [cast, read]
        rfl
      · rw [List.forall_mem_cons]
        exact ⟨meets', meets⟩

end Fetch

section Reorder

open Chain

variable {order : List Position} {tailStart window : Int} {reference : List (Number F)}
  {features : Position → Except Fault (List (Number F))} {vectorOf : Position → List (Number F)}

/-- A reordering keeps the places in front of the tail. -/
theorem upTo_reorder (start : 1 ≤ tailStart) :
    Position.upTo tailStart
        (reorder chainDistance order tailStart features reference window).order =
      Position.upTo tailStart order := by
  obtain ⟨first, rfl⟩ : ∃ first : ℕ, tailStart = ((first + 1 : ℕ) : Int) :=
    ⟨(tailStart - 1).toNat, by omega⟩
  have kept := take_reorder chainDistance order ((first + 1 : ℕ) : Int) features reference window
  have cut : (((first + 1 : ℕ) : Int) - 1).toNat + 1 = first + 1 := by omega
  rwa [cut, ← Position.upTo_natCast, ← Position.upTo_natCast] at kept

/-- A reordering keeps the entries of the tail. -/
theorem after_reorder_perm (start : 1 ≤ tailStart) :
    (Position.after tailStart
      (reorder chainDistance order tailStart features reference window).order).Perm
      (Position.after tailStart order) := by
  have kept := reorder_perm chainDistance order tailStart features reference window
  rw [← Position.upTo_append_after tailStart (reorder ..).order, upTo_reorder start] at kept
  conv at kept => rhs; rw [← Position.upTo_append_after tailStart order]
  exact (List.perm_append_left_iff _).mp kept

/-- Vectors of the length of the reference can all be measured. -/
theorem fault_reorder_of_length_eq (start : 1 ≤ tailStart)
    (long : 2 < (order.length : Int) - tailStart)
    (fetched : ∀ p ∈ order.drop (tailStart - 1).toNat, features p = .ok (vectorOf p))
    (same : ∀ p ∈ order.drop (tailStart - 1).toNat, (vectorOf p).length = reference.length) :
    (reorder chainDistance order tailStart features reference window).fault = none := by
  have uncapped : ∀ p ∈ order.drop (tailStart - 1).toNat, ∀ calls,
      chainDistance calls reference (vectorOf p) none =
        .ok (measuredLink vectorOf reference p).fromReference :=
    fun p member _ => Distance.square_of_length_eq (same p member).symm none
  obtain ⟨seed, -, unharmed, -⟩ := reorder_eq_arrangeLeaders window fetched uncapped
    (fun p member q member' =>
      decides_chainDistance ((same p member).trans (same q member').symm)) trivial start long
  exact unharmed

/-- What has been measured against the reference has its length. -/
theorem length_eq_of_measureLinks {positions : List Position}
    {calls calls' : List (Call Position F)} {links : List (Link Position (List (Number F)) F)}
    (fetched : ∀ p ∈ positions, features p = .ok (vectorOf p))
    (measured : (measureLinks chainDistance features reference positions).result calls =
      (.ok links, calls')) : ∀ p ∈ positions, (vectorOf p).length = reference.length := by
  induction positions generalizing calls calls' links with
  | nil => exact nofun
  | cons position rest ih =>
    rw [List.forall_mem_cons] at fetched ⊢
    rw [measureLinks, fetched.1] at measured
    obtain ⟨vector, calls₁, known, measured⟩ := Attempt.bind_eq_ok measured
    cases known
    obtain ⟨fromReference, calls₂, answered, measured⟩ := Attempt.bind_eq_ok measured
    obtain ⟨others, calls₃, rest_measured, done⟩ := Attempt.bind_eq_ok measured
    refine ⟨?_, ih fetched.2 rest_measured⟩
    by_contra differs
    have failed : chainDistance calls reference (vectorOf position) none =
        .error (.shapesDiffer [reference.length] [(vectorOf position).length]) :=
      if_pos (Ne.symm differs)
    simp [Chain.measure, Attempt.result, failed] at answered

/-- What is reordered without a fault has the length of the reference. -/
theorem length_eq_of_fault_eq_none (long : 2 < (order.length : Int) - tailStart)
    (fetched : ∀ p ∈ order.drop (tailStart - 1).toNat, features p = .ok (vectorOf p))
    (unharmed : (reorder chainDistance order tailStart features reference window).fault = none) :
    ∀ p ∈ order.drop (tailStart - 1).toNat, (vectorOf p).length = reference.length := by
  cases measured : (measureLinks chainDistance features reference
    (order.drop (tailStart - 1).toNat)).result [] with
  | mk outcome calls =>
    cases outcome with
    | error fault =>
      rw [reorder_of_unmeasured long measured] at unharmed
      cases unharmed
    | ok links => exact length_eq_of_measureLinks fetched measured

/-- A vector of another length stops the measuring before anything has moved. -/
theorem order_reorder_of_fault (start : 1 ≤ tailStart)
    (fetched : ∀ p ∈ order.drop (tailStart - 1).toNat, features p = .ok (vectorOf p))
    {fault : Fault}
    (failed : (reorder chainDistance order tailStart features reference window).fault =
      some fault) :
    (reorder chainDistance order tailStart features reference window).order = order ∧
      ∃ p ∈ order.drop (tailStart - 1).toNat, (vectorOf p).length ≠ reference.length := by
  have long : 2 < (order.length : Int) - tailStart := by
    by_contra short
    rw [reorder_of_short (Int.not_lt.mp short)] at failed
    cases failed
  have differs : ∃ p ∈ order.drop (tailStart - 1).toNat,
      (vectorOf p).length ≠ reference.length := by
    by_contra same
    push Not at same
    rw [fault_reorder_of_length_eq start long fetched same] at failed
    cases failed
  refine ⟨?_, differs⟩
  cases measured : (measureLinks chainDistance features reference
    (order.drop (tailStart - 1).toNat)).result [] with
  | mk outcome calls =>
    cases outcome with
    | error fault' => rw [reorder_of_unmeasured long measured]
    | ok links =>
      obtain ⟨p, member, other⟩ := differs
      exact absurd (length_eq_of_measureLinks fetched measured p member) other

end Reorder

end Lookalike.Scorer
