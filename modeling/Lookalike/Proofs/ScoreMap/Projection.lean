import Lookalike.Proofs.ScoreMap.Scan

/-!
# Scores written to a result set

Where every item has a key that can be looked up, or none, every position of the result set gets the
score of its item's key, or zero if that has no score, and the positions of the former are returned
in order.

## Main definitions

* `ScoreMap.itemScore?`, the score of an item's key
* `ScoreMap.rescored`, a candidate with its new score
* `ScoreMap.matchedFrom`, the positions whose item has a score

## Main statements

* `ScoreMap.result_projectFrom`
* `ScoreMap.mem_matchedFrom_iff`, `ScoreMap.pairwise_matchedFrom`
-/

namespace Lookalike.ScoreMap

variable {Item Key Hash : Type} {F : Format}

/-- A score is written at a position of the result set. -/
theorem result_writeScore {done rest : List (Candidate Item F)} {candidate : Candidate Item F}
    (pass : Pass Item Key F) (score : Number F)
    (candidates : pass.results.candidates.toList = done ++ candidate :: rest) :
    (writeScore done.length score).result pass =
      (.ok (), { pass with
        results := ⟨(done ++ { candidate with score } :: rest).toArray⟩ }) := by
  have within : done.length < pass.results.candidates.size := by
    rw [← Array.length_toList, candidates]
    simp
  have modified : pass.results.candidates.modify done.length
      (fun candidate => { candidate with score }) =
      (done ++ { candidate with score } :: rest).toArray := by
    apply Array.toList_inj.mp
    rw [Array.toList_modify, candidates]
    simp [List.modify_eq_take_drop]
  have written : (ResultSet.write (done.length : ℕ) score).result pass.results =
      (.ok (), ⟨(done ++ { candidate with score } :: rest).toArray⟩) := by
    simp only [Attempt.result, ResultSet.write, ResultSet.setScore, ResultSet.size]
    rw [Position.index?_natCast within]
    simp [modified]
  rw [writeScore, Attempt.result_within, written]

variable [BEq Key] {keyOf : Item → Option Key} {scores : List (Key × Number F)}

/-- The score of an item's key, if it has a key and that has a score. -/
def itemScore? (scores : List (Key × Number F)) (keyOf : Item → Option Key) (item : Item) :
    Option (Number F) :=
  (keyOf item).bind fun key => scores.lookup key

/-- A candidate with the score of its item's key, or zero. -/
def rescored (scores : List (Key × Number F)) (keyOf : Item → Option Key)
    (candidate : Candidate Item F) : Candidate Item F :=
  { candidate with score := (itemScore? scores keyOf candidate.item).getD 0 }

/-- Rescored candidates have the scores of their items' keys, or zero. -/
theorem scores_rescored (results : ResultSet Item F) :
    (⟨results.candidates.map (rescored scores keyOf)⟩ : ResultSet Item F).scores =
      results.items.map fun item => (itemScore? scores keyOf item).getD 0 := by
  simp [ResultSet.scores, ResultSet.items, rescored]

/-- Rescored candidates are the same items. -/
theorem items_rescored (results : ResultSet Item F) :
    (⟨results.candidates.map (rescored scores keyOf)⟩ : ResultSet Item F).items =
      results.items := by
  simp [ResultSet.items, rescored]

/-- The positions of the items whose key has a score, counted on from a position. -/
def matchedFrom (scores : List (Key × Number F)) (keyOf : Item → Option Key) (position : ℕ) :
    List Item → List Position
  | [] => []
  | item :: rest =>
    if (itemScore? scores keyOf item).isSome then
      (position : Position) :: matchedFrom scores keyOf (position + 1) rest
    else matchedFrom scores keyOf (position + 1) rest

theorem mem_matchedFrom_iff {position : ℕ} {items : List Item} {sought : Position} :
    sought ∈ matchedFrom scores keyOf position items ↔
      ∃ k item, items[k]? = some item ∧ (itemScore? scores keyOf item).isSome ∧
        sought = (position + k : ℕ) := by
  induction items generalizing position with
  | nil => simp [matchedFrom]
  | cons item rest ih =>
    have split : (∃ k item', (item :: rest)[k]? = some item' ∧
        (itemScore? scores keyOf item').isSome ∧ sought = (position + k : ℕ)) ↔
        ((itemScore? scores keyOf item).isSome ∧ sought = (position : ℕ)) ∨
          ∃ k item', rest[k]? = some item' ∧ (itemScore? scores keyOf item').isSome ∧
            sought = (position + 1 + k : ℕ) := by
      constructor
      · rintro ⟨_ | k, item', found, scored, rfl⟩
        · obtain rfl := Option.some.inj found
          exact .inl ⟨scored, rfl⟩
        · exact .inr ⟨k, item', found, scored, by rw [Nat.add_right_comm]; rfl⟩
      · rintro (⟨scored, rfl⟩ | ⟨k, item', found, scored, rfl⟩)
        · exact ⟨0, item, rfl, scored, rfl⟩
        · exact ⟨k + 1, item', found, scored, by rw [Nat.add_right_comm]; rfl⟩
    rw [split, matchedFrom, ← ih]
    cases scored : (itemScore? scores keyOf item).isSome <;> simp

theorem pairwise_matchedFrom {position : ℕ} {items : List Item} :
    (matchedFrom scores keyOf position items).Pairwise (· < ·) := by
  induction items generalizing position with
  | nil => exact .nil
  | cons item rest ih =>
    rw [matchedFrom]
    split_ifs
    · refine .cons ?_ ih
      intro later member
      obtain ⟨k, -, -, -, rfl⟩ := mem_matchedFrom_iff.mp member
      change (position : Int) < ((position + 1 + k : ℕ) : Int)
      omega
    · exact ih

section Project

variable [TableKey Key] {index : CaseIndex Item Key Hash F}

theorem scoreFor_keyOf {item : Item}
    (hashable : ∀ key, keyOf item = some key → TableKey.isKey key) :
    scoreFor scores (keyOf item) = .ok (itemScore? scores keyOf item) := by
  cases key : keyOf item with
  | none => simp [scoreFor, itemScore?, key]
  | some key' => simp [scoreFor, itemScore?, key, hashable key' key]

/-- Every position from one on gets its score, and nothing but the record of questions changes
besides. The induction is on the candidates to come; those that are done stay in front. -/
theorem result_projectFrom (done : List (Candidate Item F)) {rest : List (Candidate Item F)}
    (pass : Pass Item Key F)
    (keys : ∀ calls, ∀ candidate ∈ rest,
      index.key calls candidate.item = .ok (keyOf candidate.item))
    (hashable : ∀ candidate ∈ rest, ∀ key, keyOf candidate.item = some key → TableKey.isKey key)
    (candidates : pass.results.candidates.toList = done ++ rest) :
    ∃ calls, (projectFrom index scores done.length (rest.map (·.item))).result pass =
      (.ok (matchedFrom scores keyOf done.length (rest.map (·.item))),
        { pass with
          results := ⟨(done ++ rest.map (rescored scores keyOf)).toArray⟩
          calls }) := by
  induction rest generalizing done pass with
  | nil =>
    refine ⟨pass.calls, ?_⟩
    have same : (⟨(done ++ []).toArray⟩ : ResultSet Item F) = pass.results := by
      rw [← candidates]
    simp only [List.map_nil, same]
    rfl
  | cons candidate rest ih =>
    -- The state in which the position is written: the key has been asked for.
    let pass' : Pass Item Key F := { pass with calls := .key candidate.item :: pass.calls }
    have asked : (index.askKey candidate.item).result pass =
        (.ok (keyOf candidate.item), pass') := by
      rw [CaseIndex.askKey, CaseIndex.result_ask, keys _ _ List.mem_cons_self]
    have scored : scoreFor scores (keyOf candidate.item) =
        .ok (itemScore? scores keyOf candidate.item) :=
      scoreFor_keyOf (hashable _ List.mem_cons_self)
    have written := fun score => result_writeScore pass' score candidates
    obtain ⟨calls, projected⟩ := ih (done ++ [rescored scores keyOf candidate])
      { pass' with results := ⟨(done ++ rescored scores keyOf candidate :: rest).toArray⟩ }
      (fun calls other member => keys calls other (List.mem_cons_of_mem _ member))
      (fun other member => hashable other (List.mem_cons_of_mem _ member)) (by simp)
    rw [List.length_append, List.length_singleton, List.append_assoc] at projected
    refine ⟨calls, ?_⟩
    rw [List.map_cons, projectFrom, Attempt.result_bind_ok asked, scored,
      Attempt.result_bind_ok (Attempt.result_ofExcept _ _), matchedFrom]
    cases found : itemScore? scores keyOf candidate.item with
    | some score =>
      have updated : { candidate with score } = rescored scores keyOf candidate := by
        rw [rescored, found]
        rfl
      simp only
      rw [Attempt.result_bind_ok (written score), updated, Attempt.result_bind_ok projected]
      rfl
    | none =>
      have updated : { candidate with score := 0 } = rescored scores keyOf candidate := by
        rw [rescored, found]
        rfl
      simp only
      rw [Attempt.result_bind_ok (written 0), updated]
      exact projected

end Project

end Lookalike.ScoreMap
