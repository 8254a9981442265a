import Lookalike.Proofs.ResultSet
import Lookalike.Proofs.ScoreMap.Projection

/-!
# Scoring passes that end well

The answers of an index may depend on what it has been asked before. A scoring pass that ends well
has still accepted a first part of the ranked neighbors, each with the score that the answers at its
own turn make up, and every position of the result set holds the score of the key that was told for
its item, or zero.

## Main definitions

* `ScoreMap.callsBefore`, what has been asked when a neighbor is scored
* `ScoreMap.scored`, neighbors with the scores of their turns
* `ScoreMap.Scanned`, how far a scan gets
* `ScoreMap.isCompared`, `ScoreMap.lookupFault?`, whether the hash of a neighbor is asked for, and
  the fault that comes of it
* `ScoreMap.ending`, how a scan ends at a neighbor, if it does
* `ScoreMap.toldKeys`, the keys that are told for items one after the other
* `ScoreMap.Projected`, what a projection makes of a result set

## Main statements

* `ScoreMap.result_scanFrom_cons`, one turn of a scan
* `ScoreMap.scanFrom_eq_ok`, `ScoreMap.projectFrom_eq_ok`
* `ScoreMap.build_eq_ok`, `ScoreMap.build_eq_scanned`
-/

namespace Lookalike.ScoreMap

variable {Item Key Hash : Type} {F : Format} {index : CaseIndex Item Key Hash F}

section Scan

variable [BEq Hash] {features : Int} {referenceHash : Option Hash} {settings : Settings F}
  {calls : List (IndexCall Item Key)} {neighbor : Key × Number F}
  {neighbors : List (Key × Number F)}

/-- What has been asked after a neighbor has been scored: its hash, where it was compared. -/
def callsAfter (settings : Settings F) (referenceHash : Option Hash)
    (calls : List (IndexCall Item Key)) (neighbor : Key × Number F) : List (IndexCall Item Key) :=
  if referenceHash.isSome && Relevance.isNearZero settings (Relevance.toDistance neighbor.2) then
    .hash neighbor.1 :: calls
  else calls

/-- What has been asked when the `k`-th neighbor is scored. -/
def callsBefore (settings : Settings F) (referenceHash : Option Hash)
    (calls : List (IndexCall Item Key)) (neighbors : List (Key × Number F)) (k : ℕ) :
    List (IndexCall Item Key) :=
  (neighbors.take k).foldl (callsAfter settings referenceHash) calls

/-- Neighbors in order, each with the score that the answer at its turn makes up. -/
def scored (index : CaseIndex Item Key Hash F) (features : Int) (referenceHash : Option Hash)
    (settings : Settings F) (calls : List (IndexCall Item Key))
    (neighbors : List (Key × Number F)) : List (Key × Number F) :=
  neighbors.mapIdx fun k neighbor =>
    (neighbor.1, neighborScore settings features referenceHash
      (index.hash (callsBefore settings referenceHash calls neighbors k)) neighbor)

theorem scored_cons :
    scored index features referenceHash settings calls (neighbor :: neighbors) =
      (neighbor.1, neighborScore settings features referenceHash (index.hash calls) neighbor) ::
        scored index features referenceHash settings
          (callsAfter settings referenceHash calls neighbor) neighbors :=
  List.mapIdx_cons

/-- A scan stops at a neighbor whose score is too low, or for which the storage fails. -/
def Stops (index : CaseIndex Item Key Hash F) (features : Int) (referenceHash : Option Hash)
    (settings : Settings F) (calls : List (IndexCall Item Key)) (neighbor : Key × Number F) :
    Prop :=
  neighborScore settings features referenceHash (index.hash calls) neighbor < settings.minScore ∨
    ∃ kind detail, index.hash calls neighbor.1 = .error (.storage kind detail)

/-- A scan accepts the first `kept` neighbors and looks at `seen`: all of them, or one more than it
accepts, at which it stops. -/
structure Scanned (index : CaseIndex Item Key Hash F) (features : Int)
    (referenceHash : Option Hash) (settings : Settings F) (calls : List (IndexCall Item Key))
    (neighbors : List (Key × Number F)) (kept seen : ℕ) : Prop where
  reaches : ∀ entry ∈ (scored index features referenceHash settings calls neighbors).take kept,
    ¬ entry.2 < settings.minScore
  stops : seen = kept ∧ kept = neighbors.length ∨ seen = kept + 1 ∧
    ∃ neighbor, neighbors[kept]? = some neighbor ∧ Stops index features referenceHash settings
      (callsBefore settings referenceHash calls neighbors kept) neighbor

/-- An accepted neighbor in front is one more that is accepted and looked at. -/
theorem Scanned.cons {kept seen : ℕ}
    (scanned : Scanned index features referenceHash settings
      (callsAfter settings referenceHash calls neighbor) neighbors kept seen)
    (reaches : ¬ neighborScore settings features referenceHash (index.hash calls) neighbor <
      settings.minScore) :
    Scanned index features referenceHash settings calls (neighbor :: neighbors) (kept + 1)
      (seen + 1) where
  reaches := by
    rw [scored_cons, List.take_succ_cons, List.forall_mem_cons]
    exact ⟨reaches, scanned.reaches⟩
  stops := by
    rcases scanned.stops with ⟨all, whole⟩ | ⟨more, stopped, found, stops⟩
    · exact .inl ⟨by rw [all], by rw [whole, List.length_cons]⟩
    · exact .inr ⟨by rw [more], stopped, found, stops⟩

theorem Scanned.of_stops
    (stops : Stops index features referenceHash settings calls neighbor) :
    Scanned index features referenceHash settings calls (neighbor :: neighbors) 0 1 where
  reaches := by simp
  stops := .inr ⟨rfl, neighbor, rfl, stops⟩

/-- Whether the content hash of a neighbor is asked for when the neighbor is scored. -/
def isCompared (settings : Settings F) (referenceHash : Option Hash) (neighbor : Key × Number F) :
    Bool :=
  referenceHash.isSome && Relevance.isNearZero settings (Relevance.toDistance neighbor.2)

/-- What keeps a neighbor from being scored: the fault that its content hash is answered with, where
that is asked for. A hash that cannot be fetched for the moment does not. -/
def lookupFault? (settings : Settings F) (referenceHash : Option Hash)
    (answer : Except Fault (Option Hash)) (neighbor : Key × Number F) : Option Fault :=
  if isCompared settings referenceHash neighbor then
    match answer with
    | .ok _ => none
    | .error (.hashLookup _) => none
    | .error fault => some fault
  else none

omit [BEq Hash] in
/-- What keeps a neighbor from being scored is what its look-up has been answered with. -/
theorem eq_error_of_lookupFault? {answer : Except Fault (Option Hash)} {fault : Fault}
    (failed : lookupFault? settings referenceHash answer neighbor = some fault) :
    isCompared settings referenceHash neighbor ∧ answer = .error fault := by
  unfold lookupFault? at failed
  split_ifs at failed with compared
  refine ⟨compared, ?_⟩
  split at failed
  · cases failed
  · cases failed
  · exact congrArg _ (Option.some.inj failed)

/-- The score of a neighbor is what the answer at its turn makes up, or the fault of the answer. -/
theorem result_displayScore_neighbor (positive : 0 < features)
    (finite : (Number.ofInt F features).isFinite) (index : CaseIndex Item Key Hash F)
    (referenceHash : Option Hash) (settings : Settings F) (neighbor : Key × Number F)
    (pass : Pass Item Key F) :
    (Relevance.displayScore settings features neighbor.2
        (isDuplicate index referenceHash neighbor.1)).result pass =
      ((lookupFault? settings referenceHash (index.hash pass.calls neighbor.1) neighbor).elim
          (.ok (neighborScore settings features referenceHash (index.hash pass.calls) neighbor))
          .error,
        { pass with calls := callsAfter settings referenceHash pass.calls neighbor }) := by
  cases near : Relevance.isNearZero settings (Relevance.toDistance neighbor.2) with
  | false =>
    -- Nothing is compared.
    simp only [Relevance.displayScore, Relevance.formulaScore_eq positive finite, near, callsAfter,
      lookupFault?, isCompared, neighborScore, Relevance.scoreOf, Bool.and_false,
      Bool.false_and, Bool.false_eq_true, if_false]
    rfl
  | true =>
    cases referenceHash with
    | none =>
      have alone : (isDuplicate index none neighbor.1).result pass = (.ok false, pass) := rfl
      rw [Relevance.result_displayScore positive finite alone, if_pos near]
      rfl
    | some reference =>
      let asked : Pass Item Key F := { pass with calls := .hash neighbor.1 :: pass.calls }
      have answered : (Attempt.outcome (index.askHash neighbor.1)).result pass =
          (.ok (index.hash pass.calls neighbor.1), asked) := by
        rw [Attempt.result_outcome, CaseIndex.askHash, CaseIndex.result_ask]
      -- A comparison that succeeds is taken into the score, and one that fails is passed on.
      have scored : ∀ copy,
          (isDuplicate index (some reference) neighbor.1).result pass = (.ok copy, asked) →
            (Relevance.displayScore settings features neighbor.2
              (isDuplicate index (some reference) neighbor.1)).result pass =
              (.ok (Relevance.scoreOf settings (Number.ofInt F features) neighbor.2 copy),
                asked) := by
        intro copy ran
        rw [Relevance.result_displayScore positive finite ran, if_pos near]
      have failed : ∀ fault,
          (isDuplicate index (some reference) neighbor.1).result pass = (.error fault, asked) →
            (Relevance.displayScore settings features neighbor.2
              (isDuplicate index (some reference) neighbor.1)).result pass =
              (.error fault, asked) := by
        intro fault ran
        simp only [Relevance.displayScore, Relevance.formulaScore_eq positive finite, near, if_true]
        exact Attempt.result_bind_error ran
      simp only [isDuplicate] at scored failed ⊢
      rw [Attempt.result_bind_ok answered] at scored failed
      have after : callsAfter settings (some reference) pass.calls neighbor =
          .hash neighbor.1 :: pass.calls := by
        simp [callsAfter, near]
      simp only [lookupFault?, isCompared, near, after, neighborScore]
      cases answer : index.hash pass.calls neighbor.1 with
      | ok hash =>
        rw [answer] at scored
        cases hash with
        | none => exact scored _ rfl
        | some hash => exact scored _ rfl
      | error fault =>
        rw [answer] at scored failed
        cases fault with
        | hashLookup detail => exact scored _ rfl
        | _ => exact failed _ rfl

/-- Entries put one after the other on top of others. -/
def putAll [BEq Key] (scores entries : List (Key × Number F)) : List (Key × Number F) :=
  entries.foldl (fun scores entry => putEntry entry.1 entry.2 scores) scores

/-- The way in which a scan ends at a neighbor, if it does not go on. It ends well where the storage
fails or the score is too low, and in a fault where a look-up fails in another way or an accepted
key cannot be looked up. -/
def ending [TableKey Key] (index : CaseIndex Item Key Hash F) (features : Int)
    (referenceHash : Option Hash) (settings : Settings F) (calls : List (IndexCall Item Key))
    (neighbor : Key × Number F) : Option (Except Fault Unit) :=
  match lookupFault? settings referenceHash (index.hash calls neighbor.1) neighbor with
  | some (.storage _ _) => some (.ok ())
  | some fault => some (.error fault)
  | none =>
    if neighborScore settings features referenceHash (index.hash calls) neighbor <
        settings.minScore then some (.ok ())
    else if TableKey.isKey neighbor.1 then none
    else some (.error .wrongKind)

/-- Where a scan goes on, the score is not too low. -/
theorem not_lt_of_ending [TableKey Key]
    (goesOn : ending index features referenceHash settings calls neighbor = none) :
    ¬ neighborScore settings features referenceHash (index.hash calls) neighbor <
      settings.minScore := by
  intro below
  unfold ending at goesOn
  split at goesOn
  · cases goesOn
  · cases goesOn
  · rw [if_pos below] at goesOn
    cases goesOn

/-- Where a scan ends well, it stops. -/
theorem stops_of_ending [TableKey Key]
    (ended : ending index features referenceHash settings calls neighbor = some (.ok ())) :
    Stops index features referenceHash settings calls neighbor := by
  unfold ending at ended
  split at ended
  next kind detail failed => exact .inr ⟨kind, detail, (eq_error_of_lookupFault? failed).2⟩
  next => cases ended
  next =>
    split_ifs at ended with below
    · exact .inl below
    · cases ended

/-- One turn of a scan: it ends at the neighbor, or puts its score and goes on. -/
theorem result_scanFrom_cons [BEq Key] [TableKey Key] (positive : 0 < features)
    (finite : (Number.ofInt F features).isFinite) (index : CaseIndex Item Key Hash F)
    (referenceHash : Option Hash) (settings : Settings F) (scores : List (Key × Number F))
    (seen : ℕ) (neighbor : Key × Number F) (rest : List (Key × Number F))
    (pass : Pass Item Key F) :
    let after : Pass Item Key F :=
      { pass with calls := callsAfter settings referenceHash pass.calls neighbor }
    (scanFrom index features referenceHash settings scores seen (neighbor :: rest)).result pass =
      match ending index features referenceHash settings pass.calls neighbor with
      | some ended => (ended.map fun _ => (scores, seen + 1), after)
      | none => (scanFrom index features referenceHash settings (putEntry neighbor.1
          (neighborScore settings features referenceHash (index.hash pass.calls) neighbor) scores)
          (seen + 1) rest).result after := by
  intro after
  rw [scanFrom, Attempt.result_bind_ok (Attempt.result_outcome _ _),
    result_displayScore_neighbor positive finite, ending]
  cases lookupFault? settings referenceHash (index.hash pass.calls neighbor.1) neighbor with
  | some fault => cases fault <;> rfl
  | none =>
    dsimp only [Option.elim_none]
    by_cases below : neighborScore settings features referenceHash (index.hash pass.calls)
        neighbor < settings.minScore
    · rw [if_pos below, if_pos below]
      rfl
    · rw [if_neg below, if_neg below]
      cases TableKey.isKey neighbor.1 <;> rfl

/-- A scan that ends well has put the scores of a first part of the neighbors. The induction is on
the neighbors; each is scored with what has been asked before it. -/
theorem scanFrom_eq_ok [BEq Key] [TableKey Key] (positive : 0 < features)
    (finite : (Number.ofInt F features).isFinite) {scores scores' : List (Key × Number F)}
    {seen seen' : ℕ} {pass pass' : Pass Item Key F}
    (run : (scanFrom index features referenceHash settings scores seen neighbors).result pass =
      (.ok (scores', seen'), pass')) :
    ∃ kept count, Scanned index features referenceHash settings pass.calls neighbors kept count ∧
      scores' = putAll scores
        ((scored index features referenceHash settings pass.calls neighbors).take kept) ∧
      seen' = seen + count ∧
      pass' = { pass with
        calls := callsBefore settings referenceHash pass.calls neighbors count } := by
  induction neighbors generalizing scores seen pass with
  | nil =>
    cases run
    exact ⟨0, 0, ⟨by simp, .inl ⟨rfl, rfl⟩⟩, rfl, rfl, rfl⟩
  | cons neighbor rest ih =>
    rw [result_scanFrom_cons positive finite] at run
    cases turn : ending index features referenceHash settings pass.calls neighbor with
    | some ended =>
      rw [turn] at run
      cases ended with
      | error fault => cases run
      | ok _ =>
        cases run
        exact ⟨0, 1, .of_stops (stops_of_ending turn), rfl, rfl, rfl⟩
    | none =>
      rw [turn] at run
      obtain ⟨kept, count, scanned, rfl, rfl, rfl⟩ := ih run
      refine ⟨kept + 1, count + 1, scanned.cons (not_lt_of_ending turn), ?_, by omega, rfl⟩
      rw [scored_cons, List.take_succ_cons]
      rfl

end Scan

/-- Writing a score replaces one entry of the scores and nothing else. -/
theorem exists_result_writeScore (pass : Pass Item Key F) {position : ℕ}
    (within : position < pass.results.size) (score : Number F) :
    ∃ results, (writeScore position score).result pass = (.ok (), { pass with results }) ∧
      results.items = pass.results.items ∧
      results.scores = pass.results.scores.set position score := by
  obtain ⟨results, wrote, items, written⟩ := ResultSet.result_write within score
  refine ⟨results, ?_, items, written⟩
  rw [writeScore, Attempt.result_within, wrote]

section Project

variable [BEq Key] {scores : List (Key × Number F)}

/-- A result set after a projection: every position has the score of the key that was told for its
item, or zero, and the positions of the former are matched. -/
structure Projected (scores : List (Key × Number F)) (keys : List (Option Key))
    (matched : List Position) (results : ResultSet Item F) : Prop where
  matched_eq : matched = matchedFrom scores id 0 keys
  scores_eq : results.scores = keys.map fun key => (itemScore? scores id key).getD 0

namespace Projected

variable {keys : List (Option Key)} {matched : List Position} {results : ResultSet Item F} {k : ℕ}

theorem getElem?_scores (projected : Projected scores keys matched results) (k : ℕ) :
    results.scores[k]? = keys[k]?.map fun key => (itemScore? scores id key).getD 0 := by
  rw [projected.scores_eq, List.getElem?_map]

/-- A position is matched when the key that was told for its item has a score, which it holds. -/
theorem mem_matched_iff (projected : Projected scores keys matched results) :
    (k : Position) ∈ matched ↔ ∃ key score, keys[k]? = some (some key) ∧
      scores.lookup key = some score ∧ results.scores[k]? = some score := by
  rw [projected.matched_eq, mem_matchedFrom_iff]
  constructor
  · rintro ⟨j, key?, found, known, same⟩
    obtain rfl : k = j := by
      have := Int.ofNat.inj same
      omega
    obtain ⟨score, lookup⟩ := Option.isSome_iff_exists.mp known
    obtain ⟨key, rfl, lookup'⟩ := Option.bind_eq_some_iff.mp lookup
    exact ⟨key, score, found, lookup', by simp [projected.getElem?_scores, found, lookup]⟩
  · rintro ⟨key, score, found, lookup, -⟩
    exact ⟨k, some key, found, by simp [itemScore?, lookup], by rw [Nat.zero_add]⟩

/-- A position that is not matched holds zero. -/
theorem getElem?_scores_of_unmatched (projected : Projected scores keys matched results)
    (unmatched : (k : Position) ∉ matched) (within : k < results.size) :
    results.scores[k]? = some 0 := by
  have length := congrArg List.length projected.scores_eq
  rw [ResultSet.length_scores, List.length_map] at length
  have found : keys[k]? = some keys[k] := List.getElem?_eq_getElem (by omega)
  rw [projected.getElem?_scores, found, Option.map_some]
  cases score : itemScore? scores id keys[k] with
  | none => rfl
  | some value =>
    refine absurd ?_ unmatched
    rw [projected.matched_eq, mem_matchedFrom_iff]
    exact ⟨k, keys[k], found, by simp [score], by rw [Nat.zero_add]⟩

/-- Matched positions are counted from the front and lie within the result set. -/
theorem exists_eq_natCast (projected : Projected scores keys matched results)
    {position : Position} (member : position ∈ matched) :
    ∃ k < results.size, position = (k : ℕ) := by
  rw [projected.matched_eq, mem_matchedFrom_iff] at member
  obtain ⟨k, key, found, -, rfl⟩ := member
  have within := (List.getElem?_eq_some_iff.mp found).1
  have length := congrArg List.length projected.scores_eq
  rw [ResultSet.length_scores, List.length_map] at length
  exact ⟨0 + k, by omega, rfl⟩

theorem pairwise_matched (projected : Projected scores keys matched results) :
    matched.Pairwise (· < ·) := by
  rw [projected.matched_eq]
  exact pairwise_matchedFrom

/-- The scores of matched positions can be read. -/
theorem scoreAt_eq_held (projected : Projected scores keys matched results) :
    ∀ position ∈ matched, results.scoreAt position = .ok (results.held position) := by
  intro position member
  obtain ⟨k, within, rfl⟩ := projected.exists_eq_natCast member
  exact ResultSet.scoreAt_eq_held within

end Projected

variable [TableKey Key]

/-- The keys that the index tells for items that it is asked about one after the other. -/
def toldKeys (index : CaseIndex Item Key Hash F) (calls : List (IndexCall Item Key)) :
    List Item → Except Fault (List (Option Key))
  | [] => .ok []
  | item :: rest => do
    let key ← index.key calls item
    let keys ← toldKeys index (.key item :: calls) rest
    pure (key :: keys)

theorem scoreFor_eq_ok {key : Option Key} {score : Option (Number F)}
    (told : scoreFor scores key = .ok score) : itemScore? scores id key = score := by
  cases key with
  | none => exact Except.ok.inj told
  | some key =>
    rw [scoreFor] at told
    split at told
    · exact Except.ok.inj told
    · cases told

/-- A list whose entry at a place is replaced ends there with the new entry. -/
theorem take_succ_set {α : Type} {entries : List α} {k : ℕ} (within : k < entries.length)
    (entry : α) : (entries.set k entry).take (k + 1) = entries.take k ++ [entry] := by
  rw [List.take_succ_eq_append_getElem (by simpa using within), List.getElem_set_self,
    List.take_set_of_le le_rfl]

/-- Where the key of the first item is told and can be looked up, its score is written and the
projection goes on behind it. -/
theorem exists_result_projectFrom_cons {position : ℕ} {item : Item} {key : Option Key}
    {score : Option (Number F)} {pass : Pass Item Key F} (others : List Item)
    (within : position < pass.results.size) (told : index.key pass.calls item = .ok key)
    (found : scoreFor scores key = .ok score) :
    ∃ results, results.items = pass.results.items ∧
      results.scores = pass.results.scores.set position (score.getD 0) ∧
      let rest := (projectFrom index scores (position + 1) others).result
        { pass with results, calls := .key item :: pass.calls }
      (projectFrom index scores position (item :: others)).result pass =
        (rest.1.map fun matched =>
          if score.isSome then (position : Position) :: matched else matched, rest.2) := by
  let asked : Pass Item Key F := { pass with calls := .key item :: pass.calls }
  have answered : (index.askKey item).result pass = (.ok key, asked) := by
    rw [CaseIndex.askKey, CaseIndex.result_ask, told]
  obtain ⟨results, wrote, items, written⟩ := exists_result_writeScore asked within (score.getD 0)
  refine ⟨results, items, written, ?_⟩
  intro rest
  rw [projectFrom, Attempt.result_bind_ok answered, found,
    Attempt.result_bind_ok (Attempt.result_ofExcept _ _)]
  cases score with
  | none =>
    rw [Option.getD_none] at wrote
    dsimp only
    rw [Attempt.result_bind_ok wrote]
    exact Prod.ext (congrFun Except.map_id rest.1).symm rfl
  | some score =>
    rw [Option.getD_some] at wrote
    dsimp only
    rw [Attempt.result_bind_ok wrote]
    cases ended : rest with
    | mk outcome passed =>
      cases outcome with
      | ok matched => exact Attempt.result_bind_ok ended
      | error fault => exact Attempt.result_bind_error ended

/-- A projection that ends well has been told the key of the first item, has written its score and
has gone on behind it. -/
theorem projectFrom_cons_eq_ok {position : ℕ} {item : Item} {others : List Item}
    {matched : List Position} {pass pass' : Pass Item Key F}
    (within : position < pass.results.size)
    (run : (projectFrom index scores position (item :: others)).result pass =
      (.ok matched, pass')) :
    ∃ key score results matched', index.key pass.calls item = .ok key ∧
      scoreFor scores key = .ok score ∧ results.items = pass.results.items ∧
      results.scores = pass.results.scores.set position (score.getD 0) ∧
      (projectFrom index scores (position + 1) others).result
        { pass with results, calls := .key item :: pass.calls } = (.ok matched', pass') ∧
      matched = if score.isSome then (position : Position) :: matched' else matched' := by
  have begun := run
  rw [projectFrom] at begun
  obtain ⟨key, asked, told, begun⟩ := Attempt.bind_eq_ok begun
  rw [CaseIndex.askKey, CaseIndex.result_ask, Prod.mk.injEq] at told
  obtain ⟨score, asked, found, -⟩ := Attempt.bind_eq_ok begun
  rw [Attempt.result_ofExcept, Prod.mk.injEq] at found
  obtain ⟨results, items, written, step⟩ :=
    exists_result_projectFrom_cons others within told.1 found.1
  rw [step] at run
  obtain ⟨outcome, rfl⟩ := Prod.mk.inj run
  obtain ⟨matched', projected, rfl⟩ := exists_of_map_eq_ok outcome
  exact ⟨key, score, results, matched', told.1, found.1, items, written, Prod.ext projected rfl,
    rfl⟩

/-- A projection that ends well has written the score of each key that was told, or zero, and
returns the positions of the former. The induction is on the items to come. -/
theorem projectFrom_eq_ok {position : ℕ} {items : List Item} {matched : List Position}
    {pass pass' : Pass Item Key F} (rest : position + items.length = pass.results.size)
    (run : (projectFrom index scores position items).result pass = (.ok matched, pass')) :
    ∃ keys, toldKeys index pass.calls items = .ok keys ∧
      matched = matchedFrom scores id position keys ∧
      pass'.results.items = pass.results.items ∧
      pass'.results.scores = pass.results.scores.take position ++
        keys.map fun key => (itemScore? scores id key).getD 0 := by
  induction items generalizing position matched pass with
  | nil =>
    cases run
    refine ⟨[], rfl, rfl, rfl, ?_⟩
    rw [List.take_of_length_le (by simpa using rest.ge)]
    simp
  | cons item others ih =>
    rw [List.length_cons] at rest
    have within : position < pass.results.size := by omega
    obtain ⟨key, score, results, matched', told, found, items, written, ran, rfl⟩ :=
      projectFrom_cons_eq_ok within run
    have rest' : position + 1 + others.length = results.size := by
      rw [← ResultSet.length_items, items, ResultSet.length_items]
      omega
    obtain ⟨keys, told', rfl, items', scores'⟩ := ih rest' ran
    have score_eq := scoreFor_eq_ok found
    refine ⟨key :: keys, ?_, ?_, items'.trans items, ?_⟩
    · rw [toldKeys, told, told']
      rfl
    · rw [matchedFrom, score_eq]
    · rw [scores', written, take_succ_set (by simpa using within), List.append_assoc, List.map_cons,
        score_eq, List.singleton_append]

end Project

section Build

variable {reference : FeatureVector F} {referenceHash : Option Hash} {settings : Settings F}
  {map : ScoreMap Key F} {pass primary : Pass Item Key F}

theorem queryNeighbors_eq_ok {ranked : List (Key × Number F)} {pass' : Pass Item Key F}
    (run : (queryNeighbors index reference settings).result pass = (.ok ranked, pass')) :
    ∃ neighbors, index.nearest pass.calls reference settings.maxResults = .ok neighbors ∧
      ranked = Ranking.rank neighbors ∧
      pass' = { pass with calls := .nearest settings.maxResults :: pass.calls } := by
  rw [queryNeighbors, Attempt.result_bind_ok (Attempt.result_outcome _ _), CaseIndex.askNearest,
    CaseIndex.result_ask] at run
  cases found : index.nearest pass.calls reference settings.maxResults with
  | ok neighbors =>
    rw [found] at run
    cases run
    exact ⟨neighbors, rfl, rfl, rfl⟩
  | error fault =>
    rw [found] at run
    cases fault <;> cases run

variable [BEq Key] [TableKey Key] [BEq Hash]

/-- A scoring pass that ends well has asked for neighbors, scanned them by rank and projected the
accepted scores. -/
theorem build_eq_ok (features : reference ≠ []) (busy : pass.results.size ≠ 0)
    (run : (build index (some reference) referenceHash settings).result pass = (.ok map, primary)) :
    ∃ neighbors scanned keys,
      index.nearest pass.calls reference settings.maxResults = .ok neighbors ∧
      (scan index reference.length referenceHash settings (Ranking.rank neighbors)).result
          { pass with calls := .nearest settings.maxResults :: pass.calls } =
        (.ok (map.byKey, map.seen), scanned) ∧
      toldKeys index scanned.calls scanned.results.items = .ok keys ∧
      primary.results.items = scanned.results.items ∧
      Projected map.byKey keys map.matched primary.results := by
  have busy' : (reference.length == 0 || pass.results.size == 0) = false := by
    simp [features, busy]
  change (buildCounting index reference.length reference referenceHash settings).result pass = _
    at run
  rw [buildCounting, Attempt.result_bind_ok (Attempt.result_get pass)] at run
  simp only [busy', Bool.false_eq_true, if_false] at run
  obtain ⟨ranked, queried, asked, run⟩ := Attempt.bind_eq_ok run
  obtain ⟨neighbors, found, rfl, rfl⟩ := queryNeighbors_eq_ok asked
  obtain ⟨⟨byKey, seen⟩, scanned, scan_eq, run⟩ := Attempt.bind_eq_ok run
  obtain ⟨matched, projected, project_eq, done⟩ := Attempt.bind_eq_ok run
  cases done
  rw [project, Attempt.result_bind_ok (Attempt.result_get _)] at project_eq
  obtain ⟨keys, told, matched_eq, items, scores⟩ :=
    projectFrom_eq_ok (by rw [ResultSet.length_items, Nat.zero_add]) project_eq
  exact ⟨neighbors, scanned, keys, found, scan_eq, told, items, matched_eq, scores⟩

/-- A scoring pass over features that can be counted has accepted a first part of the ranked
neighbors, and has asked for the keys of the items after the scan. -/
theorem build_eq_scanned (features : reference ≠ []) (busy : pass.results.size ≠ 0)
    (countable : (Number.ofInt F reference.length).isFinite)
    (run : (build index (some reference) referenceHash settings).result pass = (.ok map, primary)) :
    let asked := .nearest settings.maxResults :: pass.calls
    ∃ neighbors kept keys,
      index.nearest pass.calls reference settings.maxResults = .ok neighbors ∧
      Scanned index reference.length referenceHash settings asked (Ranking.rank neighbors) kept
        map.seen ∧
      map.byKey = putAll [] ((scored index reference.length referenceHash settings asked
        (Ranking.rank neighbors)).take kept) ∧
      toldKeys index (callsBefore settings referenceHash asked (Ranking.rank neighbors) map.seen)
        pass.results.items = .ok keys ∧
      primary.results.items = pass.results.items ∧
      Projected map.byKey keys map.matched primary.results := by
  intro asked
  have positive : 0 < (reference.length : Int) := by
    exact_mod_cast List.length_pos_of_ne_nil features
  obtain ⟨neighbors, scanned, keys, found, scan_eq, told, items, projected⟩ :=
    build_eq_ok features busy run
  obtain ⟨kept, count, reached, byKey, seen, rfl⟩ := scanFrom_eq_ok positive countable scan_eq
  rw [Nat.zero_add] at seen
  subst seen
  exact ⟨neighbors, kept, keys, found, reached, byKey, told, items, projected⟩

end Build

end Lookalike.ScoreMap
