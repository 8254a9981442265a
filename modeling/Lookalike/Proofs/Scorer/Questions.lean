import Mathlib.Data.List.Infix
import Lookalike.Proofs.Scorer.Faults
import Lookalike.Proofs.Scorer.Regrouping

/-!
# The questions of a call

Apart from the keys of items, which are asked for all along, a call puts few questions and puts them
in a fixed order: one query for neighbors, the content hashes of near neighbors up to the one at
which the scan halts, and the vectors for a regrouping in one batch. Whatever the index answers, it
is asked nothing after an answer that ends the call in a fault.

## Main definitions

* `IndexCall.isForKey`, `recorded`, the questions that are not for keys, in order
* `Scoring.PutsOnly`, that a part of a call puts questions of one kind only
* `Scorer.vectorQuestions`, what is asked for a regrouping

## Main statements

* `Scoring.PutsOnly.bind`, `Scoring.PutsOnly.recorded_eq`
* `Scorer.calls_organize`, `Scorer.recorded_build_of_halts`, `Scorer.exists_recorded_score`
* `Scorer.score_questions`, `Scorer.hashes_out_of_order`
-/

namespace Lookalike

variable {Item Key Hash : Type} {F : Format} {index : CaseIndex Item Key Hash F} {α β : Type}

/-- Whether a question is for the key of an item. -/
def IndexCall.isForKey : IndexCall Item Key → Bool
  | .key _ => true
  | _ => false

/-- The questions but for those for keys of items, in the order in which they were put. -/
def recorded (calls : List (IndexCall Item Key)) : List (IndexCall Item Key) :=
  (calls.filter fun call => !call.isForKey).reverse

theorem recorded_cons {call : IndexCall Item Key} (other : call.isForKey = false)
    (calls : List (IndexCall Item Key)) : recorded (call :: calls) = recorded calls ++ [call] := by
  rw [recorded, List.filter_cons_of_pos (by simp [other]), List.reverse_cons]
  rfl

theorem recorded_append {calls : List (IndexCall Item Key)} (put : List (IndexCall Item Key)) :
    recorded (put ++ calls) = recorded calls ++ recorded put := by
  rw [recorded, List.filter_append, List.reverse_append]
  rfl

/-- What a scan asks is recorded in the order of the neighbors. -/
theorem recorded_callsBefore {query : IndexCall Item Key} (other : query.isForKey = false)
    (settings : Settings F) (referenceHash : Option Hash) (calls : List (IndexCall Item Key))
    (neighbors : List (Key × Number F)) (k : ℕ) :
    recorded (ScoreMap.callsBefore settings referenceHash (query :: calls) neighbors k) =
      recorded calls ++ query ::
        ScoreMap.hashQuestions settings referenceHash (neighbors.take k) := by
  have hashes (front : List (Key × Number F)) :
      recorded (ScoreMap.hashQuestions settings referenceHash front :
          List (IndexCall Item Key)).reverse =
        ScoreMap.hashQuestions settings referenceHash front := by
    rw [recorded, List.filter_eq_self.mpr, List.reverse_reverse]
    intro call member
    obtain ⟨neighbor, -, rfl⟩ := List.mem_map.mp (List.mem_reverse.mp member)
    rfl
  rw [ScoreMap.callsBefore_eq, recorded_append, recorded_cons other, hashes, List.append_assoc]
  rfl

namespace Scoring

/-- A part of a scoring call that puts questions of one kind only, if any. -/
def PutsOnly (kind : IndexCall Item Key → Bool) (attempt : Scoring Item Key F α) : Prop :=
  ∀ pass, ∃ put, (attempt.result pass).2.calls = put ++ pass.calls ∧ ∀ call ∈ put, kind call

namespace PutsOnly

variable {kind : IndexCall Item Key → Bool} {attempt : Scoring Item Key F α}
  {next : α → Scoring Item Key F β}

/-- A part that leaves the record of questions alone. -/
theorem of_calls_eq (same : ∀ pass, (attempt.result pass).2.calls = pass.calls) :
    PutsOnly kind attempt := fun pass => ⟨[], same pass, by simp⟩

theorem pure (value : α) : PutsOnly kind (Pure.pure value : Scoring Item Key F α) :=
  of_calls_eq fun _ => rfl

theorem throw (fault : Fault) : PutsOnly kind (throw fault : Scoring Item Key F α) :=
  of_calls_eq fun _ => rfl

theorem get : PutsOnly kind (MonadState.get : Scoring Item Key F (Pass Item Key F)) :=
  of_calls_eq fun _ => rfl

theorem ofExcept (value : Except Fault α) :
    PutsOnly kind (Attempt.ofExcept value : Scoring Item Key F α) :=
  of_calls_eq fun _ => by rw [Attempt.result_ofExcept]

theorem within (attempt : Attempt (ResultSet Item F) α) :
    PutsOnly kind (attempt.within (·.results) fun results (pass : Pass Item Key F) =>
      { pass with results }) := of_calls_eq fun _ => by rw [Attempt.result_within]

theorem ask {call : IndexCall Item Key} (known : kind call)
    (answer : List (IndexCall Item Key) → Except Fault α) :
    PutsOnly kind (CaseIndex.ask (F := F) call answer) := fun pass =>
  ⟨[call], by rw [CaseIndex.result_ask]; rfl, by simpa using known⟩

/-- The questions of both parts are put, those of the second one later. -/
theorem bind (puts : PutsOnly kind attempt) (puts' : ∀ value, PutsOnly kind (next value)) :
    PutsOnly kind (attempt >>= next) := fun pass => by
  obtain ⟨put, calls, all⟩ := puts pass
  cases run : attempt.result pass with
  | mk outcome passed =>
    rw [run] at calls
    cases outcome with
    | ok value =>
      obtain ⟨put', calls', all'⟩ := puts' value passed
      refine ⟨put' ++ put, ?_, ?_⟩
      · rw [Attempt.result_bind_ok run, calls', calls, List.append_assoc]
      · exact List.forall_mem_append.mpr ⟨all', all⟩
    | error fault => exact ⟨put, by rw [Attempt.result_bind_error run, calls], all⟩

/-- A part that asks for keys only leaves the other questions as they were. -/
theorem recorded_eq (puts : PutsOnly IndexCall.isForKey attempt) (pass : Pass Item Key F) :
    recorded (attempt.result pass).2.calls = recorded pass.calls := by
  obtain ⟨put, calls, all⟩ := puts pass
  have none : recorded put = [] := by
    rw [recorded, List.reverse_eq_nil_iff, List.filter_eq_nil_iff]
    intro call member
    simp [all call member]
  rw [calls, recorded_append, none, List.append_nil]

end PutsOnly

end Scoring

namespace ScoreMap

open Scoring

variable [BEq Key] [TableKey Key]

/-- A projection asks for keys only. The induction is on the items to come. -/
theorem putsOnly_projectFrom (index : CaseIndex Item Key Hash F)
    (scores : List (Key × Number F)) (items : List Item) :
    ∀ position : ℕ, PutsOnly IndexCall.isForKey (projectFrom index scores position items) := by
  induction items with
  | nil => exact fun _ => .pure []
  | cons item rest ih =>
    intro position
    refine .bind (.ask rfl _) fun key => .bind (.ofExcept _) fun score => ?_
    cases score with
    | none => exact .bind (.within _) fun _ => ih (position + 1)
    | some score =>
      exact .bind (.within _) fun _ => .bind (ih (position + 1)) fun _ => .pure _

theorem putsOnly_project (index : CaseIndex Item Key Hash F) (scores : List (Key × Number F)) :
    PutsOnly IndexCall.isForKey (project index scores) :=
  .bind .get fun pass => putsOnly_projectFrom index scores pass.results.items 0

/-- Behind the scan a scoring pass asks for keys only. -/
theorem recorded_build [BEq Hash] {reference : FeatureVector F} {referenceHash : Option Hash}
    {settings : Settings F} {pass gathered : Pass Item Key F}
    {scores : List (Key × Number F)} {seen : ℕ} (features : reference ≠ [])
    (busy : pass.results.size ≠ 0)
    (run : (gather index reference referenceHash settings).result pass =
      (.ok (scores, seen), gathered)) :
    recorded ((build index (some reference) referenceHash settings).result pass).2.calls =
      recorded gathered.calls := by
  rw [build_eq_gather features busy, Attempt.result_bind_ok run]
  exact PutsOnly.recorded_eq (.bind (putsOnly_project index scores) fun _ => .pure _) gathered

end ScoreMap

namespace Scorer

open Scoring ScoreMap

theorem putsOnly_keysFrom (index : CaseIndex Item Key Hash F) (positions : List Position) :
    ∀ keys, PutsOnly IndexCall.isForKey (keysFrom index keys positions) := by
  induction positions with
  | nil => exact fun keys => .pure keys
  | cons position rest ih =>
    intro keys
    refine .bind .get fun pass => .bind (.ofExcept _) fun item => .bind (.ask rfl _) fun key => ?_
    cases key with
    | none => exact ih keys
    | some key => exact ih _

variable {scorer : Scorer Hash F} {reference : FeatureVector F} {top : TopList}
  {pass : Pass Item Key F}

/-- Once the vectors have been fetched, nothing is asked. -/
theorem calls_regroup (scorer : Scorer Hash F) (reference : FeatureVector F) (top : TopList)
    (vectors : List (Position × FeatureVector F)) (pass : Pass Item Key F) :
    ((regroup scorer reference top vectors : Scoring Item Key F Unit).result pass).2.calls =
      pass.calls := by
  have silent : PutsOnly (fun _ => false)
      (regroup scorer reference top vectors : Scoring Item Key F Unit) := by
    refine .bind .get fun pass => .bind (.ofExcept _) fun bounds =>
      .bind (.of_calls_eq fun _ => rfl) fun _ => ?_
    split
    · exact .throw _
    · exact .within _
  obtain ⟨put, calls, none⟩ := silent pass
  cases put with
  | nil => exact calls
  | cons call rest => exact absurd (none call List.mem_cons_self) Bool.false_ne_true

variable [BEq Key]

/-- A regrouping puts the questions of its fetch, if the tail is long enough, and no others. -/
theorem calls_organize (scorer : Scorer Hash F) (index : CaseIndex Item Key Hash F)
    (reference : FeatureVector F) (top : TopList) (pass : Pass Item Key F) :
    ((organize scorer index reference top).result pass).2.calls =
      if 2 < top.tailSize then ((fetchFeatures index (neededFor top)).result pass).2.calls
      else pass.calls := by
  split_ifs with long
  -- Whatever the fetch ends with, nothing is asked behind it.
  · cases fetched : (fetchFeatures index (neededFor top)).result pass with
    | mk outcome passed =>
      cases outcome with
      | error fault =>
        obtain ⟨outcome, ended, -⟩ := organize_of_fault scorer reference long fetched
        rw [ended]
      | ok vectors =>
        by_cases complete : (neededFor top).length ≤ vectors.length
        · rw [organize_of_complete scorer reference long fetched complete, calls_regroup]
        · rw [organize_of_incomplete scorer reference long fetched (Nat.not_le.mp complete)]
  · rw [organize_of_short (Int.not_lt.mp long)]

/-- What is asked for a regrouping: the vectors of the keys of the tail and of the position in front
of it, in ascending order of the positions, if the tail is long enough. -/
def vectorQuestions (keyAt : Position → Option Key) (top : TopList) :
    List (IndexCall Item Key) :=
  if 2 < top.tailSize then
    [.vectors (((neededFor top).mergeSort fun a b => decide (a ≤ b)).filterMap keyAt)]
  else []

omit [BEq Key] in
theorem recorded_vectorQuestions (keyAt : Position → Option Key) (top : TopList) :
    recorded (vectorQuestions keyAt top : List (IndexCall Item Key)) =
      vectorQuestions keyAt top := by
  rw [vectorQuestions]
  split_ifs <;> rfl

/-- Where the keys of all listed positions are told, a regrouping is asked for in one batch, and the
batch is the last question of all. -/
theorem exists_calls_organize {items : List Item} {keyOf : Item → Option Key}
    (scorer : Scorer Hash F) (reference : FeatureVector F) (fits : top.Fits pass.results)
    (same : pass.results.items = items)
    (told : ∀ item ∈ items, ∀ calls, index.key calls item = .ok (keyOf item)) :
    let questions := vectorQuestions (fun position => (itemIn items position).bind keyOf) top
    ∃ asked, recorded asked = recorded pass.calls ∧
      ((organize scorer index reference top).result pass).2.calls = questions ++ asked := by
  intro questions
  rw [calls_organize]
  simp only [questions, vectorQuestions]
  split_ifs with long
  · have distinct : (neededFor top).Nodup := fits.distinct.sublist (List.drop_sublist _ _)
    obtain ⟨asked, keys_run, fetch_run⟩ :=
      result_fetchFeatures distinct (told_of_mem_neededFor fits same told)
    have kept := (putsOnly_keysFrom index
      ((neededFor top).mergeSort fun a b => decide (a ≤ b)) []).recorded_eq pass
    rw [keys_run] at kept
    refine ⟨asked, kept, ?_⟩
    rw [fetch_run, map_snd_keyed]
    rfl
  · exact ⟨pass.calls, rfl, rfl⟩

section Score

variable [TableKey Key] [BEq Hash] {keyOf : Item → Option Key}

/-- A call with nothing to score asks nothing and changes nothing. -/
theorem result_score_of_idle
    (idle : scorer.reference = none ∨ scorer.reference = some [] ∨ pass.results.size = 0) :
    (scorer.score index).result pass = (.ok none, pass) := by
  rw [score, Attempt.result_bind_ok (Attempt.result_get pass)]
  cases known : scorer.reference with
  | none => rfl
  | some reference =>
    have nothing : (reference.isEmpty || pass.results.size == 0) = true := by
      rw [known] at idle
      rcases idle with none | empty | empty
      · cases none
      · simp [Option.some.inj empty]
      · simp [empty]
    simp only [nothing, if_true]
    rfl

omit [BEq Key] [TableKey Key] [BEq Hash] in
/-- Where the key of every item is told, it is told at the turn of the item, too. -/
theorem toldKeys_of_told {items : List Item} (calls : List (IndexCall Item Key))
    (told : ∀ item ∈ items, ∀ calls, index.key calls item = .ok (keyOf item)) :
    toldKeys index calls items = .ok (items.map keyOf) := by
  induction items generalizing calls with
  | nil => rfl
  | cons item rest ih =>
    rw [List.forall_mem_cons] at told
    rw [toldKeys, told.1 calls, List.map_cons]
    simp only [ih _ told.2]
    rfl

/-- What is listed after a scoring pass has keys, and its list fits the result set. -/
theorem exists_select_of_build (features : reference ≠ []) (busy : pass.results.size ≠ 0)
    (told : ∀ item ∈ pass.results.items, ∀ calls, index.key calls item = .ok (keyOf item))
    {map : ScoreMap Key F} {primary : Pass Item Key F}
    (built : (build index (some reference) scorer.referenceHash scorer.settings).result pass =
      (.ok map, primary)) :
    primary.results.items = pass.results.items ∧
      ∃ chosen, TopList.select primary.results scorer.settings map.matched = .ok chosen ∧
        chosen.Fits primary.results ∧ ∀ position ∈ chosen.positions,
          ((itemIn pass.results.items position).bind keyOf).isSome := by
  obtain ⟨_, scanned, keys, -, scan, keys_told, items, projected⟩ :=
    build_eq_ok features busy built
  obtain ⟨calls, left⟩ := (consults_scan index _ scorer.referenceHash scorer.settings
    _).onlyAsks { pass with calls := .nearest scorer.settings.maxResults :: pass.calls }
  rw [scan] at left
  obtain rfl : scanned = { pass with calls } := left
  obtain ⟨selected, fits⟩ := select_of_projected projected scorer.settings
  refine ⟨items, _, selected, fits, fun position listed => ?_⟩
  -- A listed position is matched, so a key has been told for its item.
  have matched := TopList.mem_of_mem_ofScores listed
  obtain ⟨k, -, rfl⟩ := projected.exists_eq_natCast matched
  obtain ⟨key, score, found, -⟩ := projected.mem_matched_iff.mp matched
  obtain rfl := Except.ok.inj ((toldKeys_of_told calls told).symm.trans keys_told)
  rw [List.getElem?_map] at found
  obtain ⟨item, at_item, has⟩ := Option.map_eq_some_iff.mp found
  rw [itemIn_natCast, at_item]
  exact Option.isSome_of_eq_some has

/-- The questions of a scoring pass: the query, and the hashes up to the neighbor at which the scan
halts. -/
theorem recorded_build_of_halts (known : scorer.reference = some reference)
    (features : reference ≠ []) (busy : pass.results.size ≠ 0)
    (countable : (Number.ofInt F reference.length).isFinite) {neighbors : List (Key × Number F)}
    (answered : index.nearest pass.calls reference scorer.settings.maxResults = .ok neighbors)
    {k : ℕ} {ended : Except Fault Unit}
    (halts : Halts index reference.length scorer.referenceHash scorer.settings
      (.nearest scorer.settings.maxResults :: pass.calls) (Ranking.rank neighbors) k ended) :
    recorded ((build index (some reference) scorer.referenceHash scorer.settings).result
        pass).2.calls =
      recorded pass.calls ++ .nearest scorer.settings.maxResults ::
        hashQuestions scorer.settings scorer.referenceHash
          ((Ranking.rank neighbors).take (k + 1)) := by
  have positive : 0 < (reference.length : Int) := by
    exact_mod_cast List.length_pos_of_ne_nil features
  have gathered : (gather index reference scorer.referenceHash scorer.settings).result pass = _ :=
    (result_gather answered).trans (halts.result_scanFrom positive countable)
  refine Eq.trans ?_ (recorded_callsBefore rfl scorer.settings _ pass.calls _ (k + 1))
  cases ended with
  | error fault =>
    exact congrArg (fun ended => recorded ended.2.calls)
      (result_score_of_gather known features busy gathered).1
  | ok _ => exact recorded_build features busy gathered

/-- Behind a scoring pass that ends well, the vectors for a regrouping are asked for, if the tail is
long enough, and the batch is the last question of all. -/
theorem exists_recorded_score (known : scorer.reference = some reference)
    (features : reference ≠ []) (busy : pass.results.size ≠ 0)
    (told : ∀ item ∈ pass.results.items, ∀ calls, index.key calls item = .ok (keyOf item))
    {map : ScoreMap Key F} {primary : Pass Item Key F}
    (built : (build index (some reference) scorer.referenceHash scorer.settings).result pass =
      (.ok map, primary)) :
    let keyAt := fun position => (itemIn pass.results.items position).bind keyOf
    let run := (scorer.score index).result pass
    ∃ chosen, TopList.select primary.results scorer.settings map.matched = .ok chosen ∧
      (∀ position ∈ neededFor chosen, (keyAt position).isSome) ∧
      recorded run.2.calls = recorded primary.calls ++ vectorQuestions keyAt chosen ∧
      ∃ others, run.2.calls = vectorQuestions keyAt chosen ++ others := by
  intro keyAt run
  obtain ⟨items, chosen, selected, fits, keys⟩ := exists_select_of_build features busy told built
  let listed : Pass Item Key F := { primary with top := some chosen }
  obtain ⟨others, kept, calls⟩ :=
    @exists_calls_organize _ _ _ _ index chosen listed _ _ _ scorer reference fits items told
  have ended : run.2 = ((organize scorer index reference chosen).result listed).2 :=
    congrArg Prod.snd (result_score known features busy built selected rfl)
  refine ⟨chosen, selected, fun position member => keys position (List.mem_of_mem_drop member),
    ?_, others, by rw [ended, calls]⟩
  rw [ended, calls, recorded_append, kept, recorded_vectorQuestions]

/-- A call begins with the questions of its scoring pass. -/
theorem recorded_build_prefix (known : scorer.reference = some reference)
    (features : reference ≠ []) (busy : pass.results.size ≠ 0)
    (told : ∀ item ∈ pass.results.items, ∀ calls, index.key calls item = .ok (keyOf item)) :
    recorded ((build index (some reference) scorer.referenceHash scorer.settings).result
        pass).2.calls <+: recorded ((scorer.score index).result pass).2.calls := by
  cases built : (build index (some reference) scorer.referenceHash scorer.settings).result pass with
  | mk outcome primary =>
    cases outcome with
    | ok map =>
      obtain ⟨chosen, -, -, calls, -⟩ := exists_recorded_score known features busy told built
      rw [calls]
      exact List.prefix_append _ _
    | error fault =>
      rw [result_score_of_failed known features busy built]

/-- The protocol of a call, whatever the index answers, as long as the keys of items are told. A
call with nothing to score asks nothing. Any other call puts one query for neighbors. If that fails,
it is the last question. Otherwise the hashes of the near neighbors are asked for by rank, if there
is one of the reference, up to the neighbor at which the scan halts. If the scoring pass ends well,
the vectors for a regrouping are asked for in one batch, if the tail is long enough, and otherwise
nothing is. A look-up whose fault ends the call is the last question of all, and so is a batch.
Where all relevances are numbers, they fall by rank. -/
theorem score_questions (index : CaseIndex Item Key Hash F) (scorer : Scorer Hash F)
    (told : ∀ item ∈ pass.results.items, ∀ calls, index.key calls item = .ok (keyOf item)) :
    let settings := scorer.settings
    let run := (scorer.score index).result pass
    let keyAt := fun position => (itemIn pass.results.items position).bind keyOf
    ((scorer.reference = none ∨ scorer.reference = some [] ∨ pass.results.size = 0) →
      run = (.ok none, pass)) ∧
    ∀ reference, scorer.reference = some reference → reference ≠ [] → pass.results.size ≠ 0 →
      (Number.ofInt F reference.length).isFinite →
      let query : IndexCall Item Key := .nearest settings.maxResults
      let found := index.nearest pass.calls reference settings.maxResults
      let built := (build index (some reference) scorer.referenceHash settings).result pass
      (∀ fault, found = .error fault →
        (∃ fault', run.1 = .error fault') ∧ run.2.calls = query :: pass.calls) ∧
      ∀ neighbors, found = .ok neighbors →
        let ranked := Ranking.rank neighbors
        let asked := query :: pass.calls
        ((∀ neighbor ∈ neighbors, neighbor.2.isNaN = false) →
          ranked.Pairwise fun a b => b.2 ≤ a.2) ∧
        ∃ k ended, Halts index reference.length scorer.referenceHash settings asked ranked k
            ended ∧
          let front := recorded pass.calls ++
            query :: hashQuestions settings scorer.referenceHash (ranked.take (k + 1))
          (∀ fault, built.1 = .error fault →
            run.1 = .error fault ∧ recorded run.2.calls = front) ∧
          (∀ map, built.1 = .ok map → ∃ chosen,
            TopList.select built.2.results settings map.matched = .ok chosen ∧
            (∀ position ∈ neededFor chosen, (keyAt position).isSome) ∧
            recorded run.2.calls = front ++ vectorQuestions keyAt chosen ∧
            ∃ others, run.2.calls = vectorQuestions keyAt chosen ++ others) ∧
          ∀ fault, FailsAt index reference.length scorer.referenceHash settings asked ranked k
              fault → (∀ kind detail, fault ≠ .storage kind detail) →
            run.1 = .error fault ∧ ∃ neighbor others, ranked[k]? = some neighbor ∧
              run.2.calls = .hash neighbor.1 :: others := by
  intro settings run keyAt
  refine ⟨result_score_of_idle, fun reference known features busy countable => ?_⟩
  intro query found built
  have positive : 0 < (reference.length : Int) := by
    exact_mod_cast List.length_pos_of_ne_nil features
  refine ⟨fun fault failed => ?_, fun neighbors answered => ?_⟩
  · obtain ⟨fault', queried, -⟩ := result_queryNeighbors_of_error failed
    obtain ⟨-, ended⟩ := result_score_of_gather known features busy
      (Attempt.result_bind_error queried)
    exact ⟨⟨fault', congrArg Prod.fst ended⟩, congrArg (·.2.calls) ended⟩
  intro ranked asked
  refine ⟨Ranking.pairwise_rank, ?_⟩
  obtain ⟨k, ended, halts⟩ :=
    exists_halts index reference.length scorer.referenceHash settings asked ranked
  refine ⟨k, ended, halts, ?_⟩
  intro front
  have recorded_built : recorded built.2.calls = front :=
    recorded_build_of_halts known features busy countable answered halts
  refine ⟨fun fault failed => ?_, fun map succeeds => ?_, fun fault failed other => ?_⟩
  · have ended : run = (.error fault, built.2) :=
      result_score_of_failed known features busy (Prod.ext failed rfl)
    exact ⟨congrArg Prod.fst ended, by rw [ended, recorded_built]⟩
  · rw [← recorded_built]
    exact exists_recorded_score known features busy told (Prod.ext succeeds rfl)
  · have gathered : (gather index reference scorer.referenceHash settings).result pass = _ :=
      (result_gather answered).trans (failed.result_scan positive countable other)
    obtain ⟨-, ended⟩ := result_score_of_gather known features busy gathered
    obtain ⟨-, neighbor, at_turn, lookup⟩ := failed
    -- A look-up that fails has been made, so its question stands on top of the record.
    have compared : callsAfter settings scorer.referenceHash
        (callsBefore settings scorer.referenceHash asked ranked k) neighbor =
          .hash neighbor.1 :: callsBefore settings scorer.referenceHash asked ranked k :=
      if_pos (eq_error_of_lookupFault? lookup).1
    refine ⟨congrArg Prod.fst ended, neighbor,
      callsBefore settings scorer.referenceHash asked ranked k, at_turn, ?_⟩
    rw [← compared, ← callsBefore_succ at_turn]
    exact congrArg (·.2.calls) ended

end Score

section Images

/-- The keys of items that `imageIndex` tells. -/
def imageKey (item : String) : Option Scalar := if item = "" then none else some (.text item)

/-- For the images three questions are put besides those for keys, the last one for the vectors of
all that are listed. -/
theorem score_questions_images :
    let keyAt := fun position => (itemIn unscoredImages.results.items position).bind imageKey
    recorded regroupedImages.calls =
        [.nearest 100000, .hash (.text "copy"),
          .vectors [.text "copy", .text "near", .text "left", .text "right"]] ∧
      ∃ k chosen,
        TopList.select scoredImages.results imageScorer.settings imageMap.matched = .ok chosen ∧
        recorded regroupedImages.calls =
          .nearest 100000 ::
            hashQuestions imageScorer.settings imageScorer.referenceHash
              ((Ranking.rank (fiveImages.map fun image => (image.1, image.2.1))).take (k + 1)) ++
            vectorQuestions keyAt chosen := by
  intro keyAt
  have told : ∀ item ∈ unscoredImages.results.items, ∀ calls,
      imageIndex.key calls item = .ok (imageKey item) := fun _ _ _ => rfl
  obtain ⟨-, busy⟩ := score_questions imageIndex imageScorer told
  obtain ⟨-, answered⟩ := busy [0] rfl (by decide) (by decide) (by decide +kernel)
  obtain ⟨-, k, ended, -, -, built, -⟩ := answered _ rfl
  obtain ⟨chosen, selected, -, calls, -⟩ :=
    built imageMap (congrArg Prod.fst result_build_images)
  rw [result_build_images] at selected
  rw [result_score_images] at calls
  exact ⟨rfl, k, chosen, selected, calls⟩

end Images

section NoNumber

/-- A neighbor of unknown relevance between one that is almost as relevant as can be and one that
is. -/
def unsortedNeighbors : List (Scalar × Number .binary64) :=
  [(.text "a", .finite (4095 / 4096)), (.text "n", .nan), (.text "b", 1)]

/-- Settings that accept every score. -/
def openSettings : Settings .binary64 := { Settings.standard .binary64 with minScore := 0 }

theorem isSound_openSettings : openSettings.IsSound :=
  { Settings.isSound_standard with minScore := by decide +kernel }

/-- A neighbor of unknown relevance is passed by and keeps the others out of order, so the hash of
the lower one is asked for first. -/
theorem hashes_out_of_order :
    ¬ ∀ (index : CaseIndex String Scalar String .binary64) (scorer : Scorer String .binary64)
        (pass : Pass String Scalar .binary64) (keyOf : String → Option Scalar)
        (reference : FeatureVector .binary64) (neighbors : List (Scalar × Number .binary64)),
      scorer.settings.IsSound →
      (∀ item ∈ pass.results.items, ∀ calls, index.key calls item = .ok (keyOf item)) →
      scorer.reference = some reference →
      index.nearest pass.calls reference scorer.settings.maxResults = .ok neighbors →
      (recorded ((scorer.score index).result pass).2.calls).Pairwise fun earlier later =>
        ∀ a ∈ neighbors, ∀ b ∈ neighbors, earlier = .hash a.1 → later = .hash b.1 →
          ¬ a.2 < b.2 := by
  intro falling
  let index : CaseIndex String Scalar String .binary64 :=
    fixedIndex unsortedNeighbors (fun item => some (.text item)) fun _ => .ok (some "other")
  let scorer : Scorer String .binary64 :=
    ⟨some [1, .finite 2], some "reference", openSettings⟩
  let pass : Pass String Scalar .binary64 := { results := .ofItems ["x", "y"] 0 }
  have told : ∀ item ∈ pass.results.items, ∀ calls,
      index.key calls item = .ok (some (.text item)) := fun _ _ _ => rfl
  -- Comparing with what is no number never moves anything.
  have unmoved : Ranking.rank unsortedNeighbors = unsortedNeighbors := by decide +kernel
  have turns : ∀ i : Fin 3, ending index 2 scorer.referenceHash openSettings
      (callsBefore openSettings scorer.referenceHash [.nearest openSettings.maxResults]
        unsortedNeighbors i) unsortedNeighbors[i] = none := by decide +kernel
  have halts : Halts index 2 scorer.referenceHash openSettings [.nearest openSettings.maxResults]
      (Ranking.rank unsortedNeighbors) 3 (.ok ()) := by
    rw [unmoved]
    refine ⟨le_rfl, fun i below neighbor found => ?_, .inl ⟨rfl, rfl⟩⟩
    obtain rfl : unsortedNeighbors[i] = neighbor :=
      Option.some.inj ((List.getElem?_eq_getElem below).symm.trans found)
    exact turns ⟨i, below⟩
  let built := (build index (some [1, .finite 2]) scorer.referenceHash scorer.settings).result pass
  have asked : recorded built.2.calls =
      [.nearest 100000, .hash (.text "a"), .hash (.text "b")] := by
    refine Eq.trans (recorded_build_of_halts rfl (by decide) (by decide) (by decide +kernel) rfl
      halts) ?_
    rw [unmoved]
    decide +kernel
  have front : recorded built.2.calls <+: recorded ((scorer.score index).result pass).2.calls :=
    recorded_build_prefix rfl (by decide) (by decide) told
  rw [asked] at front
  have fall := falling index scorer pass _ _ unsortedNeighbors isSound_openSettings told rfl rfl
  have hashes := (List.sublist_cons_self _ _).trans front.sublist
  exact List.pairwise_iff_forall_sublist.mp fall hashes (.text "a", .finite (4095 / 4096))
    (by simp [unsortedNeighbors]) (.text "b", 1) (by simp [unsortedNeighbors]) rfl rfl
    (by decide +kernel)

end NoNumber

end Scorer

end Lookalike
