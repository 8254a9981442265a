import Lookalike.Proofs.Chain.Spread
import Lookalike.Proofs.Scorer.Fetching
import Lookalike.Proofs.ScoreMap.Answers

/-!
# Regrouping is all or nothing

Once the result set has been scored and the best matches have been listed, a scoring call either
leaves the scores and the list as they are, or it regroups the tail of the list and spreads its
scores anew as a whole. A fault that ends the call leaves them as they are.

## Main definitions

* `TopList.Fits`, what a top list of a result set keeps to
* `Scorer.Regroups`, when a regrouping is attempted
* `Scorer.IsRegrouping`, what a regrouping does
* `Scorer.chained`, the rearranged list
* `Scorer.Returns`, what a call that returns a top list has done

## Main statements

* `Scorer.organize_cases`, `Scorer.organize_of_unavailable`
* `Scorer.result_score`, `Scorer.exists_returns`
* `Scorer.score_all_or_nothing`
-/

namespace Lookalike

variable {Item Key Hash : Type} {F : Format}

section Fits

/-- A top list of distinct positions of a result set, which is split behind its first position or
later. -/
structure TopList.Fits (top : TopList) (results : ResultSet Item F) : Prop where
  distinct : top.positions.Nodup
  within : ∀ position ∈ top.positions, ∃ k < results.size, position = (k : ℕ)
  split : ∃ start : ℕ, top.tailStart = ((start : ℕ) : Int) ∧ start ≤ top.positions.length ∧
    (top.positions ≠ [] → 1 ≤ start)

namespace TopList.Fits

variable {top : TopList} {results : ResultSet Item F}

/-- What is left of a list behind its start keeps to the list. -/
theorem one_le_tailStart (fits : top.Fits results) (long : 2 < top.tailSize) :
    1 ≤ top.tailStart := by
  obtain ⟨start, starts, within, behind⟩ := fits.split
  have some : top.positions ≠ [] := fun none => by
    rw [tailSize, none, List.length_nil, starts] at long
    omega
  rw [starts]
  exact Int.ofNat_le.mpr (behind some)

theorem length_tail (fits : top.Fits results) : (top.tail.length : Int) = top.tailSize := by
  obtain ⟨start, starts, within, -⟩ := fits.split
  rw [tail, tailSize, starts, Position.after_natCast, List.length_drop]
  omega

end TopList.Fits

end Fits

namespace Scorer

/-- The positions whose features a regrouping needs: the tail and the position in front of it. -/
def neededFor (top : TopList) : List Position := Position.after (top.tailStart - 1) top.positions

/-- A regrouping needs positions whose items can be read, so their keys are told where those of all
items are. -/
theorem told_of_mem_neededFor {index : CaseIndex Item Key Hash F} {top : TopList}
    {results : ResultSet Item F} {items : List Item} {keyOf : Item → Option Key}
    (fits : top.Fits results) (same : results.items = items)
    (told : ∀ item ∈ items, ∀ calls, index.key calls item = .ok (keyOf item)) :
    ∀ position ∈ neededFor top, ∃ item, results.itemAt position = .ok item ∧
      ∀ calls, index.key calls item = .ok ((itemIn items position).bind keyOf) := by
  intro position member
  obtain ⟨k, within, rfl⟩ := fits.within position (List.mem_of_mem_drop member)
  rw [← ResultSet.length_items, same] at within
  have found : items[k]? = some items[k] := List.getElem?_eq_getElem within
  have read : results.itemAt (k : Position) = .ok items[k] :=
    ResultSet.itemAt_eq_ok_iff.mpr (by rw [same, found])
  refine ⟨items[k], read, ?_⟩
  rw [itemIn_natCast, found]
  exact told _ (List.getElem_mem within)

/-- The vectors of all positions that a regrouping needs can be fetched from some state. -/
def FetchesAll [BEq Key] (index : CaseIndex Item Key Hash F) (pass : Pass Item Key F)
    (top : TopList) (vectors : List (Position × FeatureVector F)) : Prop :=
  ((fetchFeatures index (neededFor top)).result pass).1 = .ok vectors ∧
    (neededFor top).length ≤ vectors.length

/-- A regrouping is attempted where the tail is long enough and all vectors can be fetched. -/
def Regroups [BEq Key] (index : CaseIndex Item Key Hash F) (pass : Pass Item Key F)
    (top : TopList) : Prop :=
  2 < top.tailSize ∧ ∃ vectors, FetchesAll index pass top vectors

section Organize

variable [BEq Key] {scorer : Scorer Hash F} {index : CaseIndex Item Key Hash F}
  {reference : FeatureVector F} {top : TopList} {pass pass' : Pass Item Key F}

/-- The part of a regrouping that follows on the fetching of its vectors. -/
def regroup (scorer : Scorer Hash F) (reference : FeatureVector F) (top : TopList)
    (vectors : List (Position × FeatureVector F)) : Scoring Item Key F Unit := do
  let (highest, lowest) ←
    Attempt.ofExcept (Chain.scoreBounds (← get).results top.positions top.tailStart)
  let features := fun position => (entryOf (vectors.lookup position)).map widened
  let chain := Chain.reorder chainDistance top.positions top.tailStart features
    (widened reference) scorer.settings.rangeCheck
  modify fun pass => { pass with top := some { top with positions := chain.order } }
  match chain.fault with
  | some fault => throw fault
  | none =>
    Attempt.within (·.results) (fun results pass => { pass with results })
      (Chain.spread chain.order top.tailStart highest lowest)

theorem organize_eq (scorer : Scorer Hash F) (index : CaseIndex Item Key Hash F)
    (reference : FeatureVector F) (top : TopList) :
    organize scorer index reference top =
      if top.tailSize ≤ 2 then pure ()
      else Attempt.outcome (fetchFeatures index (neededFor top)) >>= fun
        | .error (.storage _ _) => pure ()
        | .error fault => throw fault
        | .ok vectors =>
          if vectors.length < (neededFor top).length then pure ()
          else regroup scorer reference top vectors := rfl

theorem organize_of_short (short : top.tailSize ≤ 2) :
    (organize scorer index reference top).result pass = (.ok (), pass) := by
  rw [organize_eq, if_pos short, Attempt.result_pure]

section Long

variable (scorer reference) (long : 2 < top.tailSize)

include long

/-- Where the features cannot be fetched, nothing is written. A storage fault is passed over, and
every other fault ends the call. -/
theorem organize_of_fault {fault : Fault}
    (fetched : (fetchFeatures index (neededFor top)).result pass = (.error fault, pass')) :
    ∃ outcome, (organize scorer index reference top).result pass = (outcome, pass') ∧
      ((∃ kind detail, fault = .storage kind detail) → outcome = .ok ()) ∧
      ((∀ kind detail, fault ≠ .storage kind detail) → outcome = .error fault) := by
  rw [organize_eq, if_neg (Int.not_le.mpr long),
    Attempt.result_bind_ok (Attempt.result_outcome _ _), fetched]
  cases fault with
  | storage kind detail => exact ⟨_, rfl, fun _ => rfl, fun other => absurd rfl (other kind detail)⟩
  | _ => exact ⟨_, rfl, nofun, fun _ => rfl⟩

/-- A list of which not all features are known is left as it is. -/
theorem organize_of_incomplete {vectors : List (Position × FeatureVector F)}
    (fetched : (fetchFeatures index (neededFor top)).result pass = (.ok vectors, pass'))
    (incomplete : vectors.length < (neededFor top).length) :
    (organize scorer index reference top).result pass = (.ok (), pass') := by
  rw [organize_eq, if_neg (Int.not_le.mpr long),
    Attempt.result_bind_ok (Attempt.result_outcome _ _), fetched]
  dsimp only
  rw [if_pos incomplete, Attempt.result_pure]

theorem organize_of_complete {vectors : List (Position × FeatureVector F)}
    (fetched : (fetchFeatures index (neededFor top)).result pass = (.ok vectors, pass'))
    (complete : (neededFor top).length ≤ vectors.length) :
    (organize scorer index reference top).result pass =
      (regroup scorer reference top vectors).result pass' := by
  rw [organize_eq, if_neg (Int.not_le.mpr long),
    Attempt.result_bind_ok (Attempt.result_outcome _ _), fetched]
  dsimp only
  rw [if_neg (Nat.not_lt.mpr complete)]

end Long

end Organize

section Regroup

variable {scorer : Scorer Hash F} {reference : FeatureVector F} {top : TopList}
  {pass : Pass Item Key F} {results : ResultSet Item F}

/-- What a regrouping does: it keeps the anchors, rearranges the tail, and spreads the scores of the
tail evenly from its first to its last one. -/
structure IsRegrouping (primary : ResultSet Item F) (chosen top : TopList)
    (final : ResultSet Item F) : Prop where
  tailStart : top.tailStart = chosen.tailStart
  anchors : top.anchors = chosen.anchors
  tail : top.tail.Perm chosen.tail
  items : final.items = primary.items
  outside : ∀ k : ℕ, (k : Position) ∉ chosen.tail → final.scores[k]? = primary.scores[k]?
  inside : ∃ first last highest lowest,
    chosen.tail.head? = some first ∧ primary.scoreAt first = .ok highest ∧
    chosen.tail.getLast? = some last ∧ primary.scoreAt last = .ok lowest ∧
    (Chain.spread top.positions top.tailStart highest lowest).result primary = (.ok (), final) ∧
    ∀ k position, top.tail[k]? = some position → final.scoreAt position =
      .ok (Chain.evenScore highest lowest chosen.tail.length k)

/-- The tail of a list and the position in front of it are its last part. -/
theorem neededFor_eq_drop (start : 1 ≤ top.tailStart) :
    neededFor top = top.positions.drop (top.tailStart - 1).toNat := by
  obtain ⟨first, starts⟩ := Int.eq_ofNat_of_zero_le (sub_nonneg.mpr start)
  rw [neededFor, starts]
  exact Position.after_natCast _ _

/-- A list with its tail rearranged by the vectors that have been fetched. -/
def chained (scorer : Scorer Hash F) (reference : FeatureVector F) (top : TopList)
    (vectors : List (Position × FeatureVector F)) : Chain.Outcome Position F :=
  Chain.reorder chainDistance top.positions top.tailStart
    (fun position => (entryOf (vectors.lookup position)).map widened) (widened reference)
    scorer.settings.rangeCheck

/-- Where the ends of a tail have scores, the rearranged list is kept, and scores are spread along
it unless a fault has ended the measuring. -/
theorem result_regroup {vectors : List (Position × FeatureVector F)} {highest lowest : Number F}
    (bounds : Chain.scoreBounds pass.results top.positions top.tailStart = .ok (highest, lowest)) :
    let chain := chained scorer reference top vectors
    (regroup scorer reference top vectors : Scoring Item Key F Unit).result pass =
      (match chain.fault with
        | some fault => throw fault
        | none => Attempt.within (·.results) (fun results pass => { pass with results })
          (Chain.spread chain.order top.tailStart highest lowest) :
        Scoring Item Key F Unit).result
          { pass with top := some { top with positions := chain.order } } := by
  intro chain
  rw [regroup, Attempt.result_bind_ok (Attempt.result_get pass), bounds]
  rfl

/-- A regrouping that succeeds leaves the rearranged list. -/
theorem regroup_eq_ok {final : Pass Item Key F} {vectors : List (Position × FeatureVector F)}
    (run : (regroup scorer reference top vectors : Scoring Item Key F Unit).result pass =
      (.ok (), final)) :
    (chained scorer reference top vectors).fault = none ∧
      final.top = some { top with positions := (chained scorer reference top vectors).order } := by
  have begun := run
  rw [regroup, Attempt.result_bind_ok (Attempt.result_get pass)] at begun
  obtain ⟨⟨highest, lowest⟩, passed, bounds, -⟩ := Attempt.bind_eq_ok begun
  rw [Attempt.result_ofExcept] at bounds
  rw [result_regroup (Prod.mk.inj bounds).1] at run
  cases ended : (chained scorer reference top vectors).fault with
  | some fault =>
    rw [ended] at run
    cases run
  | none =>
    rw [ended] at run
    dsimp only at run
    rw [Attempt.result_within] at run
    obtain ⟨-, rfl⟩ := Prod.mk.inj run
    exact ⟨rfl, rfl⟩

/-- The first and the last score of a tail can be read. -/
theorem exists_scoreBounds_eq (fits : top.Fits results) (long : 2 < top.tailSize) :
    ∃ first last highest lowest,
      top.tail.head? = some first ∧ results.scoreAt first = .ok highest ∧
      top.tail.getLast? = some last ∧ results.scoreAt last = .ok lowest ∧
      Chain.scoreBounds results top.positions top.tailStart = .ok (highest, lowest) := by
  have length := fits.length_tail
  obtain ⟨start, starts, within, -⟩ := fits.split
  have tail_eq : top.tail = top.positions.drop start := by
    rw [TopList.tail, starts, Position.after_natCast]
  have inside : start < top.positions.length := by
    rw [tail_eq, List.length_drop] at length
    omega
  -- Every listed position can be read.
  have readable : ∀ position ∈ top.positions, ∃ score, results.scoreAt position = .ok score := by
    intro position member
    obtain ⟨k, small, rfl⟩ := fits.within position member
    exact ⟨_, ResultSet.scoreAt_eq_ok_iff.mpr
      (List.getElem?_eq_getElem (by rwa [ResultSet.length_scores]))⟩
  obtain ⟨highest, high⟩ := readable _ (List.getElem_mem inside)
  have several : top.positions ≠ [] := List.ne_nil_of_length_pos (by omega)
  obtain ⟨lowest, low⟩ := readable _ (List.getLast_mem several)
  have last : top.tail.getLast? = some (top.positions.getLast several) := by
    rw [tail_eq, List.getLast?_drop, if_neg (by omega), List.getLast?_eq_some_getLast several]
  have head : top.tail.head? = some top.positions[start] := by
    rw [tail_eq, List.head?_drop, List.getElem?_eq_getElem inside]
  refine ⟨_, _, highest, lowest, head, high, last, low, ?_⟩
  rw [Chain.scoreBounds, starts, Position.index?_natCast inside]
  simp only [Option.bind_some, List.getElem?_eq_getElem inside,
    List.getLast?_eq_some_getLast several, high, low]
  rfl

/-- With all vectors known, a regrouping is made as a whole, or it fails on a vector whose length is
not that of the reference and leaves everything as it is. -/
theorem regroup_cases (scorer : Scorer Hash F) (reference : FeatureVector F)
    (pass : Pass Item Key F) {vectors : List (Position × FeatureVector F)}
    (fits : top.Fits pass.results) (long : 2 < top.tailSize) (listed : pass.top = some top)
    (known : ∀ position ∈ neededFor top, ∃ vector,
      vectors.lookup position = some vector ∧ (position, vector) ∈ vectors) :
    (∃ fault, (regroup scorer reference top vectors : Scoring Item Key F Unit).result pass =
        (.error fault, pass) ∧ ∃ entry ∈ vectors, entry.2.length ≠ reference.length) ∨
      ∃ regrouped results, (regroup scorer reference top vectors).result pass =
          (.ok (), { pass with results, top := some regrouped }) ∧
        IsRegrouping pass.results top regrouped results := by
  have start := fits.one_le_tailStart long
  let vectorOf (position : Position) : List (Number F) :=
    widened ((vectors.lookup position).getD [])
  let features (position : Position) : Except Fault (List (Number F)) :=
    (entryOf (vectors.lookup position)).map widened
  have needed := neededFor_eq_drop start
  have fetched : ∀ p ∈ top.positions.drop (top.tailStart - 1).toNat,
      features p = .ok (vectorOf p) := by
    intro p member
    obtain ⟨vector, lookup, -⟩ := known p (needed ▸ member)
    simp only [features, vectorOf, lookup]
    rfl
  obtain ⟨first, last, highest, lowest, head, high, bottom, low, bounds⟩ :=
    exists_scoreBounds_eq fits long
  let chain := chained scorer reference top vectors
  rw [result_regroup bounds]
  cases ended : chain.fault with
  | some fault =>
    -- The measuring has failed before anything has moved.
    obtain ⟨same, p, member, differs⟩ := order_reorder_of_fault start fetched ended
    obtain ⟨vector, lookup, entry⟩ := known p (needed ▸ member)
    refine .inl ⟨fault, ?_, (p, vector), entry, ?_⟩
    · have order : chain.order = top.positions := same
      rw [order, ← listed]
      rfl
    · simpa [vectorOf, lookup, widened] using differs
  | none =>
    let regrouped : TopList := { top with positions := chain.order }
    have anchors : regrouped.anchors = top.anchors := upTo_reorder start
    have tail : regrouped.tail.Perm top.tail := after_reorder_perm start
    have length := fits.length_tail
    have within : ∀ position ∈ regrouped.tail, ∃ k < pass.results.size, position = (k : ℕ) :=
      fun position member => fits.within position
        (List.mem_of_mem_drop (tail.mem_iff.mp member))
    have several : 2 ≤ regrouped.tail.length := by
      rw [tail.length_eq]
      omega
    have distinct : regrouped.tail.Nodup :=
      tail.nodup_iff.mpr (fits.distinct.sublist (List.drop_sublist _ _))
    obtain ⟨results, wrote, items, outside, inside⟩ :=
      Chain.result_spread several distinct within highest lowest
    refine .inr ⟨regrouped, results, ?_, rfl, anchors, tail, items, ?_, ?_⟩
    · dsimp only
      rw [Attempt.result_within, wrote]
    · exact fun k behind => outside k fun member => behind (tail.mem_iff.mp member)
    · exact ⟨first, last, highest, lowest, head, high, bottom, low, wrote,
        fun k position found => tail.length_eq ▸ inside k position found⟩

variable [BEq Key] {index : CaseIndex Item Key Hash F}

/-- With all vectors fetched, each position that needs one has its own. -/
theorem exists_lookup_of_fetchesAll (fits : top.Fits results)
    {vectors : List (Position × FeatureVector F)} (fetches : FetchesAll index pass top vectors) :
    ∀ position ∈ neededFor top, ∃ vector,
      vectors.lookup position = some vector ∧ (position, vector) ∈ vectors :=
  fun _ member => exists_lookup_of_complete
    (fits.distinct.sublist (List.drop_sublist _ _)) (Prod.ext fetches.1 rfl) fetches.2 member

/-- A list is left as it is, and so are the scores, or it is regrouped as a whole. It is regrouped
where all vectors are fetched and have the length of the reference, and the call succeeds then. -/
theorem organize_cases (scorer : Scorer Hash F) (index : CaseIndex Item Key Hash F)
    (reference : FeatureVector F) (pass : Pass Item Key F) (fits : top.Fits pass.results)
    (listed : pass.top = some top) :
    (∃ outcome calls, (organize scorer index reference top).result pass =
        (outcome, { pass with calls }) ∧
      (outcome = .ok () → ¬ Regroups index pass top) ∧
      ∀ vectors, 2 < top.tailSize → FetchesAll index pass top vectors →
        ∃ entry ∈ vectors, entry.2.length ≠ reference.length) ∨
    ∃ regrouped results calls, (organize scorer index reference top).result pass =
        (.ok (), { pass with results, top := some regrouped, calls }) ∧
      Regroups index pass top ∧ IsRegrouping pass.results top regrouped results := by
  by_cases long : 2 < top.tailSize
  · obtain ⟨calls, same⟩ := onlyAsks_fetchFeatures index (neededFor top) pass
    cases fetched : (fetchFeatures index (neededFor top)).result pass with
    | mk outcome pass' =>
      obtain rfl : pass' = { pass with calls } := by rwa [fetched] at same
      cases outcome with
      | error fault =>
        have nothing : ∀ vectors, ¬ FetchesAll index pass top vectors := by
          intro vectors fetches
          rw [FetchesAll, fetched] at fetches
          cases fetches.1
        obtain ⟨outcome, ended, -⟩ := organize_of_fault scorer reference long fetched
        exact .inl ⟨outcome, calls, ended, fun _ regroups => nothing _ regroups.2.choose_spec,
          fun vectors _ fetches => absurd fetches (nothing vectors)⟩
      | ok vectors =>
        have only : ∀ vectors', FetchesAll index pass top vectors' → vectors' = vectors := by
          intro vectors' fetches
          rw [FetchesAll, fetched] at fetches
          exact (Except.ok.inj fetches.1).symm
        by_cases complete : (neededFor top).length ≤ vectors.length
        · have fetches : FetchesAll index pass top vectors := ⟨by rw [fetched], complete⟩
          have run := organize_of_complete scorer reference long fetched complete
          rcases regroup_cases scorer reference { pass with calls } fits long listed
              (exists_lookup_of_fetchesAll fits fetches) with
            ⟨fault, failed, differs⟩ | ⟨regrouped, results, ended, regrouping⟩
          · refine .inl ⟨_, calls, run.trans failed, nofun, fun vectors' _ fetches' => ?_⟩
            rw [only vectors' fetches']
            exact differs
          · exact .inr ⟨regrouped, results, calls, run.trans ended, ⟨long, vectors, fetches⟩,
              regrouping⟩
        · have ended := organize_of_incomplete scorer reference long fetched
            (Nat.not_le.mp complete)
          have nothing : ∀ vectors', ¬ FetchesAll index pass top vectors' := fun vectors' fetches =>
            complete (only vectors' fetches ▸ fetches.2)
          exact .inl ⟨_, calls, ended, fun _ regroups => nothing _ regroups.2.choose_spec,
            fun vectors' _ fetches => absurd fetches (nothing vectors')⟩
  · refine .inl ⟨.ok (), pass.calls, organize_of_short (Int.not_lt.mp long),
      fun _ regroups => long regroups.1, fun _ long' => absurd long' long⟩

/-- Where the storage fails or not all features are known, the call goes on without a change. -/
theorem organize_of_unavailable (scorer : Scorer Hash F) (reference : FeatureVector F)
    (unavailable : (∃ kind detail, ((fetchFeatures index (neededFor top)).result pass).1 =
        .error (.storage kind detail)) ∨
      ∃ vectors, ((fetchFeatures index (neededFor top)).result pass).1 = .ok vectors ∧
        vectors.length < (neededFor top).length) :
    ∃ calls, (organize scorer index reference top).result pass = (.ok (), { pass with calls }) := by
  by_cases long : 2 < top.tailSize
  · obtain ⟨calls, same⟩ := onlyAsks_fetchFeatures index (neededFor top) pass
    refine ⟨calls, ?_⟩
    rcases unavailable with ⟨kind, detail, failed⟩ | ⟨vectors, fetched, incomplete⟩
    · obtain ⟨outcome, ended, passed, -⟩ := organize_of_fault scorer reference
        long (Prod.ext failed same)
      rw [ended, passed ⟨kind, detail, rfl⟩]
    · exact organize_of_incomplete scorer reference long (Prod.ext fetched same) incomplete
  · exact ⟨pass.calls, organize_of_short (Int.not_lt.mp long)⟩

/-- Where all vectors that are fetched have the length of the reference, the call succeeds. -/
theorem organize_eq_ok_of_length_eq (scorer : Scorer Hash F) {reference : FeatureVector F}
    (fits : top.Fits pass.results) (listed : pass.top = some top)
    {vectors : List (Position × FeatureVector F)}
    (fetched : ((fetchFeatures index (neededFor top)).result pass).1 = .ok vectors)
    (same : ∀ entry ∈ vectors, entry.2.length = reference.length) :
    ((organize scorer index reference top).result pass).1 = .ok () := by
  by_cases long : 2 < top.tailSize
  · by_cases complete : (neededFor top).length ≤ vectors.length
    · rcases organize_cases scorer index reference pass fits listed with
        ⟨outcome, calls, -, -, differs⟩ | ⟨regrouped, results, calls, ended, -⟩
      · obtain ⟨entry, member, other⟩ := differs vectors long ⟨fetched, complete⟩
        exact absurd (same entry member) other
      · rw [ended]
    · rw [organize_of_incomplete scorer reference long (Prod.ext fetched rfl)
        (Nat.not_le.mp complete)]
  · rw [organize_of_short (Int.not_lt.mp long)]

end Regroup

section Score

variable [BEq Key] [TableKey Key] [BEq Hash] {scorer : Scorer Hash F}
  {index : CaseIndex Item Key Hash F} {reference : FeatureVector F} {settings : Settings F}
  {map : ScoreMap Key F} {chosen top : TopList} {pass primary final : Pass Item Key F}

omit [TableKey Key] [BEq Hash] in
/-- The matched positions of a scored result set can be listed. -/
theorem select_of_projected {scores : List (Key × Number F)} {keys : List (Option Key)}
    {matched : List Position} {results : ResultSet Item F}
    (projected : ScoreMap.Projected scores keys matched results) (settings : Settings F) :
    TopList.select results settings matched =
        .ok (TopList.ofScores results.held settings matched) ∧
      (TopList.ofScores results.held settings matched).Fits results := by
  have distinct : matched.Nodup := projected.pairwise_matched.imp fun below => ne_of_lt below
  refine ⟨TopList.select_eq_ofScores projected.scoreAt_eq_held,
    TopList.nodup_ofScores distinct, ?_, ?_⟩
  · exact fun position member => projected.exists_eq_natCast (TopList.mem_of_mem_ofScores member)
  · exact ⟨_, rfl, TopList.anchorCount_le _, TopList.anchorCount_pos⟩

/-- A call that has something to score regroups what the scoring pass has listed, and returns what
the list has become. -/
theorem result_score (known : scorer.reference = some reference) (features : reference ≠ [])
    (busy : pass.results.size ≠ 0)
    (built : (ScoreMap.build index (some reference) scorer.referenceHash scorer.settings).result
      pass = (.ok map, primary))
    (selected : TopList.select primary.results scorer.settings map.matched = .ok chosen)
    {outcome : Except Fault Unit}
    (organized : (organize scorer index reference chosen).result
      { primary with top := some chosen } = (outcome, final)) :
    (scorer.score index).result pass = (outcome.map fun _ => final.top, final) := by
  have busy' : (reference.isEmpty || pass.results.size == 0) = false := by
    simp [features, busy]
  rw [score, Attempt.result_bind_ok (Attempt.result_get pass)]
  simp only [known, busy', Bool.false_eq_true, if_false]
  rw [Attempt.result_bind_ok built, Attempt.result_bind_ok (Attempt.result_get primary), selected,
    Attempt.result_bind_ok (Attempt.result_ofExcept _ _),
    Attempt.result_bind_ok (Attempt.result_modify _ _)]
  cases outcome with
  | ok _ =>
    rw [Attempt.result_bind_ok organized, Attempt.result_bind_ok (Attempt.result_get final)]
    rfl
  | error fault =>
    rw [Attempt.result_bind_error organized]
    rfl

/-- A call that returns a top list has scored the result set against a reference. -/
theorem score_eq_ok (run : (scorer.score index).result pass = (.ok (some top), final)) :
    ∃ reference map primary, scorer.reference = some reference ∧ reference ≠ [] ∧
      pass.results.size ≠ 0 ∧
      (ScoreMap.build index (some reference) scorer.referenceHash scorer.settings).result pass =
        (.ok map, primary) := by
  rw [score, Attempt.result_bind_ok (Attempt.result_get pass)] at run
  cases known : scorer.reference with
  | none =>
    rw [known] at run
    cases run
  | some reference =>
    simp only [known] at run
    split at run
    next => cases run
    next busy =>
      obtain ⟨map, primary, built, -⟩ := Attempt.bind_eq_ok run
      simp only [Bool.or_eq_true, List.isEmpty_iff, beq_iff_eq, not_or] at busy
      exact ⟨reference, map, primary, rfl, busy.1, busy.2, built⟩

/-- A call that returns a top list has scored the result set, has listed the best matches, and has
left all of it alone or regrouped the list. -/
structure Returns (scorer : Scorer Hash F) (index : CaseIndex Item Key Hash F)
    (pass : Pass Item Key F) (reference : FeatureVector F) (map : ScoreMap Key F)
    (primary : Pass Item Key F) (chosen top : TopList) (final : Pass Item Key F) : Prop where
  known : scorer.reference = some reference
  features : reference ≠ []
  busy : pass.results.size ≠ 0
  built : (ScoreMap.build index (some reference) scorer.referenceHash scorer.settings).result pass =
    (.ok map, primary)
  selected : TopList.select primary.results scorer.settings map.matched = .ok chosen
  ended : (¬ Regroups index { primary with top := some chosen } chosen ∧ top = chosen ∧
      final.results = primary.results) ∨
    Regroups index { primary with top := some chosen } chosen ∧
      IsRegrouping primary.results chosen top final.results

theorem exists_returns (run : (scorer.score index).result pass = (.ok (some top), final)) :
    ∃ reference map primary chosen,
      Returns scorer index pass reference map primary chosen top final := by
  obtain ⟨reference, map, primary, known, features, busy, built⟩ := score_eq_ok run
  obtain ⟨_, _, _, -, -, -, -, projected⟩ := ScoreMap.build_eq_ok features busy built
  obtain ⟨selected, fits⟩ := select_of_projected projected scorer.settings
  refine ⟨reference, map, primary, _, known, features, busy, built, selected, ?_⟩
  rcases organize_cases scorer index reference { primary with top := some _ } fits rfl with
    ⟨outcome, calls, ended, idle, -⟩ | ⟨regrouped, results, calls, ended, regroups, regrouping⟩
  · rw [result_score known features busy built selected ended] at run
    cases outcome with
    | ok _ =>
      cases run
      exact .inl ⟨idle rfl, rfl, rfl⟩
    | error fault => cases run
  · rw [result_score known features busy built selected ended] at run
    cases run
    exact .inr ⟨regroups, regrouping⟩

theorem exists_returns_of_known (known : scorer.reference = some reference)
    (run : (scorer.score index).result pass = (.ok (some top), final)) :
    ∃ map primary chosen, Returns scorer index pass reference map primary chosen top final := by
  obtain ⟨reference', map, primary, chosen, returned⟩ := exists_returns run
  obtain rfl : reference = reference' := Option.some.inj (known.symm.trans returned.known)
  exact ⟨map, primary, chosen, returned⟩

/-- There is one scoring pass, so what has been built is what the call has gone on with. -/
theorem exists_returns_of_built (known : scorer.reference = some reference)
    (built : (ScoreMap.build index (some reference) scorer.referenceHash scorer.settings).result
      pass = (.ok map, primary))
    (run : (scorer.score index).result pass = (.ok (some top), final)) :
    ∃ chosen, Returns scorer index pass reference map primary chosen top final := by
  obtain ⟨map', primary', chosen, returned⟩ := exists_returns_of_known known run
  obtain ⟨same, rfl⟩ := Prod.mk.inj (built.symm.trans returned.built)
  obtain rfl : map = map' := Except.ok.inj same
  exact ⟨chosen, returned⟩

/-- The scores of a scoring pass and the list made from them stand as they are. -/
def LeftAlone (primary : Pass Item Key F) (chosen : TopList) (final : Pass Item Key F) : Prop :=
  final.results = primary.results ∧ final.top = some chosen

/-- The tail of the list has been regrouped and its scores have been spread anew. -/
def Regrouped (primary : Pass Item Key F) (chosen : TopList) (final : Pass Item Key F) : Prop :=
  ∃ top, final.top = some top ∧ IsRegrouping primary.results chosen top final.results

/-- Whatever the index answers after the scoring pass, the list and all scores are left alone, or
the tail is regrouped as a whole. They are left alone where the call ends in a fault, and where
features cannot be read from storage or are missing, in which case the call succeeds. The tail is
regrouped where it is long enough and every vector that is needed can be fetched and has the length
of the reference. -/
theorem score_all_or_nothing (known : scorer.reference = some reference) (features : reference ≠ [])
    (busy : pass.results.size ≠ 0)
    (built : (ScoreMap.build index (some reference) scorer.referenceHash scorer.settings).result
      pass = (.ok map, primary)) :
    ∃ chosen, TopList.select primary.results scorer.settings map.matched = .ok chosen ∧
      let listed := { primary with top := some chosen }
      let fetched := ((fetchFeatures index (neededFor chosen)).result listed).1
      let run := (scorer.score index).result pass
      (LeftAlone primary chosen run.2 ∨ run.1 = .ok run.2.top ∧ Regrouped primary chosen run.2) ∧
      (∀ fault, run.1 = .error fault → LeftAlone primary chosen run.2) ∧
      ((∃ kind detail, fetched = .error (.storage kind detail)) ∨
          (∃ vectors, fetched = .ok vectors ∧ vectors.length < (neededFor chosen).length) →
        run.1 = .ok (some chosen) ∧ LeftAlone primary chosen run.2) ∧
      ∀ vectors, 2 < chosen.tailSize → fetched = .ok vectors →
        (neededFor chosen).length ≤ vectors.length →
        (∀ entry ∈ vectors, entry.2.length = reference.length) →
          run.1 = .ok run.2.top ∧ Regrouped primary chosen run.2 := by
  obtain ⟨_, _, _, -, -, -, -, projected⟩ := ScoreMap.build_eq_ok features busy built
  obtain ⟨selected, fits⟩ := select_of_projected projected scorer.settings
  generalize TopList.ofScores primary.results.held scorer.settings map.matched = chosen
    at selected fits
  refine ⟨chosen, selected, ?_⟩
  intro listed fetched run
  rcases organize_cases scorer index reference listed fits rfl with
    ⟨outcome, calls, ended, -, differs⟩ | ⟨top, results, calls, ended, regroups, regrouping⟩
  · have run_eq := result_score known features busy built selected ended
    have left : LeftAlone primary chosen run.2 := by
      simp only [run, run_eq]
      exact ⟨rfl, rfl⟩
    refine ⟨.inl left, fun _ _ => left, fun unavailable => ⟨?_, left⟩, ?_⟩
    · obtain ⟨calls', passed⟩ := organize_of_unavailable scorer reference unavailable
      simp only [run, result_score known features busy built selected passed]
      rfl
    · intro vectors long told complete same
      obtain ⟨entry, member, other⟩ := differs vectors long ⟨told, complete⟩
      exact absurd (same entry member) other
  · have whole : run.1 = .ok run.2.top ∧ Regrouped primary chosen run.2 := by
      simp only [run, result_score known features busy built selected ended]
      exact ⟨rfl, top, rfl, regrouping⟩
    refine ⟨.inr whole, fun fault failed => ?_, fun unavailable => ?_, fun _ _ _ _ _ => whole⟩
    · rw [whole.1] at failed
      cases failed
    · obtain ⟨-, vectors, told, complete⟩ := regroups
      change fetched = .ok vectors at told
      rw [told] at unavailable
      rcases unavailable with ⟨kind, detail, failed⟩ | ⟨vectors', same, incomplete⟩
      · cases failed
      · cases same
        exact absurd complete (Nat.not_le.mpr incomplete)

end Score

section Images

/-- Five images by name, each with its relevance to the reference and its one feature. -/
def fiveImages : List (Scalar × Number .exact × Number .exact) :=
  [(.text "copy", 1, 0), (.text "near", .finite (1 / 2), 1),
    (.text "left", .finite (1 / 4), .finite (-2)), (.text "right", .finite (1 / 8), .finite 2),
    (.text "far", .finite (1 / 16), .finite 4)]

/-- An index of the five images, in which an item without a name has no key. -/
def imageIndex : CaseIndex String Scalar String .exact where
  nearest _ _ _ := .ok (fiveImages.map fun image => (image.1, image.2.1))
  vectors _ _ := .ok (fiveImages.map fun image => (image.1, some (.vector [image.2.2])))
  key _ item := .ok (if item = "" then none else some (.text item))
  hash _ key := .ok (if key = .text "copy" then some "reference" else none)

theorem memoryless_imageIndex : imageIndex.Memoryless where
  nearest _ _ _ _ := rfl
  key _ _ _ := rfl
  hash _ _ _ := rfl
  vectors _ _ _ := rfl

/-- A scorer that lists the best four images. -/
def imageScorer : Scorer String .exact :=
  ⟨some [0], some "reference", { Settings.standard .exact with maxTop := 4 }⟩

theorem isSound_imageScorer : imageScorer.settings.IsSound where
  distanceWeight := by decide
  baseScore := by decide
  identicalScore := by decide
  identicalEpsilon := by decide +kernel
  minScore := by decide
  maxResults := by decide
  maxTop := by decide
  rangeCheck := by decide
  exceeds := by decide

/-- The images and an item without a name, before they are scored. -/
def unscoredImages : Pass String Scalar .exact where
  results := .ofItems ["copy", "near", "left", "right", "far", ""] 1

/-- The scores of the images by name, and the positions that hold them. -/
def imageMap : ScoreMap Scalar .exact :=
  ⟨[(.text "copy", .finite 1000), (.text "near", .finite 96), (.text "left", .finite 88),
    (.text "right", .finite 72), (.text "far", .finite 40)], [0, 1, 2, 3, 4], 5⟩

/-- The images after the scoring pass. -/
def scoredImages : Pass String Scalar .exact where
  results := ⟨#[⟨"copy", .finite 1000⟩, ⟨"near", .finite 96⟩, ⟨"left", .finite 88⟩,
    ⟨"right", .finite 72⟩, ⟨"far", .finite 40⟩, ⟨"", 0⟩]⟩
  calls := [.key "", .key "far", .key "right", .key "left", .key "near", .key "copy",
    .hash (.text "copy"), .nearest 100000]

-- Merging recurses on lengths and cannot be evaluated, so the runs sort by insertion.
theorem result_build_images :
    (ScoreMap.build imageIndex (some [0]) imageScorer.referenceHash imageScorer.settings).result
      unscoredImages = (.ok imageMap, scoredImages) := by
  simp only [ScoreMap.build, ScoreMap.buildCounting, ScoreMap.queryNeighbors,
    Ranking.rank_eq_insertionSort]
  decide +kernel

private theorem select_images :
    TopList.select scoredImages.results imageScorer.settings imageMap.matched =
      .ok ⟨[0, 1, 2, 3], 1⟩ := by
  simp only [TopList.select, Ranking.rank_eq_insertionSort]
  decide +kernel

/-- The tail of the best four is regrouped as a whole. -/
theorem score_all_or_nothing_fiveImages :
    ((imageScorer.score imageIndex).result unscoredImages).1 =
        .ok ((imageScorer.score imageIndex).result unscoredImages).2.top ∧
      Regrouped scoredImages ⟨[0, 1, 2, 3], 1⟩
        ((imageScorer.score imageIndex).result unscoredImages).2 := by
  have known : imageScorer.reference = some [0] := rfl
  obtain ⟨chosen, selected, -, -, -, whole⟩ :=
    score_all_or_nothing known (by decide) (by decide) result_build_images
  obtain rfl : _ = chosen := Except.ok.inj (select_images.symm.trans selected)
  refine whole [(0, [0]), (1, [1]), (2, [.finite (-2)]), (3, [.finite 2])] (by decide) ?_
    (by decide) (by decide)
  simp only [fetchFeatures, List.mergeSort_eq_insertionSort]
  decide +kernel

/-- The images after the whole call: the right one stands in front of the left one. -/
def regroupedImages : Pass String Scalar .exact where
  results := ⟨#[⟨"copy", .finite 1000⟩, ⟨"near", .finite 96⟩, ⟨"left", .finite 72⟩,
    ⟨"right", .finite 84⟩, ⟨"far", .finite 40⟩, ⟨"", 0⟩]⟩
  top := some ⟨[0, 1, 3, 2], 1⟩
  calls := .vectors [.text "copy", .text "near", .text "left", .text "right"] :: .key "right" ::
    .key "left" :: .key "near" :: .key "copy" :: scoredImages.calls

theorem result_score_images :
    (imageScorer.score imageIndex).result unscoredImages =
      (.ok (some ⟨[0, 1, 3, 2], 1⟩), regroupedImages) := by
  simp only [score, ScoreMap.build, ScoreMap.buildCounting, ScoreMap.queryNeighbors,
    TopList.select, organize, fetchFeatures, Ranking.rank_eq_insertionSort,
    List.mergeSort_eq_insertionSort]
  decide +kernel

end Images

end Scorer

end Lookalike
