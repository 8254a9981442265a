import Lookalike.Proofs.Chain.Renaming
import Lookalike.Proofs.ScoreMap.Gather
import Lookalike.Proofs.Scorer.Classes

/-!
# Calls told by items

A scoring call works on positions, but with a stateless index it goes by the items that stand there:
an item alone decides on its score, on the vector that is fetched for it, and so on its place in a
regrouped tail.

## Main definitions

* `ScoreMap.scoreOf`, the score of an item
* `CaseIndex.vectorsOf`, the vectors of items
* `Scorer.Tells`, that a result set holds items whose keys are told

## Main statements

* `ScoreMap.Projected.map_itemIn`, `ScoreMap.Projected.eq_of_itemIn`
* `Scorer.FetchesAll.exists_vectorsOf`, `Scorer.exists_fetchesAll`
* `Scorer.Returns.map_positions_eq_of_fetches`, `Scorer.Returns.map_positions_eq`
* `Scorer.IsRegrouping.getElem?_scores_of_names`, `Scorer.exists_candidates_of_alike`
-/

namespace Lookalike

variable {Item Key Hash : Type} [BEq Key] {F : Format}

namespace ScoreMap

variable {scores : List (Key × Number F)} {keyOf : Item → Option Key} {items : List Item}
  {matched : List Position} {results : ResultSet Item F} {k : ℕ} {position : Position}

/-- The score that a projection writes where an item stands. -/
def scoreOf (scores : List (Key × Number F)) (keyOf : Item → Option Key) (item : Option Item) :
    Number F :=
  (item.bind (itemScore? scores keyOf)).getD 0

theorem matchedFrom_map (items : List Item) (position : ℕ) :
    matchedFrom scores id position (items.map keyOf) = matchedFrom scores keyOf position items := by
  induction items generalizing position with
  | nil => rfl
  | cons item rest ih =>
    rw [List.map_cons, matchedFrom, matchedFrom, ih]
    rfl

/-- The items at matched positions are those that have a score, in order. The induction is on the
items to come; those before stay in front. -/
theorem map_itemIn_matchedFrom (before items : List Item) :
    (matchedFrom scores keyOf before.length items).map (itemIn (before ++ items)) =
      (items.filter fun item => (itemScore? scores keyOf item).isSome).map some := by
  induction items generalizing before with
  | nil => rfl
  | cons item rest ih =>
    have later := ih (before ++ [item])
    rw [List.length_append, List.length_singleton, List.append_assoc, List.singleton_append]
      at later
    have here : itemIn (before ++ item :: rest) (before.length : ℕ) = some item := by simp
    rw [matchedFrom, List.filter_cons]
    split_ifs
    · rw [List.map_cons, here, later, List.map_cons]
    · exact later

namespace Projected

variable (projected : Projected scores (items.map keyOf) matched results)

include projected

theorem map_itemIn : matched.map (itemIn items) =
    (items.filter fun item => (itemScore? scores keyOf item).isSome).map some := by
  rw [projected.matched_eq, matchedFrom_map]
  exact map_itemIn_matchedFrom [] items

/-- A position has the score of its item. -/
theorem getElem?_scores_eq (k : ℕ) :
    results.scores[k]? = items[k]?.map fun item => scoreOf scores keyOf (some item) := by
  rw [projected.getElem?_scores, List.getElem?_map, Option.map_map]
  rfl

theorem length_items : items.length = results.size := by
  have length := congrArg List.length projected.scores_eq
  rw [ResultSet.length_scores, List.length_map, List.length_map] at length
  exact length.symm

theorem held_eq (member : position ∈ matched) :
    results.held position = scoreOf scores keyOf (itemIn items position) := by
  obtain ⟨k, within, rfl⟩ := projected.exists_eq_natCast member
  have inside : k < items.length := projected.length_items ▸ within
  have found : items[k]? = some items[k] := List.getElem?_eq_getElem inside
  have score := projected.getElem?_scores_eq k
  rw [found] at score
  rw [ResultSet.held_of_scoreAt (ResultSet.scoreAt_eq_ok_iff.mpr score), itemIn_natCast, found]

/-- Where scores are distinct, no item that is matched stands anywhere else. -/
theorem eq_of_itemIn (distinct : (matched.map results.held).Nodup) (member : position ∈ matched)
    (same : itemIn items position = items[k]?) : position = (k : ℕ) := by
  obtain ⟨j, within, rfl⟩ := projected.exists_eq_natCast member
  rw [itemIn_natCast] at same
  have matched' : (k : Position) ∈ matched := by
    obtain ⟨key, score, told, known, held⟩ := projected.mem_matched_iff.mp member
    rw [projected.getElem?_scores_eq, same, ← projected.getElem?_scores_eq] at held
    rw [List.getElem?_map, same, ← List.getElem?_map] at told
    exact projected.mem_matched_iff.mpr ⟨key, score, told, known, held⟩
  refine List.inj_on_of_nodup_map distinct member matched' ?_
  rw [projected.held_eq member, projected.held_eq matched', itemIn_natCast, itemIn_natCast, same]

end Projected

end ScoreMap

section Fetch

variable {index : CaseIndex Item Key Hash F}

/-- The vector of a key whose stored features can be cast to one. -/
def vectorOf (stored : List (Key × Option (Features F))) (key : Key) :
    Option (FeatureVector F) :=
  (stored.lookup key).join.bind fun features => features.toVector.toOption

/-- The vectors of items, whatever has been asked before. -/
def CaseIndex.vectorsOf (index : CaseIndex Item Key Hash F) (items : List (Option Item)) :
    Except Fault (Option Item → Option (FeatureVector F)) :=
  (index.vectors [] (items.filterMap (·.bind index.keyOf))).map fun stored item =>
    (item.bind index.keyOf).bind (vectorOf stored)

/-- A stateless index knows the same vectors for keys in any order. -/
theorem CaseIndex.vectorsOf_eq (stateless : index.Stateless) {items : List (Option Item)}
    {keys : List Key} (same : (items.filterMap (·.bind index.keyOf)).Perm keys)
    (calls : List (IndexCall Item Key)) :
    index.vectorsOf items = (index.vectors calls keys).map fun stored item =>
      (item.bind index.keyOf).bind (vectorOf stored) := by
  -- What is read off an answer is read off its look-ups.
  have read : ∀ answer : Except Fault (List (Key × Option (Features F))),
      (answer.map fun stored (item : Option Item) =>
          (item.bind index.keyOf).bind (vectorOf stored)) =
        (answer.map fun stored key => stored.lookup key).map fun lookup (item : Option Item) =>
          (item.bind index.keyOf).bind fun key =>
            (lookup key).join.bind fun features => features.toVector.toOption := by
    intro answer
    cases answer <;> rfl
  rw [vectorsOf, read, stateless.vectors [] calls same, ← read]

namespace Scorer

variable {stored : List (Key × Option (Features F))} {keys : List (Position × Key)}
  {vectors : List (Position × FeatureVector F)} {position : Position} {vector : FeatureVector F}

/-- A vector that is fetched for a position is that of its key. -/
theorem exists_of_mem_vectorsOf (fetched : vectorsOf stored keys = .ok vectors)
    (member : (position, vector) ∈ vectors) :
    ∃ key, (position, key) ∈ keys ∧ vectorOf stored key = some vector := by
  induction keys generalizing vectors with
  | nil =>
    cases fetched
    cases member
  | cons entry rest ih =>
    obtain ⟨first, key⟩ := entry
    rw [vectorsOf] at fetched
    cases known : (stored.lookup key).join with
    | none =>
      rw [known] at fetched
      obtain ⟨key', behind, found⟩ := ih fetched member
      exact ⟨key', List.mem_cons_of_mem _ behind, found⟩
    | some features =>
      simp only [known] at fetched
      obtain ⟨cast, cast_eq, fetched⟩ := exists_of_bind_eq_ok fetched
      obtain ⟨others, rest_fetched, done⟩ := exists_of_bind_eq_ok fetched
      cases done
      rcases List.mem_cons.mp member with same | behind
      · cases same
        refine ⟨key, List.mem_cons_self, ?_⟩
        rw [vectorOf, known, Option.bind_some, cast_eq]
        rfl
      · obtain ⟨key', behind', found⟩ := ih rest_fetched behind
        exact ⟨key', List.mem_cons_of_mem _ behind', found⟩

/-- Where the features of all keys can be cast to vectors, each position whose key has features gets
the vector of its key. -/
theorem vectorsOf_eq_ok
    (castable : ∀ entry ∈ keys, ∀ features ∈ (stored.lookup entry.2).join,
      ∃ vector, features.toVector = .ok vector) :
    vectorsOf stored keys =
      .ok (keys.filterMap fun entry => (vectorOf stored entry.2).map (entry.1, ·)) := by
  induction keys with
  | nil => rfl
  | cons entry rest ih =>
    obtain ⟨position, key⟩ := entry
    rw [List.forall_mem_cons] at castable
    rw [vectorsOf, ih castable.2, List.filterMap_cons]
    cases known : (stored.lookup key).join with
    | none => simp [vectorOf, known]
    | some features =>
      obtain ⟨vector, cast⟩ := castable.1 features known
      simp only [vectorOf, known, Option.bind_some, cast]
      rfl

/-- Where all keys have vectors, each position gets one. -/
theorem exists_vectorsOf_of_isSome
    (known : ∀ entry ∈ keys, (vectorOf stored entry.2).isSome) :
    ∃ vectors, vectorsOf stored keys = .ok vectors ∧ vectors.length = keys.length := by
  refine ⟨_, vectorsOf_eq_ok fun entry member features found => ?_, ?_⟩
  · have castable := known entry member
    rw [vectorOf, found, Option.bind_some] at castable
    cases cast : features.toVector with
    | ok vector => exact ⟨vector, rfl⟩
    | error fault =>
      rw [cast] at castable
      cases castable
  · rw [List.filterMap_length_eq_length]
    intro entry member
    rw [Option.isSome_map]
    exact known entry member

variable {index : CaseIndex Item Key Hash F} {pass : Pass Item Key F} {top : TopList}
  {items : List Item}

/-- A result set holds some items, and the index tells their keys at any time. -/
structure Tells (index : CaseIndex Item Key Hash F) (results : ResultSet Item F)
    (items : List Item) : Prop where
  items_eq : results.items = items
  keys : ∀ item ∈ items, ∀ calls, index.key calls item = .ok (index.keyOf item)

/-- A fetch asks for the vectors of the keys of the items. -/
theorem Tells.result_fetchFeatures (stateless : index.Stateless)
    (tells : Tells index pass.results items) (fits : top.Fits pass.results) :
    ∃ asked calls,
      let keys := keyed (fun position => (itemIn items position).bind index.keyOf)
        ((neededFor top).mergeSort fun a b => decide (a ≤ b))
      (fetchFeatures index (neededFor top)).result pass =
        (index.vectors asked (keys.map (·.2)) >>= fun stored => Scorer.vectorsOf stored keys,
          { pass with calls }) ∧
      index.vectorsOf ((neededFor top).map (itemIn items)) =
        (index.vectors asked (keys.map (·.2))).map fun stored item =>
          (item.bind index.keyOf).bind (vectorOf stored) := by
  have distinct : (neededFor top).Nodup := fits.distinct.sublist (List.drop_sublist _ _)
  have told := told_of_mem_neededFor fits tells.items_eq tells.keys
  obtain ⟨asked, -, run⟩ := Scorer.result_fetchFeatures distinct told
  refine ⟨asked, _, run, CaseIndex.vectorsOf_eq stateless ?_ asked⟩
  -- The keys are asked for in the order of the positions, not in that of the list.
  rw [List.filterMap_map, keyed, List.map_filterMap]
  have sorted := List.mergeSort_perm (neededFor top) fun a b => decide (a ≤ b)
  refine (sorted.symm.filterMap _).trans (.of_eq ?_)
  refine List.filterMap_congr fun position _ => ?_
  rw [Function.comp_apply]
  cases (itemIn items position).bind index.keyOf <;> rfl

/-- With all vectors fetched, each position that needs one has that of its item. -/
theorem FetchesAll.exists_vectorsOf (fetches : FetchesAll index pass top vectors)
    (stateless : index.Stateless) (tells : Tells index pass.results items)
    (fits : top.Fits pass.results) :
    ∃ vectorAt, index.vectorsOf ((neededFor top).map (itemIn items)) = .ok vectorAt ∧
      ∀ position ∈ neededFor top, ∃ vector, vectorAt (itemIn items position) = some vector ∧
        vectors.lookup position = some vector := by
  obtain ⟨asked, calls, run, known⟩ := tells.result_fetchFeatures stateless fits
  have fetched := fetches.1
  rw [run] at fetched
  obtain ⟨stored, answered, read⟩ := exists_of_bind_eq_ok fetched
  rw [answered] at known
  refine ⟨_, known, fun position member => ?_⟩
  obtain ⟨vector, lookup, listed⟩ := exists_lookup_of_fetchesAll fits fetches position member
  obtain ⟨key, keyed_mem, found⟩ := exists_of_mem_vectorsOf read listed
  exact ⟨vector, Option.bind_eq_some_iff.mpr ⟨key, (mem_keyed_iff.mp keyed_mem).2, found⟩, lookup⟩

/-- Where all items that need a vector have one, all are fetched. -/
theorem exists_fetchesAll (stateless : index.Stateless)
    (tells : Tells index pass.results items) (fits : top.Fits pass.results)
    {vectorAt : Option Item → Option (FeatureVector F)}
    (known : index.vectorsOf ((neededFor top).map (itemIn items)) = .ok vectorAt)
    (all : ∀ position ∈ neededFor top, (vectorAt (itemIn items position)).isSome) :
    ∃ vectors, FetchesAll index pass top vectors := by
  obtain ⟨asked, calls, run, known'⟩ := tells.result_fetchFeatures stateless fits
  set keys := keyed (fun position => (itemIn items position).bind index.keyOf)
    ((neededFor top).mergeSort fun a b => decide (a ≤ b))
  rw [known'] at known
  obtain ⟨stored, answered, rfl⟩ := exists_of_map_eq_ok known
  have sorted := List.mergeSort_perm (neededFor top) fun a b => decide (a ≤ b)
  have found : ∀ position ∈ (neededFor top).mergeSort fun a b => decide (a ≤ b),
      ∃ key, (itemIn items position).bind index.keyOf = some key ∧
        (vectorOf stored key).isSome := by
    intro position needed
    obtain ⟨vector, known⟩ := Option.isSome_iff_exists.mp
      (all position (sorted.mem_iff.mp needed))
    obtain ⟨key, key_eq, read⟩ := Option.bind_eq_some_iff.mp known
    exact ⟨key, key_eq, Option.isSome_of_eq_some read⟩
  have present : ∀ entry ∈ keys, (vectorOf stored entry.2).isSome := by
    intro entry member
    obtain ⟨needed, key⟩ := mem_keyed_iff.mp member
    obtain ⟨key', key_eq, read⟩ := found entry.1 needed
    obtain rfl : entry.2 = key' := Option.some.inj (key.symm.trans key_eq)
    exact read
  have length : keys.length = (neededFor top).length := by
    rw [← sorted.length_eq]
    apply length_keyed
    intro position needed
    obtain ⟨key, key_eq, -⟩ := found position needed
    exact Option.isSome_of_eq_some key_eq
  obtain ⟨vectors, read, complete⟩ := exists_vectorsOf_of_isSome present
  refine ⟨vectors, ?_, by rw [complete, length]⟩
  rw [run, answered]
  exact read

end Scorer

end Fetch

namespace Scorer

section Regroup

variable {scorer : Scorer Hash F} {index : CaseIndex Item Key Hash F} {reference : FeatureVector F}
  {chosen top : TopList} {vectors : List (Position × FeatureVector F)}
  {pass primary final : Pass Item Key F} {items : List Item} [TableKey Key] [BEq Hash]

/-- A call that returns a list has gone through its regrouping. -/
theorem Returns.result_organize
    (returned : Returns scorer index pass reference map primary chosen top final)
    (run : (scorer.score index).result pass = (.ok (some top), final)) :
    (organize scorer index reference chosen).result { primary with top := some chosen } =
      (.ok (), final) ∧ final.top = some top := by
  cases organized : (organize scorer index reference chosen).result
      { primary with top := some chosen } with
  | mk outcome ended =>
    rw [result_score returned.known returned.features returned.busy returned.built
      returned.selected organized] at run
    cases outcome with
    | error fault => cases run
    | ok _ =>
      obtain ⟨same, rfl⟩ := Prod.mk.inj run
      exact ⟨rfl, Except.ok.inj same⟩

/-- A regrouped list is in the order in which the names of its entries are arranged by the vectors
that have been fetched for them. -/
theorem Returns.map_positions_eq_of_fetches {Q : Type}
    (returned : Returns scorer index pass reference map primary chosen top final)
    (name : Position → Q) (vectorAt : Q → Option (FeatureVector F))
    (run : (scorer.score index).result pass = (.ok (some top), final)) (long : 2 < chosen.tailSize)
    (fetches : FetchesAll index { primary with top := some chosen } chosen vectors)
    (named : ∀ position ∈ neededFor chosen, vectorAt (name position) = vectors.lookup position) :
    top.positions.map name =
      Chain.arrangedNames (fun q => widened ((vectorAt q).getD [])) (widened reference)
        (chosen.positions.map name) chosen.tailStart scorer.settings.rangeCheck := by
  have fits := returned.chosen_eq.2
  have start := fits.one_le_tailStart long
  obtain ⟨organized, listed⟩ := returned.result_organize run
  rw [organize_of_complete scorer reference long (Prod.ext fetches.1 rfl) fetches.2] at organized
  obtain ⟨unharmed, same⟩ := regroup_eq_ok organized
  obtain rfl : top = { chosen with positions := (chained scorer reference chosen vectors).order } :=
    Option.some.inj (listed.symm.trans same)
  -- What is looked up under a position is the vector of its name.
  have features : ∀ p ∈ chosen.positions.drop (chosen.tailStart - 1).toNat,
      (entryOf (vectors.lookup p)).map widened =
        .ok (widened ((vectorAt (name p)).getD [])) := by
    intro p member
    rw [← neededFor_eq_drop start] at member
    obtain ⟨vector, lookup, -⟩ := exists_lookup_of_fetchesAll fits fetches p member
    rw [named p member, lookup]
    rfl
  exact Chain.map_order_reorder start long features
    (length_eq_of_fault_eq_none long features unharmed)

/-- A regrouped list is in the order in which its items are arranged by their vectors. -/
theorem Returns.map_positions_eq (stateless : index.Stateless)
    (returned : Returns scorer index pass reference map primary chosen top final)
    (run : (scorer.score index).result pass = (.ok (some top), final))
    (tells : Tells index primary.results items)
    (regroups : Regroups index { primary with top := some chosen } chosen)
    {vectorAt : Option Item → Option (FeatureVector F)}
    (known : index.vectorsOf ((neededFor chosen).map (itemIn items)) = .ok vectorAt) :
    top.positions.map (itemIn items) =
      Chain.arrangedNames (fun item => widened ((vectorAt item).getD [])) (widened reference)
        (chosen.positions.map (itemIn items)) chosen.tailStart scorer.settings.rangeCheck := by
  obtain ⟨long, vectors, fetches⟩ := regroups
  obtain ⟨vectorAt', known', fetched⟩ :=
    fetches.exists_vectorsOf stateless tells returned.chosen_eq.2
  obtain rfl : vectorAt = vectorAt' := Except.ok.inj (known.symm.trans known')
  refine returned.map_positions_eq_of_fetches _ vectorAt run long fetches fun position member => ?_
  obtain ⟨vector, at_item, lookup⟩ := fetched position member
  rw [at_item, lookup]

/-- Of two calls that regroup both or neither, both leave their lists alone, or both regroup them.
-/
theorem Returns.ended_both {pass' primary' final' : Pass Item Key F} {map' : ScoreMap Key F}
    {chosen' top' : TopList}
    (returned : Returns scorer index pass reference map primary chosen top final)
    (returned' : Returns scorer index pass' reference map' primary' chosen' top' final')
    (regroups_iff : Regroups index { primary' with top := some chosen' } chosen' ↔
      Regroups index { primary with top := some chosen } chosen) :
    (top = chosen ∧ final.results = primary.results) ∧
        top' = chosen' ∧ final'.results = primary'.results ∨
      (Regroups index { primary with top := some chosen } chosen ∧
        IsRegrouping primary.results chosen top final.results) ∧
      Regroups index { primary' with top := some chosen' } chosen' ∧
        IsRegrouping primary'.results chosen' top' final'.results := by
  rcases returned.ended with ⟨idle, alone⟩ | regrouped
  · rcases returned'.ended with ⟨-, alone'⟩ | ⟨regroups', -⟩
    · exact .inl ⟨alone, alone'⟩
    · exact absurd (regroups_iff.mp regroups') idle
  · rcases returned'.ended with ⟨idle', -⟩ | regrouped'
    · exact absurd (regroups_iff.mpr regrouped.1) idle'
    · exact .inr ⟨regrouped, regrouped'⟩

end Regroup

section Alike

variable {Q : Type} {name name' : Position → Q} {chosen chosen' top top' : TopList}

open TopList (Alike)

/-- Like lists need the vectors of positions of the same names. -/
theorem map_neededFor (alike : Alike name name' chosen chosen') :
    (neededFor chosen').map name' = (neededFor chosen).map name := by
  rw [neededFor, neededFor, alike.tailStart]
  exact alike.after _

/-- Regroupings of like lists into like lists spread the same scores. So two places of one name have
one score in the end if they had one before, as long as nothing else in the tails has their name and
names decide on the scores there. -/
theorem IsRegrouping.getElem?_scores_of_names {primary primary' final final' : ResultSet Item F}
    (regrouping : IsRegrouping primary chosen top final)
    (regrouping' : IsRegrouping primary' chosen' top' final')
    (alike : Alike name name' chosen chosen') (regrouped : Alike name name' top top')
    (scores : ∀ p ∈ chosen.tail, ∀ p' ∈ chosen'.tail, name' p' = name p →
      ∀ score score', primary.scoreAt p = .ok score → primary'.scoreAt p' = .ok score' →
        score' = score)
    {i j : ℕ} (same : name' (j : Position) = name (i : Position))
    (apart : ∀ p ∈ chosen.tail, name p = name (i : Position) → p = (i : Position))
    (apart' : ∀ p' ∈ chosen'.tail, name' p' = name' (j : Position) → p' = (j : Position))
    (before : primary'.scores[j]? = primary.scores[i]?) :
    final'.scores[j]? = final.scores[i]? := by
  by_cases inside : (i : Position) ∈ chosen.tail
  · obtain ⟨first, last, highest, lowest, head, high, bottom, low, -, spread⟩ := regrouping.inside
    obtain ⟨first', last', highest', lowest', head', high', bottom', low', -, spread'⟩ :=
      regrouping'.inside
    -- The tails have the same names at their ends, so the same scores are spread along them.
    have heads := congrArg List.head? alike.tail
    rw [List.head?_map, List.head?_map, head, head'] at heads
    obtain rfl : highest' = highest := scores _ (List.mem_of_head? head) _ (List.mem_of_head? head')
      (Option.some.inj heads) _ _ high high'
    have ends := congrArg List.getLast? alike.tail
    rw [List.getLast?_map, List.getLast?_map, bottom, bottom'] at ends
    obtain rfl : lowest' = lowest := scores _ (List.mem_of_getLast? bottom) _
      (List.mem_of_getLast? bottom') (Option.some.inj ends) _ _ low low'
    obtain ⟨k, place⟩ := List.getElem?_of_mem (regrouping.tail.mem_iff.mpr inside)
    have names := congrArg (·[k]?) regrouped.tail
    simp only [List.getElem?_map, place, Option.map_some] at names
    obtain ⟨position, place', named⟩ := Option.map_eq_some_iff.mp names
    obtain rfl := apart' position
      (regrouping'.tail.mem_iff.mp (List.mem_of_getElem? place')) (named.trans same.symm)
    have length : chosen'.tail.length = chosen.tail.length := by
      simpa using congrArg List.length alike.tail
    rw [ResultSet.scoreAt_eq_ok_iff.mp (spread k i place),
      ResultSet.scoreAt_eq_ok_iff.mp (spread' k j place'), length]
  -- Outside the tail the scores of the scoring pass stand.
  · have outside : (j : Position) ∉ chosen'.tail := by
      intro member
      have named : name' (j : Position) ∈ chosen.tail.map name :=
        alike.tail ▸ List.mem_map_of_mem member
      obtain ⟨p, member', named⟩ := List.mem_map.mp named
      exact inside (apart p member' (named.trans same) ▸ member')
    rw [regrouping.outside i inside, regrouping'.outside j outside, before]

omit [BEq Key] in
/-- Calls that end with like lists, at whose positions the same candidates stand, list the same
candidates. -/
theorem exists_candidates_of_alike {final final' : Pass Item Key F}
    (alike : Alike name name' top top')
    (listed : final.top = some top) (listed' : final'.top = some top')
    (within : ∀ p ∈ top.positions, ∃ k < final.results.size, p = (k : ℕ))
    (same : ∀ p ∈ top.positions, ∀ p' ∈ top'.positions, name' p' = name p →
      final'.results.candidateAt p' = final.results.candidateAt p) :
    ∃ found, candidates final = .ok found ∧ candidates final' = .ok found := by
  obtain ⟨found, read⟩ : ∃ found, top.positions.mapM final.results.candidateAt = .ok found := by
    apply exists_mapM_eq_ok
    intro p member
    obtain ⟨k, inside, rfl⟩ := within p member
    exact ResultSet.exists_candidateAt_eq_ok inside
  -- A traversal that succeeds is told by what its steps end with.
  have traversed := congrArg (List.mapM id) (alike.map_congr same)
  rw [List.mapM_map, List.mapM_map] at traversed
  refine ⟨found, ?_, ?_⟩
  · rw [candidates, listed]
    exact read
  · rw [candidates, listed']
    exact traversed.trans read

end Alike

section Steady

variable [TableKey Key] [BEq Hash] {scorer : Scorer Hash F} {index : CaseIndex Item Key Hash F}
  {reference reference' : FeatureVector F} {map map' : ScoreMap Key F}
  {chosen chosen' top top' : TopList}
  {pass pass' primary primary' final final' : Pass Item Key F}
  (steady : index.Steady) (sound : scorer.settings.IsSound)
  (returned : Returns scorer index pass reference map primary chosen top final)

include steady sound returned

/-- With a steady index the scores by key are the same for all result sets. -/
theorem Returns.byKey_eq
    (returned' : Returns scorer index pass' reference map' primary' chosen' top' final') :
    map'.byKey = map.byKey := by
  -- Both scans are told from one state, though they have been run in two.
  obtain ⟨gathered, -⟩ := ScoreMap.build_of_steady steady sound returned.features
    returned.busy returned.built pass
  obtain ⟨gathered', -⟩ := ScoreMap.build_of_steady steady sound returned'.features
    returned'.busy returned'.built pass
  exact (Prod.mk.inj (Except.ok.inj (gathered'.symm.trans gathered))).1

theorem Returns.projected :
    ScoreMap.Projected map.byKey (pass.results.items.map index.keyOf) map.matched
      primary.results := by
  obtain ⟨-, -, -, projected, -⟩ := ScoreMap.build_of_steady steady sound returned.features
    returned.busy returned.built pass
  exact projected

/-- The scores of one call are those that another one projects. -/
theorem Returns.projected_of_returns
    (returned' : Returns scorer index pass' reference map' primary' chosen' top' final') :
    ScoreMap.Projected map.byKey (pass'.results.items.map index.keyOf) map'.matched
      primary'.results := by
  rw [← returned.byKey_eq steady sound returned']
  exact returned'.projected steady sound

theorem Returns.tells : Tells index primary.results pass.results.items := by
  obtain ⟨-, -, items, -, keys⟩ := ScoreMap.build_of_steady steady sound returned.features
    returned.busy returned.built pass
  exact ⟨items, keys⟩

/-- The scores of matched positions are told apart by their order. -/
theorem Returns.isPlain_held {position : Position} (matched : position ∈ map.matched) :
    (primary.results.held position).IsPlain := by
  obtain ⟨-, plain, -⟩ := ScoreMap.build_of_steady steady sound returned.features
    returned.busy returned.built pass
  obtain ⟨entry, member, held⟩ := returned.exists_entry matched
  rw [held]
  exact plain entry member

end Steady

end Scorer

end Lookalike
