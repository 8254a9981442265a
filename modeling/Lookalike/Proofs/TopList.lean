import Mathlib.Data.List.Nodup
import Lookalike.TopList
import Lookalike.Proofs.Ranking
import Lookalike.Proofs.ResultSet

/-!
# Top lists of known scores

Where the scores of all positions can be read, a top list is their ranking, cut off and split behind
the anchors. Where the scores are numbers besides, they fall along the list, and the tail holds
exactly what lies below the score of identical items, the best match apart.

## Main definitions

* `TopList.ranked`, positions by descending score
* `TopList.anchorCount`, how many of ranked positions are anchors
* `TopList.ofScores`, the top list of positions whose scores are known
* `TopList.Before`, the order by score and place
* `TopList.Alike`, that two lists differ in nothing but the places of what they list

## Main statements

* `TopList.select_eq_ofScores`
* `TopList.pairwise_ranked`, `TopList.lt_of_mem_drop_anchorCount`
* `TopList.ranked_eq_of_pairwise`, `TopList.anchorCount_append`
* `TopList.alike_ofScores`
-/

namespace Lookalike

section Position

variable {α : Type}

theorem Position.cut_natCast (size index : ℕ) :
    Position.cut size ((index : ℕ) : Int) = min index size := by
  have front : ¬ ((index : ℕ) : Int) < 0 := by omega
  exact (if_neg front).trans rfl

theorem Position.after_natCast (index : ℕ) (items : List α) :
    Position.after ((index : ℕ) : Int) items = items.drop index := by
  rw [Position.after, Position.cut_natCast]
  exact List.drop_eq_drop_min.symm

theorem Position.upTo_natCast (index : ℕ) (items : List α) :
    Position.upTo ((index : ℕ) : Int) items = items.take index := by
  rw [Position.upTo, Position.cut_natCast]
  exact List.take_eq_take_min.symm

end Position

namespace TopList

variable {Item : Type} {F : Format} {results : ResultSet Item F} {score : Position → Number F}
  {settings : Settings F} {positions : List Position} {identicalScore : Number F}

/-- Positions by descending score. -/
def ranked (score : Position → Number F) (positions : List Position) : List Position :=
  (Ranking.rank (positions.map fun position => (position, score position))).map (·.1)

/-- How many of ranked positions are anchors: the first, and those that follow up to the first whose
score is below that of an identical match. -/
def anchorCount (score : Position → Number F) (identicalScore : Number F) : List Position → ℕ
  | [] => 0
  | _ :: rest =>
    (rest.takeWhile fun position => !decide (score position < identicalScore)).length + 1

/-- The top list of positions whose scores are known. -/
def ofScores (score : Position → Number F) (settings : Settings F) (positions : List Position) :
    TopList :=
  ⟨(ranked score positions).take settings.maxTop,
    anchorCount score settings.identicalScore ((ranked score positions).take settings.maxTop)⟩

theorem ranked_perm (score : Position → Number F) (positions : List Position) :
    (ranked score positions).Perm positions := by
  refine ((Ranking.rank_perm _).map _).trans (.of_eq ?_)
  rw [List.map_map]
  exact List.map_id'' (fun _ => rfl) positions

theorem leadingIdentical_eq
    (known : ∀ position ∈ positions, results.scoreAt position = .ok (score position)) :
    leadingIdentical results identicalScore positions =
      .ok (positions.takeWhile fun position =>
        !decide (score position < identicalScore)).length := by
  induction positions with
  | nil => rfl
  | cons position rest ih =>
    rw [List.forall_mem_cons] at known
    rw [leadingIdentical, known.1, List.takeWhile_cons]
    dsimp only
    by_cases below : score position < identicalScore
    · simp [below]
    · rw [if_neg below, ih known.2]
      simp [below, Except.map]

theorem tailStartOf_eq
    (known : ∀ position ∈ positions, results.scoreAt position = .ok (score position)) :
    tailStartOf results identicalScore positions =
      .ok (anchorCount score identicalScore positions) := by
  cases positions with
  | nil => rfl
  | cons position rest =>
    rw [List.forall_mem_cons] at known
    rw [tailStartOf, leadingIdentical_eq known.2]
    rfl

/-- A selection whose scores can all be read succeeds. -/
theorem select_eq_ofScores
    (known : ∀ position ∈ positions, results.scoreAt position = .ok (score position)) :
    select results settings positions = .ok (ofScores score settings positions) := by
  have scored : positions.mapM (fun position => do
      let score ← results.scoreAt position
      pure (position, score)) =
      .ok (positions.map fun position => (position, score position)) :=
    mapM_eq_ok fun position member => by
      rw [known position member]
      rfl
  have listed : ∀ position ∈ (ranked score positions).take settings.maxTop,
      results.scoreAt position = .ok (score position) := fun position member =>
    known position ((ranked_perm score positions).mem_iff.mp (List.mem_of_mem_take member))
  have start : tailStartOf results settings.identicalScore _ = _ := tailStartOf_eq listed
  rw [select, scored]
  change (do let tailStart ← tailStartOf results settings.identicalScore
              ((ranked score positions).take settings.maxTop)
             pure (⟨_, tailStart⟩ : TopList)) = _
  rw [start]
  rfl

section Listed

theorem anchorCount_le (positions : List Position) :
    anchorCount score identicalScore positions ≤ positions.length := by
  cases positions with
  | nil => exact le_rfl
  | cons position rest => exact Nat.succ_le_succ (List.takeWhile_sublist _).length_le

theorem anchorCount_pos (some : positions ≠ []) :
    1 ≤ anchorCount score identicalScore positions := by
  cases positions with
  | nil => contradiction
  | cons position rest => exact Nat.succ_le_succ (Nat.zero_le _)

/-- Listed positions are some of the given ones. -/
theorem mem_of_mem_ofScores {position : Position}
    (listed : position ∈ (ofScores score settings positions).positions) :
    position ∈ positions :=
  (ranked_perm score positions).mem_iff.mp (List.mem_of_mem_take listed)

theorem nodup_ofScores (distinct : positions.Nodup) :
    (ofScores score settings positions).positions.Nodup :=
  ((ranked_perm score positions).nodup_iff.mpr distinct).sublist (List.take_sublist _ _)

theorem tail_ofScores (score : Position → Number F) (settings : Settings F)
    (positions : List Position) :
    (ofScores score settings positions).tail = (ofScores score settings positions).positions.drop
      (anchorCount score settings.identicalScore (ofScores score settings positions).positions) :=
  Position.after_natCast _ _

theorem anchors_ofScores (score : Position → Number F) (settings : Settings F)
    (positions : List Position) :
    (ofScores score settings positions).anchors = (ofScores score settings positions).positions.take
      (anchorCount score settings.identicalScore (ofScores score settings positions).positions) :=
  Position.upTo_natCast _ _

end Listed

section Numbers

/-- What is ranked are positions with their own scores. -/
theorem snd_of_mem_rank {item : Position × Number F}
    (member : item ∈ Ranking.rank (positions.map fun position => (position, score position))) :
    item.2 = score item.1 := by
  obtain ⟨position, -, rfl⟩ := List.mem_map.mp ((Ranking.rank_perm _).mem_iff.mp member)
  rfl

/-- Where all scores are numbers, they fall along the ranking. -/
theorem pairwise_ranked (numbers : ∀ position ∈ positions, (score position).isNaN = false) :
    (ranked score positions).Pairwise fun p q => score q ≤ score p := by
  have descending : (Ranking.rank (positions.map fun position =>
      (position, score position))).Pairwise fun a b => b.2 ≤ a.2 :=
    Ranking.pairwise_rank (by simpa using numbers)
  rw [ranked, List.pairwise_map]
  refine descending.imp_of_mem fun {a b} member member' le => ?_
  rwa [← snd_of_mem_rank member, ← snd_of_mem_rank member']

/-- Where scores fall along a list, its first one is the highest. -/
theorem le_of_head? (descending : positions.Pairwise fun p q => score q ≤ score p)
    {first position : Position} (head : positions.head? = some first)
    (member : position ∈ positions) (number : (score first).isNaN = false) :
    score position ≤ score first := by
  obtain ⟨rest, rfl⟩ := List.head?_eq_some_iff.mp head
  rcases List.mem_cons.mp member with rfl | behind
  · exact Number.le_refl number
  · exact (List.pairwise_cons.mp descending).1 position behind

/-- Where scores fall along a list, its last one is the lowest. -/
theorem le_of_getLast? (descending : positions.Pairwise fun p q => score q ≤ score p)
    {last position : Position} (bottom : positions.getLast? = some last)
    (member : position ∈ positions) (number : (score last).isNaN = false) :
    score last ≤ score position := by
  obtain ⟨front, rfl⟩ := List.getLast?_eq_some_iff.mp bottom
  rcases List.mem_append.mp member with before | same
  · exact (List.pairwise_append.mp descending).2.2 position before last (List.mem_singleton_self _)
  · obtain rfl := List.mem_singleton.mp same
    exact Number.le_refl number

/-- Where scores fall along a list, all behind its anchors lie below the score of an identical
match. -/
theorem lt_of_mem_drop_anchorCount
    (descending : positions.Pairwise fun p q => score q ≤ score p) {position : Position}
    (member : position ∈ positions.drop (anchorCount score identicalScore positions)) :
    score position < identicalScore := by
  cases positions with
  | nil => cases member
  | cons first rest =>
    have rest_descending := (List.pairwise_cons.mp descending).2
    clear descending
    rw [anchorCount, List.drop_succ_cons] at member
    induction rest with
    | nil => cases member
    | cons next rest ih =>
      obtain ⟨highest, others⟩ := List.pairwise_cons.mp rest_descending
      rw [List.takeWhile_cons] at member
      -- The first that lies below takes all behind it along.
      by_cases below : score next < identicalScore
      · simp only [below, decide_true, Bool.not_true, Bool.false_eq_true, if_false,
          List.length_nil, List.drop_zero, List.mem_cons] at member
        rcases member with rfl | behind
        · exact below
        · exact Number.lt_of_le_of_lt (highest position behind) below
      · simp only [below, decide_false, Bool.not_false, if_true, List.length_cons,
          List.drop_succ_cons] at member
        exact ih member others

/-- An anchor but the first is not below the score of an identical match. -/
theorem not_lt_of_mem_tail_take_anchorCount {position : Position}
    (member : position ∈ (positions.take (anchorCount score identicalScore positions)).tail) :
    ¬ score position < identicalScore := by
  cases positions with
  | nil => cases member
  | cons first rest =>
    rw [anchorCount, List.take_succ_cons, List.tail_cons] at member
    induction rest with
    | nil => cases member
    | cons next rest ih =>
      rw [List.takeWhile_cons] at member
      by_cases below : score next < identicalScore
      · simp [below] at member
      · simp only [below, decide_false, Bool.not_false, if_true, List.length_cons,
          List.take_succ_cons, List.mem_cons] at member
        rcases member with rfl | behind
        · exact below
        · exact ih behind

/-- Whether one position stands in front of another by their scores and, where these are equal, by
their places in the result set. -/
def Before (score : Position → Number F) (p q : Position) : Prop :=
  score q ≤ score p ∧ (score p ≤ score q → p < q)

theorem Before.of_lt {p q : Position} (above : score q < score p) : Before score p q :=
  ⟨Number.le_of_lt above, fun le => absurd above (Number.not_lt_of_le le)⟩

/-- Where all scores are numbers, positions of equal score stand in the ranking as given. -/
theorem pairwise_ranked_stable (numbers : ∀ position ∈ positions, (score position).isNaN = false)
    {r : Position → Position → Prop} (given : positions.Pairwise r) :
    (ranked score positions).Pairwise fun p q =>
      score q ≤ score p ∧ (score p ≤ score q → r p q) := by
  have given' : (positions.map fun position => (position, score position)).Pairwise
      fun a b => r a.1 b.1 := List.pairwise_map.mpr given
  have stable := Ranking.pairwise_rank_stable (by simpa using numbers) given'
  rw [ranked, List.pairwise_map]
  refine stable.imp_of_mem fun {a b} member member' ordered => ?_
  rwa [← snd_of_mem_rank member, ← snd_of_mem_rank member']

/-- Positions that are given in increasing order are ranked by score and place. -/
theorem pairwise_before_ranked (numbers : ∀ position ∈ positions, (score position).isNaN = false)
    (increasing : positions.Pairwise (· < ·)) :
    (ranked score positions).Pairwise (Before score) :=
  pairwise_ranked_stable numbers increasing

/-- The ranking is the only arrangement by score and place. -/
theorem ranked_eq_of_pairwise (numbers : ∀ position ∈ positions, (score position).isNaN = false)
    (increasing : positions.Pairwise (· < ·)) {arranged : List Position}
    (kept : arranged.Perm positions) (ordered : arranged.Pairwise (Before score)) :
    ranked score positions = arranged := by
  refine List.Perm.eq_of_pairwise ?_ (pairwise_before_ranked numbers increasing) ordered
    ((ranked_perm score positions).trans kept.symm)
  intro p q _ _ before after
  exact absurd (before.2 after.1) (lt_asymm (after.2 before.1))

/-- The anchors of a list are its first part, as far as that is at least as good as an identical
match from its second position on, while what follows is not. -/
theorem anchorCount_append {anchors tail : List Position} (some : anchors ≠ [])
    (identical : ∀ position ∈ anchors.tail, ¬ score position < identicalScore)
    (below : ∀ position ∈ tail.head?, score position < identicalScore) :
    anchorCount score identicalScore (anchors ++ tail) = anchors.length := by
  cases anchors with
  | nil => contradiction
  | cons first rest =>
    have all : ∀ position ∈ rest, (!decide (score position < identicalScore)) = true := by
      simpa using identical
    rw [List.cons_append, anchorCount, List.takeWhile_append_of_pos all, List.length_append,
      List.length_cons]
    cases tail with
    | nil => rfl
    | cons next others =>
      have ends : score next < identicalScore := below next rfl
      simp [ends]

end Numbers

section Named

variable {Q : Type} {name name' : Position → Q} {scoreOf : Q → Number F}
  {score' : Position → Number F} {positions' : List Position}

/-- Where distinct scores are told apart by their order, they fall strictly along the ranking. -/
theorem pairwise_lt_ranked (plain : ∀ position ∈ positions, (score position).IsPlain)
    (distinct : (positions.map score).Nodup) :
    (ranked score positions).Pairwise fun p q => score q < score p := by
  have kept := ranked_perm score positions
  have descending := pairwise_ranked fun position member => (plain position member).isNaN
  have apart : (ranked score positions).Pairwise fun p q => score p ≠ score q :=
    List.pairwise_map.mp ((kept.map score).nodup_iff.mpr distinct)
  refine (descending.and apart).imp_of_mem fun {p q} member member' ordered => ?_
  rcases (plain q (kept.mem_iff.mp member')).lt_or_lt (plain p (kept.mem_iff.mp member))
    ordered.2.symm with below | above
  · exact below
  · exact absurd above (Number.not_lt_of_le ordered.1)

theorem pairwise_map_ranked (known : ∀ p ∈ positions, score p = scoreOf (name p))
    (plain : ∀ p ∈ positions, (score p).IsPlain) (distinct : (positions.map score).Nodup) :
    ((ranked score positions).map name).Pairwise fun a b => scoreOf b < scoreOf a := by
  have kept := ranked_perm score positions
  rw [List.pairwise_map]
  refine (pairwise_lt_ranked plain distinct).imp_of_mem fun {p q} member member' below => ?_
  rwa [← known p (kept.mem_iff.mp member), ← known q (kept.mem_iff.mp member')]

/-- Positions of the same names, which alone decide on the scores, have the same scores. -/
theorem map_score_perm (known : ∀ p ∈ positions, score p = scoreOf (name p))
    (known' : ∀ p ∈ positions', score' p = scoreOf (name' p))
    (same : (positions'.map name').Perm (positions.map name)) :
    (positions'.map score').Perm (positions.map score) := by
  have scores := same.map scoreOf
  rw [List.map_map, List.map_map] at scores
  rw [List.map_congr_left known, List.map_congr_left known']
  exact scores

/-- Positions of the same names, which alone decide on the scores, are ranked alike if all scores
are distinct. -/
theorem map_ranked_eq (known : ∀ p ∈ positions, score p = scoreOf (name p))
    (known' : ∀ p ∈ positions', score' p = scoreOf (name' p))
    (same : (positions'.map name').Perm (positions.map name))
    (plain : ∀ p ∈ positions, (score p).IsPlain) (distinct : (positions.map score).Nodup) :
    (ranked score' positions').map name' = (ranked score positions).map name := by
  have scores := map_score_perm known known' same
  have plain' : ∀ p ∈ positions', (score' p).IsPlain := by
    intro p member
    obtain ⟨q, member', equal⟩ := List.mem_map.mp
      (scores.mem_iff.mp (List.mem_map_of_mem member))
    rw [← equal]
    exact plain q member'
  -- Both rankings are strictly ordered by the scores of the names.
  refine List.Perm.eq_of_pairwise ?_
    (pairwise_map_ranked known' plain' (scores.nodup_iff.mpr distinct))
    (pairwise_map_ranked known plain distinct) ?_
  · intro a b _ _ below above
    exact absurd below (Number.not_lt_of_le (Number.le_of_lt above))
  · exact ((ranked_perm score' positions').map name').trans
      (same.trans ((ranked_perm score positions).map name).symm)

/-- How many of ranked positions are anchors is a matter of their scores. -/
theorem anchorCount_congr (same : positions'.map score' = positions.map score) :
    anchorCount score' identicalScore positions' = anchorCount score identicalScore positions := by
  have counted : ∀ (score : Position → Number F) (positions : List Position),
      (positions.takeWhile fun p => !decide (score p < identicalScore)).length =
        ((positions.map score).takeWhile fun s => !decide (s < identicalScore)).length := by
    intro score positions
    rw [List.takeWhile_map, List.length_map]
    rfl
  cases positions with
  | nil =>
    obtain rfl := List.map_eq_nil_iff.mp same
    rfl
  | cons first rest =>
    cases positions' with
    | nil => cases same
    | cons first' rest' =>
      rw [anchorCount, anchorCount, counted, counted, (List.cons.inj same).2]

/-- Two top lists that have positions of the same names in the same order and are split at one
place. -/
structure Alike (name name' : Position → Q) (top top' : TopList) : Prop where
  positions : top'.positions.map name' = top.positions.map name
  tailStart : top'.tailStart = top.tailStart

/-- The best of positions with the same names, which alone decide on the scores, make up like lists
if all scores are distinct. -/
theorem alike_ofScores (known : ∀ p ∈ positions, score p = scoreOf (name p))
    (known' : ∀ p ∈ positions', score' p = scoreOf (name' p))
    (same : (positions'.map name').Perm (positions.map name))
    (plain : ∀ p ∈ positions, (score p).IsPlain) (distinct : (positions.map score).Nodup) :
    Alike name name' (ofScores score settings positions) (ofScores score' settings positions') := by
  have listed : ((ranked score' positions').take settings.maxTop).map name' =
      ((ranked score positions).take settings.maxTop).map name := by
    rw [List.map_take, List.map_take, map_ranked_eq known known' same plain distinct]
  refine ⟨listed, Int.ofNat_inj.mpr (anchorCount_congr ?_)⟩
  have within : ∀ p ∈ (ranked score positions).take settings.maxTop, score p = scoreOf (name p) :=
    fun p member => known p ((ranked_perm score positions).mem_iff.mp (List.mem_of_mem_take member))
  have within' : ∀ p ∈ (ranked score' positions').take settings.maxTop,
      score' p = scoreOf (name' p) := fun p member =>
    known' p ((ranked_perm score' positions').mem_iff.mp (List.mem_of_mem_take member))
  have scores := congrArg (List.map scoreOf) listed
  rw [List.map_map, List.map_map] at scores
  rw [List.map_congr_left within, List.map_congr_left within']
  exact scores

/-- Positions that are moved without a change to their order or their scores are ranked alike. -/
theorem ranked_map {move : Position → Position}
    (numbers : ∀ p ∈ positions, (score p).isNaN = false)
    (same : ∀ p ∈ positions, score' (move p) = score p) :
    ranked score' (positions.map move) = (ranked score positions).map move := by
  let moved (item : Position × Number F) : Position × Number F := (move item.1, item.2)
  have items : (positions.map move).map (fun p => (p, score' p)) =
      (positions.map fun p => (p, score p)).map moved := by
    rw [List.map_map, List.map_map]
    exact List.map_congr_left fun p member => by
      simp only [Function.comp_apply, moved, same p member]
  have numbers' : ∀ item ∈ positions.map fun p => (p, score p), item.2.isNaN = false := by
    simpa using numbers
  -- Sorting compares scores alone, and these move along.
  have sorted := List.map_mergeSort (f := moved) (r := Ranking.ranksBefore)
    (s := Ranking.ranksBefore) (l := positions.map fun p => (p, score p)) fun _ _ _ _ => rfl
  rw [ranked, ranked, items, Ranking.rank_of_numbers numbers', Ranking.rank_of_numbers,
    ← sorted, List.map_map, List.map_map]
  · rfl
  · intro item member
    obtain ⟨given, member', rfl⟩ := List.mem_map.mp member
    exact numbers' given member'

/-- The best of positions that are moved so make up like lists. -/
theorem alike_ofScores_map {move : Position → Position}
    (numbers : ∀ p ∈ positions, (score p).isNaN = false)
    (same : ∀ p ∈ positions, score' (move p) = score p) :
    Alike move id (ofScores score settings positions)
      (ofScores score' settings (positions.map move)) := by
  have listed : (ranked score' (positions.map move)).take settings.maxTop =
      ((ranked score positions).take settings.maxTop).map move := by
    rw [ranked_map numbers same, List.map_take]
  refine ⟨(List.map_id _).trans listed, Int.ofNat_inj.mpr (anchorCount_congr ?_)⟩
  rw [listed, List.map_map]
  exact List.map_congr_left fun p member =>
    same p ((ranked_perm score positions).mem_iff.mp (List.mem_of_mem_take member))

namespace Alike

variable {top top' : TopList} (alike : Alike name name' top top')

include alike

theorem length_positions : top'.positions.length = top.positions.length := by
  simpa using congrArg List.length alike.positions

theorem tailSize : top'.tailSize = top.tailSize := by
  rw [TopList.tailSize, TopList.tailSize, alike.length_positions, alike.tailStart]

/-- What stands behind a place of one list has the names of what stands behind it in the other. -/
theorem after (start : Position) : (Position.after start top'.positions).map name' =
    (Position.after start top.positions).map name := by
  rw [Position.after, Position.after, List.map_drop, List.map_drop, alike.positions,
    alike.length_positions]

/-- What goes by the names is told alike along both lists. -/
theorem map_congr {α : Type} {value value' : Position → α}
    (same : ∀ p ∈ top.positions, ∀ p' ∈ top'.positions, name' p' = name p →
      value' p' = value p) : top'.positions.map value' = top.positions.map value := by
  apply List.ext_getElem? fun k => ?_
  have names := congrArg (·[k]?) alike.positions
  simp only [List.getElem?_map] at names ⊢
  cases found : top.positions[k]? with
  | none =>
    rw [found, Option.map_none, Option.map_eq_none_iff] at names
    rw [names, Option.map_none, Option.map_none]
  | some p =>
    rw [found, Option.map_some] at names
    obtain ⟨p', found', name_eq⟩ := Option.map_eq_some_iff.mp names
    rw [found', Option.map_some, Option.map_some,
      same p (List.mem_of_getElem? found) p' (List.mem_of_getElem? found') name_eq]

theorem symm : Alike name' name top' top := ⟨alike.positions.symm, alike.tailStart.symm⟩

theorem tail : top'.tail.map name' = top.tail.map name := by
  rw [TopList.tail, TopList.tail, alike.tailStart, alike.after]

end Alike

end Named

end TopList

end Lookalike
