import Lookalike.Chain.Basic
import Lookalike.Proofs.Attempt

/-!
# Leaders

A pass over the candidates without measurements: the distance of a candidate to the pivot is given,
and it may depend on the cap. The candidate that leads at the end is chosen. Where every measurement
decides as the given distances do, a reordering measures without a fault and chooses the leaders.

## Main definitions

* `Chain.Lead`, which candidate leads and at what cost; `Chain.Lead.next`, after one more candidate
* `Chain.leader`, the candidate that leads at the end of a pass
* `Chain.arrangeLeaders`, the order in which the leaders of several passes are chosen
* `Chain.Decides`, that measuring decides as given distances do

## Main statements

* `Chain.cheapest_eq_leader`, `Chain.arrange_eq_arrangeLeaders`
* `Chain.reorder_eq_arrangeLeaders`, a whole reordering by leaders
-/

namespace Lookalike.Chain

variable {P V : Type} {F : Format}

/-- The candidate that leads a pass, by its index, and its cost. -/
structure Lead (F : Format) where
  best : Nat
  cost : Number F

namespace Lead

/-- The first candidate leads at infinite cost before anything is measured. -/
def initial : Lead F := ⟨0, .posInf⟩

/-- The cost of a candidate, whose distance to the pivot is told up to what is left of the cost of
the lead. -/
def offered (fromPivot : Number F → Link P V F → Number F) (lead : Lead F)
    (candidate : Link P V F) : Number F :=
  candidate.fromReference + fromPivot (lead.cost - candidate.fromReference) candidate

/-- Whether a candidate takes the lead: it is not passed over, and its cost is the lower one. -/
def IsTakenBy (fromPivot : Number F → Link P V F → Number F) (lead : Lead F)
    (candidate : Link P V F) : Prop :=
  ¬ lead.cost ≤ candidate.fromReference ∧ lead.offered fromPivot candidate < lead.cost

instance (fromPivot : Number F → Link P V F → Number F) (lead : Lead F) (candidate : Link P V F) :
    Decidable (lead.IsTakenBy fromPivot candidate) :=
  inferInstanceAs (Decidable (_ ∧ _))

/-- The lead after one more candidate. -/
def next (fromPivot : Number F → Link P V F → Number F) (index : Nat) (lead : Lead F)
    (candidate : Link P V F) : Lead F :=
  if lead.IsTakenBy fromPivot candidate then ⟨index, lead.offered fromPivot candidate⟩ else lead

end Lead

/-- The index of the candidate that leads at the end of a pass, counted on from `index`. -/
def leader (fromPivot : Number F → Link P V F → Number F) (index : Nat) (lead : Lead F) :
    List (Link P V F) → Nat
  | [] => lead.best
  | candidate :: rest => leader fromPivot (index + 1) (lead.next fromPivot index candidate) rest

/-- The entries in the order in which they come to lead, each pass over the first `window` that
remain. -/
def arrangeLeaders (fromPivot : Link P V F → Number F → Link P V F → Number F) (window : Nat) :
    (choices : Nat) → (pivot : Link P V F) → List (Link P V F) → List (Link P V F)
  | 0, _, remaining => remaining
  | choices + 1, pivot, remaining =>
    match moveToFront (leader (fromPivot pivot) 0 .initial (remaining.take window)) remaining with
    | [] => []
    | chosen :: others => chosen :: arrangeLeaders fromPivot window choices chosen others

/-- Measuring decides as the given distances do, at every cost of the lead that can occur: it
succeeds, and its answer is the given distance wherever one of the two would take the lead. -/
structure Decides (distance : DistanceFunction P V F)
    (fromPivot : Link P V F → Number F → Link P V F → Number F) (Occurs : Number F → Prop)
    (pivot candidate : Link P V F) : Prop where
  answered : ∀ {lead : Lead F}, Occurs lead.cost → ¬ lead.cost ≤ candidate.fromReference →
    ∀ calls, ∃ answer,
      distance calls pivot.vector candidate.vector
        (some (lead.cost - candidate.fromReference)) = .ok answer ∧
      (candidate.fromReference + answer < lead.cost ∨
        lead.offered (fromPivot pivot) candidate < lead.cost →
        answer = fromPivot pivot (lead.cost - candidate.fromReference) candidate)
  occurs : ∀ {lead : Lead F}, Occurs lead.cost → lead.IsTakenBy (fromPivot pivot) candidate →
    Occurs (lead.offered (fromPivot pivot) candidate)

variable {distance : DistanceFunction P V F} {Occurs : Number F → Prop}
  {fromPivot : Link P V F → Number F → Link P V F → Number F}

/-- A measurement whose answer is always the given distance decides as that does. -/
theorem Decides.of_eq {pivot candidate : Link P V F}
    (answers : ∀ calls cap, distance calls pivot.vector candidate.vector (some cap) =
      .ok (fromPivot pivot cap candidate)) :
    Decides distance fromPivot (fun _ => True) pivot candidate where
  answered _ _ calls := ⟨_, answers calls _, fun _ => rfl⟩
  occurs _ _ := trivial

/-- A measurement that succeeds hands its answer on. -/
theorem measure_of_ok {leg : Leg P} {x y : V} {cap : Option (Number F)}
    {calls : List (Call P F)} {answer : Number F} (succeeds : distance calls x y cap = .ok answer) :
    (measure distance leg x y cap).result calls =
      (.ok answer, ⟨leg, cap, some answer⟩ :: calls) := by
  simp [measure, Attempt.result, succeeds]

/-- Where measuring decides as the given distances do, the leader is chosen. -/
theorem cheapest_eq_leader {pivot : Link P V F} {candidates : List (Link P V F)}
    (decided : ∀ candidate ∈ candidates, Decides distance fromPivot Occurs pivot candidate)
    (index : Nat) (lead : Lead F) (occurs : Occurs lead.cost) (calls : List (Call P F)) :
    ∃ calls', (cheapest distance pivot index lead.best lead.cost candidates).result calls =
      (.ok (leader (fromPivot pivot) index lead candidates), calls') := by
  induction candidates generalizing index lead calls with
  | nil => exact ⟨calls, rfl⟩
  | cons candidate rest ih =>
    have decides := decided candidate List.mem_cons_self
    have goesOn := ih fun other member => decided other (List.mem_cons_of_mem _ member)
    -- A candidate is passed over, measured and taken, or measured and left.
    by_cases beaten : lead.cost ≤ candidate.fromReference
    · have stays : ¬ lead.IsTakenBy (fromPivot pivot) candidate := fun taken => taken.1 beaten
      simpa only [cheapest, leader, Lead.next, if_pos beaten, if_neg stays] using
        goesOn _ _ occurs calls
    · obtain ⟨answer, measured, same⟩ := decides.answered occurs beaten calls
      simp only [cheapest, leader, Lead.next, if_neg beaten]
      rw [Attempt.result_bind_ok (measure_of_ok measured)]
      -- The answer is the given distance as soon as one of the two takes the lead.
      by_cases leads : lead.offered (fromPivot pivot) candidate < lead.cost
      · have taken : lead.IsTakenBy (fromPivot pivot) candidate := ⟨beaten, leads⟩
        obtain rfl := same (.inr leads)
        change candidate.fromReference + _ < lead.cost at leads
        simp only [if_pos taken, if_pos leads]
        exact goesOn _ ⟨index, lead.offered (fromPivot pivot) candidate⟩
          (decides.occurs occurs taken) _
      · have stays : ¬ lead.IsTakenBy (fromPivot pivot) candidate := fun taken => leads taken.2
        have behind : ¬ candidate.fromReference + answer < lead.cost := fun ahead => by
          obtain rfl := same (.inl ahead)
          exact leads ahead
        simpa only [if_neg stays, if_neg behind] using goesOn _ _ occurs _

/-- A leader is one of the candidates, or led before. -/
theorem leader_lt {fromPivot : Number F → Link P V F → Number F} {index bound : Nat}
    {lead : Lead F} {candidates : List (Link P V F)} (within : lead.best < bound)
    (room : index + candidates.length ≤ bound) :
    leader fromPivot index lead candidates < bound := by
  induction candidates generalizing index lead with
  | nil => exact within
  | cons candidate rest ih =>
    rw [List.length_cons] at room
    refine ih ?_ (by omega)
    unfold Lead.next
    split
    · change index < bound
      omega
    · exact within

theorem moveToFront_of_getElem? {α : Type} {index : Nat} {items : List α} {item : α}
    (found : items[index]? = some item) :
    moveToFront index items = item :: items.eraseIdx index := by
  simp only [moveToFront, found]

/-- What is chosen and what is left behind it remained before. -/
theorem moveToFront_subset {α : Type} {index : Nat} {items others : List α} {chosen : α}
    (moved : moveToFront index items = chosen :: others) : chosen ∈ items ∧ others ⊆ items := by
  have kept := moveToFront_perm index items
  rw [moved] at kept
  exact ⟨kept.mem_iff.mp List.mem_cons_self,
    fun _ member => kept.mem_iff.mp (List.mem_cons_of_mem _ member)⟩

theorem arrange_eq_arrangeLeaders {links : List (Link P V F)} (window choices : Nat)
    (decided : ∀ pivot ∈ links, ∀ candidate ∈ links,
      Decides distance fromPivot Occurs pivot candidate)
    (occurs : Occurs .posInf) {pivot : Link P V F} {remaining : List (Link P V F)}
    (known : pivot ∈ links) (known' : remaining ⊆ links) (calls : List (Call P F)) :
    ∃ calls', arrange distance window choices pivot remaining calls =
      (arrangeLeaders fromPivot window choices pivot remaining, none, calls') := by
  induction choices generalizing pivot remaining calls with
  | zero => exact ⟨calls, rfl⟩
  | succ choices ih =>
    -- The entries stay among the known ones, whose measurements decide.
    have window_known : ∀ candidate ∈ remaining.take window,
        Decides distance fromPivot Occurs pivot candidate := fun candidate member =>
      decided pivot known candidate (known' (List.mem_of_mem_take member))
    obtain ⟨calls', chosen_eq⟩ := cheapest_eq_leader window_known 0 .initial occurs calls
    change (cheapest distance pivot 0 0 .posInf _).result calls = _ at chosen_eq
    simp only [arrange, arrangeLeaders, chosen_eq]
    cases moved : moveToFront (leader (fromPivot pivot) 0 .initial (remaining.take window))
        remaining with
    | nil => exact ⟨calls', rfl⟩
    | cons chosen others =>
      obtain ⟨chosen_mem, others_sub⟩ := moveToFront_subset moved
      obtain ⟨calls'', arranged⟩ := ih (known' chosen_mem)
        (List.Subset.trans others_sub known') calls'
      exact ⟨calls'', by simp only [arranged]⟩

section Reorder

variable {features : P → Except Fault V} {reference : V} {vectorOf : P → V}
  {fromReference : P → Number F}

/-- The entry of a position whose features and whose distance to the reference are known. -/
def linkOf (vectorOf : P → V) (fromReference : P → Number F) (position : P) : Link P V F :=
  ⟨position, vectorOf position, fromReference position⟩

theorem measureLinks_of_ok {positions : List P}
    (fetched : ∀ position ∈ positions, features position = .ok (vectorOf position))
    (measured : ∀ position ∈ positions, ∀ calls,
      distance calls reference (vectorOf position) none = .ok (fromReference position))
    (calls : List (Call P F)) :
    ∃ calls', (measureLinks distance features reference positions).result calls =
      (.ok (positions.map (linkOf vectorOf fromReference)), calls') := by
  induction positions generalizing calls with
  | nil => exact ⟨calls, rfl⟩
  | cons position rest ih =>
    rw [List.forall_mem_cons] at fetched measured
    simp only [measureLinks, fetched.1]
    rw [Attempt.result_bind_ok (Attempt.result_ofExcept _ _),
      Attempt.result_bind_ok (measure_of_ok (measured.1 calls))]
    obtain ⟨calls', rest_measured⟩ := ih fetched.2 measured.2
      (⟨.fromReference position, none, some (fromReference position)⟩ :: calls)
    exact ⟨calls', by rw [Attempt.result_bind_ok rest_measured]; rfl⟩

/-- Where the distance to the reference depends on the position alone, nothing is left to settle. -/
theorem settle_map_linkOf [BEq P] [LawfulBEq P] (positions : List P) :
    settle (positions.map (linkOf vectorOf fromReference)) =
      positions.map (linkOf vectorOf fromReference) := by
  unfold settle
  rw [List.map_map]
  apply List.map_congr_left
  intro position _
  simp only [Function.comp]
  split
  · next latest found =>
    -- The latest entry of a position is one of the entries, so it is the same one.
    have same := List.find?_some found
    have member := List.mem_of_find?_eq_some found
    rw [beq_iff_eq] at same
    simp only [List.mem_reverse, List.mem_map] at member
    obtain ⟨other, -, rfl⟩ := member
    simp only [linkOf] at same ⊢
    rw [same]
  · rfl

/-- The entry just before a tail and the tail behind it. -/
theorem exists_seed {order : List P} {tailStart : Int} (start : 1 ≤ tailStart)
    (within : tailStart ≤ order.length) :
    ∃ seed, order.drop (tailStart - 1).toNat = seed :: Position.after tailStart order ∧
      Position.upTo tailStart order = order.take (tailStart - 1).toNat ++ [seed] := by
  obtain ⟨first, rfl⟩ : ∃ first : Nat, tailStart = first + 1 :=
    ⟨(tailStart - 1).toNat, by omega⟩
  have inside : first < order.length := by omega
  have head : ((first : Int) + 1 - 1).toNat = first := by omega
  -- A start behind the first place cuts the order right there.
  have cut : Position.cut order.length ((first : Int) + 1) = first + 1 := by
    unfold Position.cut
    have positive : ¬ (first : Int) + 1 < 0 := by omega
    rw [if_neg positive]
    omega
  refine ⟨order[first], ?_, ?_⟩
  · rw [head, Position.after, cut]
    exact List.drop_eq_getElem_cons inside
  · rw [head, Position.upTo, cut]
    exact List.take_succ_eq_append_getElem inside

/-- A reordering whose measurements succeed and decide as given distances do keeps the places up to
the start of the tail and arranges the tail by leaders. -/
theorem reorder_eq_arrangeLeaders [BEq P] [LawfulBEq P] {order : List P} {tailStart : Int}
    (window : Int)
    (fetched : ∀ position ∈ order.drop (tailStart - 1).toNat,
      features position = .ok (vectorOf position))
    (measured : ∀ position ∈ order.drop (tailStart - 1).toNat, ∀ calls,
      distance calls reference (vectorOf position) none = .ok (fromReference position))
    (decided : ∀ pivot ∈ order.drop (tailStart - 1).toNat,
      ∀ candidate ∈ order.drop (tailStart - 1).toNat,
        Decides distance fromPivot Occurs (linkOf vectorOf fromReference pivot)
          (linkOf vectorOf fromReference candidate))
    (occurs : Occurs .posInf) (start : 1 ≤ tailStart)
    (long : 2 < (order.length : Int) - tailStart) :
    ∃ seed, order.drop (tailStart - 1).toNat = seed :: Position.after tailStart order ∧
      (reorder distance order tailStart features reference window).fault = none ∧
      (reorder distance order tailStart features reference window).order =
        Position.upTo tailStart order ++
          (arrangeLeaders fromPivot window.toNat ((Position.after tailStart order).length - 1)
            (linkOf vectorOf fromReference seed)
            ((Position.after tailStart order).map (linkOf vectorOf fromReference))).map
              (·.position) := by
  have within : tailStart ≤ order.length := by omega
  obtain ⟨seed, seed_tail, upTo_seed⟩ := exists_seed start within
  obtain ⟨calls, links_measured⟩ := measureLinks_of_ok fetched measured []
  rw [seed_tail] at links_measured
  let links := (seed :: Position.after tailStart order).map (linkOf vectorOf fromReference)
  have decided' : ∀ pivot ∈ links, ∀ candidate ∈ links,
      Decides distance fromPivot Occurs pivot candidate := by
    simp only [links, List.mem_map, ← seed_tail]
    rintro _ ⟨pivot, member, rfl⟩ _ ⟨candidate, member', rfl⟩
    exact decided pivot member candidate member'
  have seed_known : linkOf vectorOf fromReference seed ∈ links := List.mem_cons_self
  have tail_known : (Position.after tailStart order).map (linkOf vectorOf fromReference) ⊆ links :=
    List.subset_cons_self _ _
  obtain ⟨calls', arranged⟩ := arrange_eq_arrangeLeaders window.toNat
    ((Position.after tailStart order).length - 1) decided' occurs seed_known tail_known calls
  refine ⟨seed, seed_tail, ?_⟩
  simp only [reorder, if_neg (Int.not_le.mpr long), seed_tail, links_measured, settle_map_linkOf,
    upTo_seed]
  simp only [List.map_cons, List.length_map, arranged, List.append_assoc, true_and]
  rfl

end Reorder

end Lookalike.Chain
