import Mathlib.Data.List.Nodup
import Lookalike.Proofs.Chain.Leader
import Lookalike.Proofs.Distance
import Lookalike.Proofs.Number.Remainder

/-!
# Slips

In rounded arithmetic a sum that stops at its cap can take the lead although the whole distance
would not: the cap is what a distance leaves of the cost of the lead, rounded, and the sum of the
two can fall below that cost. Such a slip needs the sum to stop at the cap exactly.

After a slip no number lies between the cost of the slipped lead and that of the rightful one, and
the slipped lead cannot suffer another slip. So both passes meet again as soon as a candidate takes
the lead of the first, and two chains agree exactly when no choice is made by a slip.

## Main definitions

* `Chain.cappedDistance`, `Chain.wholeDistance`, the distances of two entries
* `Chain.Slips`, `Chain.endsInSlip`, `Chain.someChoiceSlips`

## Main statements

* `Chain.Abreast.next`, how the passes with and without caps go along
* `Chain.arrangeLeaders_eq_iff`, that two chains agree unless some choice is made by a slip
-/

namespace Lookalike.Chain

variable {P : Type} {F : Format}

/-- The summands of the distance of two entries. -/
def summands (pivot candidate : Link P (List (Number F)) F) : List (List (Number F)) :=
  Distance.blocks (Distance.differences pivot.vector candidate.vector)

/-- The distance of two entries, summed up to a cap if that is finite. -/
def cappedDistance (pivot : Link P (List (Number F)) F) (cap : Number F)
    (candidate : Link P (List (Number F)) F) : Number F :=
  if cap.isFinite then Distance.cappedTotal cap 0 (summands pivot candidate)
  else Distance.total 0 (summands pivot candidate)

/-- The distance of two entries, whatever the cap. -/
def wholeDistance (pivot : Link P (List (Number F)) F) (_ : Number F)
    (candidate : Link P (List (Number F)) F) : Number F :=
  Distance.total 0 (summands pivot candidate)

/-- A candidate slips into the lead: what its distance to the reference leaves of the cost of the
lead does not regain that cost, and its distance to the pivot stops there although it is greater. -/
def Slips (pivot : Link P (List (Number F)) F) (lead : Lead F)
    (candidate : Link P (List (Number F)) F) : Prop :=
  let cap := lead.cost - candidate.fromReference
  ¬ Number.Regains lead.cost candidate.fromReference ∧
    cappedDistance pivot cap candidate = cap ∧ cap < wholeDistance pivot cap candidate

/-- Whether the candidate that leads at the end of a pass with caps has slipped into the lead;
`slipped` tells it of the lead so far. -/
def endsInSlip (pivot : Link P (List (Number F)) F) (index : ℕ) (slipped : Prop) (lead : Lead F) :
    List (Link P (List (Number F)) F) → Prop
  | [] => slipped
  | candidate :: rest =>
    endsInSlip pivot (index + 1)
      (if lead.IsTakenBy (cappedDistance pivot) candidate then Slips pivot lead candidate
        else slipped)
      (lead.next (cappedDistance pivot) index candidate) rest

/-- Whether some choice of a chain is made by a slip. -/
def someChoiceSlips (window : ℕ) : (choices : ℕ) → (pivot : Link P (List (Number F)) F) →
    List (Link P (List (Number F)) F) → Prop
  | 0, _, _ => False
  | choices + 1, pivot, remaining =>
    endsInSlip pivot 0 False .initial (remaining.take window) ∨
      match moveToFront (leader (cappedDistance pivot) 0 .initial (remaining.take window))
        remaining with
      | [] => False
      | chosen :: others => someChoiceSlips window choices chosen others

/-- An entry with finite features whose distance to the reference is an amount. -/
structure Link.IsSound (link : Link P (List (Number F)) F) : Prop where
  finite : ∀ feature ∈ link.vector, feature.isFinite
  amount : link.fromReference.IsAmount

section Step

variable {pivot candidate : Link P (List (Number F)) F} {lead lead' : Lead F} {index : ℕ}

theorem isAmount_of_mem_summands (proper : F.IsProper) (sound : pivot.IsSound)
    (sound' : candidate.IsSound) :
    ∀ block ∈ summands pivot candidate, (Distance.sumOfSquares block).IsAmount := fun _ =>
  Distance.isAmount_sumOfSquares_of_mem_blocks proper sound.finite sound'.finite

theorem isAmount_wholeDistance (proper : F.IsProper) (sound : pivot.IsSound)
    (sound' : candidate.IsSound) (cap : Number F) :
    (wholeDistance pivot cap candidate).IsAmount :=
  Distance.isAmount_total proper Number.isAmount_zero
    (isAmount_of_mem_summands proper sound sound')

theorem isAmount_cappedDistance (proper : F.IsProper) (sound : pivot.IsSound)
    (sound' : candidate.IsSound) (cap : Number F) :
    (cappedDistance pivot cap candidate).IsAmount := by
  unfold cappedDistance
  split_ifs
  · exact Distance.isAmount_cappedTotal proper Number.isAmount_zero
      (isAmount_of_mem_summands proper sound sound')
  · exact isAmount_wholeDistance proper sound sound' cap

theorem cappedDistance_le_wholeDistance (proper : F.IsProper) (sound : pivot.IsSound)
    (sound' : candidate.IsSound) (cap : Number F) :
    cappedDistance pivot cap candidate ≤ wholeDistance pivot cap candidate := by
  unfold cappedDistance
  split_ifs
  · exact Distance.cappedTotal_le_total proper Number.isAmount_zero
      (isAmount_of_mem_summands proper sound sound')
  · exact Number.le_refl (isAmount_wholeDistance proper sound sound' cap).isNaN

theorem cappedDistance_eq_wholeDistance_or_le (cap : Number F) :
    cappedDistance pivot cap candidate = wholeDistance pivot cap candidate ∨
      cap ≤ cappedDistance pivot cap candidate := by
  unfold cappedDistance
  split_ifs
  · exact Distance.cappedTotal_eq_total_or_le
  · exact .inl rfl

theorem isAmount_offered_whole (proper : F.IsProper) (sound : pivot.IsSound)
    (sound' : candidate.IsSound) : (lead.offered (wholeDistance pivot) candidate).IsAmount :=
  sound'.amount.add proper (isAmount_wholeDistance proper sound sound' _)

theorem offered_capped_le (proper : F.IsProper) (sound : pivot.IsSound)
    (sound' : candidate.IsSound) :
    lead.offered (cappedDistance pivot) candidate ≤
      lead.offered (wholeDistance pivot) candidate :=
  sound'.amount.add_le_add proper (isAmount_cappedDistance proper sound sound' _) sound'.amount
    (isAmount_wholeDistance proper sound sound' _) (Number.le_refl sound'.amount.isNaN)
    (cappedDistance_le_wholeDistance proper sound sound' _)

/-- A candidate that takes the lead at its whole distance takes it at its capped one. -/
theorem isTakenBy_capped (proper : F.IsProper) (sound : pivot.IsSound) (sound' : candidate.IsSound)
    (taken : lead.IsTakenBy (wholeDistance pivot) candidate) :
    lead.IsTakenBy (cappedDistance pivot) candidate :=
  ⟨taken.1, Number.lt_of_le_of_lt (offered_capped_le proper sound sound') taken.2⟩

/-- A candidate that takes the lead without a slip has been measured in whole. -/
theorem cappedDistance_eq_of_not_slips (proper : F.IsProper) (sound : pivot.IsSound)
    (sound' : candidate.IsSound) (amount : lead.cost.IsAmount)
    (taken : lead.IsTakenBy (cappedDistance pivot) candidate)
    (honest : ¬ Slips pivot lead candidate) :
    cappedDistance pivot (lead.cost - candidate.fromReference) candidate =
      wholeDistance pivot (lead.cost - candidate.fromReference) candidate := by
  obtain ⟨ahead, below⟩ := taken
  rw [amount.not_le sound'.amount] at ahead
  have capped := isAmount_cappedDistance proper sound sound'
    (lead.cost - candidate.fromReference)
  have stops : cappedDistance pivot (lead.cost - candidate.fromReference) candidate =
        wholeDistance pivot (lead.cost - candidate.fromReference) candidate ∨
      lead.cost - candidate.fromReference ≤
        cappedDistance pivot (lead.cost - candidate.fromReference) candidate :=
    cappedDistance_eq_wholeDistance_or_le _
  rcases stops with whole | reached
  · exact whole
  · -- A sum that stops and takes the lead is the cap itself, and beyond that it would slip.
    have atCap := amount.eq_sub_of_add_lt proper sound'.amount capped ahead reached below
    have whole := isAmount_wholeDistance proper sound sound'
      (lead.cost - candidate.fromReference)
    refine capped.le_antisymm whole (cappedDistance_le_wholeDistance proper sound sound' _) ?_
    rw [← capped.not_lt whole, atCap]
    intro more
    refine honest ⟨fun regained => ?_, atCap, more⟩
    rw [Lead.offered, atCap] at below
    exact Number.not_lt_of_le regained below

/-- A candidate that slips does not take the lead at its whole distance. -/
theorem not_isTakenBy_whole_of_slips (proper : F.IsProper) (sound : pivot.IsSound)
    (sound' : candidate.IsSound) (amount : lead.cost.IsAmount)
    (slips : Slips pivot lead candidate) :
    ¬ lead.IsTakenBy (wholeDistance pivot) candidate := by
  rintro ⟨ahead, below⟩
  rw [amount.not_le sound'.amount] at ahead
  obtain ⟨-, -, more⟩ := slips
  have whole := isAmount_wholeDistance proper sound sound' (lead.cost - candidate.fromReference)
  rw [amount.eq_sub_of_add_lt proper sound'.amount whole ahead (Number.le_of_lt more) below] at more
  exact Number.lt_irrefl more

/-- How the leads of a pass with caps and of one without caps stand to each other: they are one, or
the first has been taken by a slip, no number lies between their costs, and the first cannot be
taken by another slip. -/
inductive Abreast (index : ℕ) : Prop → Lead F → Lead F → Prop
  | together {slipped : Prop} {lead : Lead F} (honest : ¬ slipped) (amount : lead.cost.IsAmount)
      (within : lead.cost ≠ .posInf → lead.best < index) : Abreast index slipped lead lead
  | apart {slipped : Prop} {lead lead' : Lead F} (slips : slipped)
      (differ : lead.best ≠ lead'.best) (within : lead.best < index)
      (amount : lead.cost.IsAmount) (amount' : lead'.cost.IsAmount)
      (le : lead.cost ≤ lead'.cost)
      (gap : ∀ {x : Number F}, x.IsAmount → x < lead'.cost → x ≤ lead.cost)
      (steady : ∀ {x : Number F}, x.IsAmount → x < lead.cost → Number.Regains lead.cost x) :
      Abreast index slipped lead lead'

theorem regains_posInf {x : Number F} (amount : x.IsAmount) (less : x < .posInf) :
    Number.Regains .posInf x := by
  cases amount with
  | posInf => exact absurd less Number.lt_irrefl
  | finite =>
    rw [Number.Regains, Number.posInf_sub_finite, Number.finite_add_posInf]
    exact Number.le_posInf rfl

/-- Two leads that are one after a candidate that is measured in whole. -/
theorem Abreast.next_of_together (proper : F.IsProper) (sound : pivot.IsSound)
    (sound' : candidate.IsSound) {slipped : Prop} (honest : ¬ slipped)
    (amount : lead.cost.IsAmount) (within : lead.cost ≠ .posInf → lead.best < index) :
    Abreast (index + 1)
      (if lead.IsTakenBy (cappedDistance pivot) candidate then Slips pivot lead candidate
        else slipped)
      (lead.next (cappedDistance pivot) index candidate)
      (lead.next (wholeDistance pivot) index candidate) := by
  by_cases taken : lead.IsTakenBy (cappedDistance pivot) candidate
  · by_cases slips : Slips pivot lead candidate
    · -- Only the pass with caps goes on to the candidate; the other keeps the lead.
      have stays := not_isTakenBy_whole_of_slips proper sound sound' amount slips
      have below := taken.2
      have part := sound'.amount
      have less := (amount.not_le part).mp taken.1
      have offered : lead.offered (cappedDistance pivot) candidate =
          candidate.fromReference + (lead.cost - candidate.fromReference) :=
        congrArg (candidate.fromReference + ·) slips.2.1
      have notInfinite : lead.cost ≠ .posInf := fun infinite =>
        slips.1 (infinite ▸ regains_posInf part (infinite ▸ less))
      rw [if_pos taken, Lead.next, if_pos taken, Lead.next, if_neg stays]
      rw [offered] at below ⊢
      exact .apart slips (within notInfinite).ne' (Nat.lt_succ_self _)
        (part.add proper (amount.sub proper part less)) amount (Number.le_of_lt below)
        (fun other below => amount.le_regained proper part less slips.1 other below)
        (fun other below => amount.regains_regained proper part less slips.1 other below)
    · -- Without a slip both passes take the candidate at one cost.
      have same := cappedDistance_eq_of_not_slips proper sound sound' amount taken slips
      have offered : lead.offered (cappedDistance pivot) candidate =
          lead.offered (wholeDistance pivot) candidate :=
        congrArg (candidate.fromReference + ·) same
      have taken' : lead.IsTakenBy (wholeDistance pivot) candidate := by
        rwa [Lead.IsTakenBy, ← offered]
      rw [if_pos taken, Lead.next, if_pos taken, Lead.next, if_pos taken', offered]
      exact .together slips (isAmount_offered_whole proper sound sound')
        fun _ => Nat.lt_succ_self _
  · -- What the capped distance does not win, the whole one does not win either.
    have stays : ¬ lead.IsTakenBy (wholeDistance pivot) candidate := fun taken' =>
      taken (isTakenBy_capped proper sound sound' taken')
    rw [if_neg taken, Lead.next, if_neg taken, Lead.next, if_neg stays]
    exact .together honest amount fun finite => Nat.lt_succ_of_lt (within finite)

/-- Two leads that have come apart after one more candidate. -/
theorem Abreast.next_of_apart (proper : F.IsProper) (sound : pivot.IsSound)
    (sound' : candidate.IsSound) {slipped : Prop} (slips : slipped)
    (differ : lead.best ≠ lead'.best) (within : lead.best < index)
    (amount : lead.cost.IsAmount) (amount' : lead'.cost.IsAmount) (le : lead.cost ≤ lead'.cost)
    (gap : ∀ {x : Number F}, x.IsAmount → x < lead'.cost → x ≤ lead.cost)
    (steady : ∀ {x : Number F}, x.IsAmount → x < lead.cost → Number.Regains lead.cost x) :
    Abreast (index + 1)
      (if lead.IsTakenBy (cappedDistance pivot) candidate then Slips pivot lead candidate
        else slipped)
      (lead.next (cappedDistance pivot) index candidate)
      (lead'.next (wholeDistance pivot) index candidate) := by
  have part := sound'.amount
  have whole : (lead'.offered (wholeDistance pivot) candidate).IsAmount :=
    isAmount_offered_whole proper sound sound'
  by_cases taken : lead.IsTakenBy (cappedDistance pivot) candidate
  · -- The candidate is measured in whole, since the lead is steady, and takes both leads.
    have less := (amount.not_le part).mp taken.1
    have honest : ¬ Slips pivot lead candidate := fun slips => slips.1 (steady part less)
    have same := cappedDistance_eq_of_not_slips proper sound sound' amount taken honest
    have offered : lead.offered (cappedDistance pivot) candidate =
        lead'.offered (wholeDistance pivot) candidate :=
      congrArg (candidate.fromReference + ·) same
    have taken' : lead'.IsTakenBy (wholeDistance pivot) candidate :=
      ⟨(amount'.not_le part).mpr (Number.lt_of_lt_of_le less le),
        offered ▸ Number.lt_of_lt_of_le taken.2 le⟩
    rw [if_pos taken, Lead.next, if_pos taken, Lead.next, if_pos taken', offered]
    exact .together honest whole fun _ => Nat.lt_succ_self _
  · rw [if_neg taken, Lead.next, if_neg taken]
    by_cases taken' : lead'.IsTakenBy (wholeDistance pivot) candidate
    · -- The second lead falls behind the candidate, but not below the first.
      have reached : lead.cost ≤ lead'.offered (wholeDistance pivot) candidate := by
        rw [← whole.not_lt amount]
        intro below
        have ahead : ¬ lead.cost ≤ candidate.fromReference := fun beaten =>
          Number.not_lt_of_le (Number.le_trans beaten
            (part.le_add proper (isAmount_wholeDistance proper sound sound' _))) below
        exact taken (isTakenBy_capped proper sound sound' ⟨ahead, below⟩)
      rw [Lead.next, if_pos taken']
      exact .apart slips within.ne (Nat.lt_succ_of_lt within) amount whole reached
        (fun other below => gap other (Number.lt_of_lt_of_le below (Number.le_of_lt taken'.2)))
        steady
    · rw [Lead.next, if_neg taken']
      exact .apart slips differ (Nat.lt_succ_of_lt within) amount amount' le gap steady

/-- One more candidate leaves the two leads abreast. -/
theorem Abreast.next {slipped : Prop} (abreast : Abreast index slipped lead lead')
    (proper : F.IsProper) (sound : pivot.IsSound) (sound' : candidate.IsSound) :
    Abreast (index + 1)
      (if lead.IsTakenBy (cappedDistance pivot) candidate then Slips pivot lead candidate
        else slipped)
      (lead.next (cappedDistance pivot) index candidate)
      (lead'.next (wholeDistance pivot) index candidate) := by
  cases abreast with
  | together honest amount within =>
    exact .next_of_together proper sound sound' honest amount within
  | apart slips differ within amount amount' le gap steady =>
    exact .next_of_apart proper sound sound' slips differ within amount amount' le gap steady

/-- The same candidate leads at the end of two passes unless it has slipped into the lead of the
first. -/
theorem leader_eq_iff {slipped : Prop} (abreast : Abreast index slipped lead lead')
    (proper : F.IsProper) (sound : pivot.IsSound) {candidates : List (Link P (List (Number F)) F)}
    (sounds : ∀ candidate ∈ candidates, candidate.IsSound) :
    leader (cappedDistance pivot) index lead candidates =
      leader (wholeDistance pivot) index lead' candidates ↔
      ¬ endsInSlip pivot index slipped lead candidates := by
  induction candidates generalizing index slipped lead lead' with
  | nil =>
    cases abreast with
    | together honest => exact iff_of_true rfl honest
    | apart slips differ => exact iff_of_false differ (not_not.mpr slips)
  | cons candidate rest ih =>
    rw [List.forall_mem_cons] at sounds
    exact ih (abreast.next proper sound sounds.1) sounds.2

end Step

/-- Two chains of distinct entries, one arranged with caps and one without, agree exactly when no
choice of the first is made by a slip. -/
theorem arrangeLeaders_eq_iff (proper : F.IsProper) {window choices : ℕ}
    {pivot : Link P (List (Number F)) F} {remaining : List (Link P (List (Number F)) F)}
    (sound : pivot.IsSound) (sounds : ∀ link ∈ remaining, link.IsSound)
    (distinct : (remaining.map (·.position)).Nodup) :
    (arrangeLeaders cappedDistance window choices pivot remaining).map (·.position) =
        (arrangeLeaders wholeDistance window choices pivot remaining).map (·.position) ↔
      ¬ someChoiceSlips window choices pivot remaining := by
  induction choices generalizing pivot remaining with
  | zero => exact iff_of_true rfl not_false
  | succ choices ih =>
    have start : Abreast 0 False (Lead.initial : Lead F) .initial :=
      .together not_false .posInf (absurd rfl)
    have agree := leader_eq_iff start proper sound fun candidate member =>
      sounds candidate (List.mem_of_mem_take (i := window) member)
    rw [arrangeLeaders, arrangeLeaders, someChoiceSlips, not_or, ← agree]
    rcases eq_or_ne remaining [] with rfl | several
    · simp [leader, moveToFront]
    have within : ∀ fromPivot : Number F → Link P (List (Number F)) F → Number F,
        leader fromPivot 0 .initial (remaining.take window) < remaining.length := fun _ =>
      leader_lt (List.length_pos_of_ne_nil several) (by
        rw [zero_add]
        exact List.length_take_le' _ _)
    have moved := fun fromPivot =>
      moveToFront_of_getElem? (List.getElem?_eq_getElem (within fromPivot))
    simp only [moved, List.map_cons, List.cons.injEq]
    by_cases same : leader (cappedDistance pivot) 0 .initial (remaining.take window) =
        leader (wholeDistance pivot) 0 .initial (remaining.take window)
    · simp only [← same, true_and]
      refine ih (sounds _ (List.getElem_mem _))
        (fun link member => sounds link (List.eraseIdx_subset member)) ?_
      exact distinct.sublist ((List.eraseIdx_sublist ..).map _)
    · -- The chosen entries are distinct, so the chains differ at this place.
      simp only [same, false_and, iff_false, not_and]
      intro equal
      have alike := List.inj_on_of_nodup_map distinct (List.getElem_mem (within _))
        (List.getElem_mem (within _)) equal
      exact absurd (distinct.of_map.getElem_inj_iff.mp alike) same

end Lookalike.Chain
