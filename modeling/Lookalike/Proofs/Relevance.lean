import Lookalike.Relevance
import Lookalike.Proofs.Attempt
import Lookalike.Proofs.Settings
import Lookalike.Proofs.Number.Scaling

/-!
# Scores fall with the distance

The more relevant an item is, the nearer it is to the reference, and the nearer it is, the higher is
the score of its distance, whatever the settings are as long as they are sound. The score reserved
for identical items stands outside this order.

## Main definitions

* `Relevance.distanceScore`, `Relevance.scoreOf`, the scores of a distance and of a relevance

## Main statements

* `Relevance.ofDistance_antitone`
* `Relevance.toDistance_antitone`, `Relevance.distanceScore_antitone`
* `Relevance.distanceScore_zero`, `Relevance.distanceScore_posInf`
* `Relevance.displayScore_eq`, `Relevance.result_displayScore`
-/

namespace Lookalike

variable {F : Format}

namespace Relevance

section Distance

variable {x y : Number F}

/-- The reciprocal of a positive number is an amount, and a greater number has a lesser one. -/
theorem one_div_antitone (proper : F.IsProper) (positive : 0 < x) (le : x ≤ y) :
    (1 / y : Number F).IsAmount ∧ (1 / x : Number F).IsAmount ∧ 1 / y ≤ (1 / x : Number F) := by
  have reciprocal : ∀ {q : ℚ}, 0 < q → (1 / .finite q : Number F) = Number.ofRat F (1 / q) :=
    fun positive => Number.finite_div_finite zero_le_one positive
  have rounded : ∀ {q : ℚ}, 0 < q → (Number.ofRat F (1 / q)).IsAmount := fun positive =>
    Number.isAmount_ofRat proper (one_div_pos.mpr positive).le
  have infinite : (1 / .posInf : Number F) = 0 := rfl
  -- An infinite relevance has the reciprocal zero, the least there is.
  rcases Number.eq_posInf_or_finite_of_pos positive with rfl | ⟨q, above, rfl⟩
  · rw [Number.eq_posInf_of_le le, infinite]
    exact ⟨Number.isAmount_zero, Number.isAmount_zero, Number.le_refl rfl⟩
  · rw [reciprocal above]
    rcases Number.eq_posInf_or_finite_of_pos (Number.lt_of_lt_of_le positive le)
      with rfl | ⟨r, above', rfl⟩
    · rw [infinite]
      exact ⟨Number.isAmount_zero, rounded above, (rounded above).nonneg⟩
    · rw [reciprocal above']
      exact ⟨rounded above', rounded above, Number.ofRat_mono proper
        (one_div_le_one_div_of_le above (Number.finite_le_finite.mp le))⟩

theorem isAmount_one_add (proper : F.IsProper) (amount : x.IsAmount) : (1 + x).IsAmount := by
  cases amount with
  | posInf => exact .posInf
  | finite nonnegative _ => exact Number.isAmount_ofRat proper (add_nonneg zero_le_one nonnegative)

/-- An amount has a reciprocal, that of zero being infinite. -/
theorem isAmount_one_div (proper : F.IsProper) (amount : x.IsAmount) : (1 / x).IsAmount := by
  cases amount with
  | posInf => exact Number.isAmount_zero
  | @finite q nonnegative _ =>
    rcases nonnegative.eq_or_lt with rfl | above
    · exact .posInf
    · have positive : 0 < (.finite q : Number F) := Number.finite_lt_finite.mpr above
      exact (one_div_antitone proper positive (Number.le_refl rfl)).1

/-- The relevance of an amount is one. -/
theorem isAmount_ofDistance (proper : F.IsProper) (amount : x.IsAmount) :
    (ofDistance x).IsAmount :=
  -- Rounding may have brought the sum to zero, whose reciprocal is infinite.
  isAmount_one_div proper (isAmount_one_add proper amount)

/-- An amount has a relevance. -/
theorem isNaN_ofDistance (proper : F.IsProper) (amount : x.IsAmount) :
    (ofDistance x).isNaN = false :=
  (isAmount_ofDistance proper amount).isNaN

/-- What is nearer is more relevant. -/
theorem ofDistance_antitone (proper : F.IsProper) (left : x.IsAmount) (right : y.IsAmount)
    (le : x ≤ y) : ofDistance y ≤ ofDistance x := by
  have one : (1 : Number F) = .finite 1 := rfl
  have further : 1 + x ≤ 1 + y := by
    cases left with
    | posInf =>
      rw [Number.eq_posInf_of_le le]
      exact Number.le_refl rfl
    | finite => exact one ▸ Number.finite_add_le_finite_add proper le
  have amount := isAmount_one_add proper left
  have amount' := isAmount_one_add proper right
  rw [ofDistance, ofDistance]
  by_cases positive : 0 < 1 + x
  · exact (one_div_antitone proper positive further).2.2
  · have none : 1 + x = 0 :=
      amount.le_antisymm Number.isAmount_zero
        ((Number.not_lt rfl amount.isNaN).mp positive) amount.nonneg
    rw [none]
    exact Number.le_posInf (isAmount_one_div proper amount').isNaN

theorem toDistance_of_pos (positive : 0 < x) : toDistance x = (1 / x - 1).atLeastZero := by
  have number := (Number.lt_iff_place.mp positive).2.1
  have ahead : ¬ (x ≤ 0 ∨ x.isNaN) := by
    rintro (below | none)
    · exact Number.not_lt_of_le below positive
    · exact Bool.false_ne_true (number ▸ none)
  exact if_neg ahead

theorem toDistance_of_not_pos (behind : ¬ 0 < x) : toDistance x = .posInf := by
  refine if_pos ?_
  cases number : x.isNaN with
  | true => exact .inr rfl
  | false => exact .inl ((Number.not_lt rfl number).mp behind)

theorem isAmount_toDistance (proper : F.IsProper) (x : Number F) : (toDistance x).IsAmount := by
  by_cases positive : 0 < x
  · rw [toDistance_of_pos positive]
    have number := (Number.lt_iff_place.mp positive).2.1
    have reciprocal := (one_div_antitone proper positive (Number.le_refl number)).1
    apply Number.isAmount_atLeastZero
    generalize (1 / x : Number F) = z at reciprocal ⊢
    cases reciprocal with
    | posInf => trivial
    | finite => exact Number.kept_ofRat proper _
  · rw [toDistance_of_not_pos positive]
    exact .posInf

/-- What is more relevant is nearer. -/
theorem toDistance_antitone (proper : F.IsProper) (le : x ≤ y) : toDistance y ≤ toDistance x := by
  -- What is not relevant at all is infinitely far away.
  by_cases positive : 0 < x
  · obtain ⟨left, right, reciprocals⟩ := one_div_antitone proper positive le
    rw [toDistance_of_pos positive, toDistance_of_pos (Number.lt_of_lt_of_le positive le)]
    apply Number.atLeastZero_mono
    exact left.sub_finite_le proper right reciprocals
  · rw [toDistance_of_not_pos positive]
    exact Number.le_posInf (isAmount_toDistance proper y).isNaN

/-- What is at least as relevant as something at distance zero lies at distance zero as well. -/
theorem toDistance_eq_zero_of_le (proper : F.IsProper) (zero : toDistance x = 0) (le : x ≤ y) :
    toDistance y = 0 := by
  have amount := isAmount_toDistance proper y
  have nearer := toDistance_antitone proper le
  rw [zero] at nearer
  exact amount.le_antisymm Number.isAmount_zero nearer amount.nonneg

end Distance

section Score

variable {settings : Settings F} {features : Int} {count distance distance' : Number F}

/-- The score of a distance over a feature count. -/
def distanceScore (settings : Settings F) (count distance : Number F) : Number F :=
  (settings.baseScore - distance * settings.distanceWeight / count).atLeastZero

theorem formulaScore_eq (positive : 0 < features)
    (finite : (Number.ofInt F features).isFinite) (distance : Number F) :
    formulaScore settings features distance =
      .ok (distanceScore settings (Number.ofInt F features) distance) := by
  rw [formulaScore, if_neg (not_le.mpr positive), if_pos finite]
  rfl

/-- What is infinitely far away has the score zero. -/
theorem distanceScore_posInf (sound : settings.IsSound) {c : ℚ} (positive : 0 < c) :
    distanceScore settings (.finite c) .posInf = 0 := by
  obtain ⟨base, -, baseScore⟩ := sound.exists_baseScore_eq
  have weighed : (.posInf * settings.distanceWeight : Number F) = .posInf := by
    rcases Number.eq_posInf_or_finite_of_pos sound.distanceWeight with
      infinite | ⟨w, weighs, finite⟩
    · rw [infinite, Number.posInf_mul_posInf]
    · rw [finite, Number.posInf_mul_finite weighs]
  rw [distanceScore, weighed, baseScore, Number.posInf_div_finite positive,
    Number.finite_sub_posInf]
  rfl

/-- Where distances weigh infinitely much, no distance has a score above zero. -/
theorem distanceScore_of_posInf (sound : settings.IsSound)
    (infinite : settings.distanceWeight = .posInf) {c : ℚ} (positive : 0 < c)
    (amount : distance.IsAmount) : distanceScore settings (.finite c) distance = 0 := by
  cases amount with
  | posInf => exact distanceScore_posInf sound positive
  | @finite q nonnegative _ =>
    obtain ⟨base, -, baseScore⟩ := sound.exists_baseScore_eq
    rw [distanceScore, infinite, baseScore]
    -- The distance zero is no exception: its product is no number and is brought to zero.
    rcases nonnegative.eq_or_lt with zero | above
    · rw [← zero, Number.zero_mul_posInf]
      rfl
    · rw [Number.finite_mul_posInf above, Number.posInf_div_finite positive,
        Number.finite_sub_posInf]
      rfl

/-- Distance zero has the base score, however much distances weigh. -/
theorem distanceScore_zero {w c base : ℚ} (weighs : 0 < w) (positive : 0 < c) (above : 0 ≤ base)
    (weight : settings.distanceWeight = .finite w) (baseScore : settings.baseScore = .finite base)
    (kept : Number.ofRat F base = .finite base) :
    distanceScore settings (.finite c) 0 = .finite base := by
  have weighed : (0 * .finite w : Number F) = 0 :=
    (Number.finite_mul_finite le_rfl weighs).trans (by rw [zero_mul, Number.ofRat_zero]; rfl)
  have shared : (0 / .finite c : Number F) = 0 :=
    (Number.finite_div_finite le_rfl positive).trans (by rw [zero_div, Number.ofRat_zero]; rfl)
  have whole : (.finite base - 0 : Number F) = .finite base :=
    Number.finite_sub_finite.trans (by rw [sub_zero, kept])
  rw [distanceScore, weight, baseScore, weighed, shared, whole, Number.atLeastZero_finite,
    max_eq_right above]

/-- The score of a distance falls as the distance grows. -/
theorem distanceScore_antitone (proper : F.IsProper) (sound : settings.IsSound) {c : ℚ}
    (positive : 0 < c) (left : distance.IsAmount) (right : distance'.IsAmount)
    (le : distance ≤ distance') :
    distanceScore settings (.finite c) distance' ≤ distanceScore settings (.finite c) distance := by
  rcases Number.eq_posInf_or_finite_of_pos sound.distanceWeight with infinite | ⟨w, weighs, finite⟩
  · rw [distanceScore_of_posInf sound infinite positive left,
      distanceScore_of_posInf sound infinite positive right]
    exact Number.le_refl rfl
  · obtain ⟨base, -, baseScore⟩ := sound.exists_baseScore_eq
    rw [distanceScore, distanceScore, finite, baseScore]
    apply Number.atLeastZero_mono
    have weigh := Number.scales_mul_finite (F := F) weighs
    have share := Number.scales_div_finite (F := F) positive
    have weighed := weigh.isAmount proper left
    have weighed' := weigh.isAmount proper right
    exact (share.isAmount proper weighed).finite_sub_le proper (share.isAmount proper weighed')
      (share.le proper weighed weighed' (weigh.le proper left right le))

/-- The score of a relevance; `isCopy` tells whether the item is known as an exact duplicate. -/
def scoreOf (settings : Settings F) (count relevance : Number F) (isCopy : Bool) : Number F :=
  if isNearZero settings (toDistance relevance) && isCopy then settings.identicalScore
  else distanceScore settings count (toDistance relevance)

/-- A comparison that succeeds decides about the score of an item near enough to zero, and no other
item is compared. -/
theorem result_displayScore (positive : 0 < features)
    (finite : (Number.ofInt F features).isFinite) {σ : Type} {isExact : Attempt σ Bool}
    {state state' : σ} {isCopy : Bool} (succeeds : isExact.result state = (.ok isCopy, state'))
    (relevance : Number F) :
    (displayScore settings features relevance isExact).result state =
      (.ok (scoreOf settings (Number.ofInt F features) relevance isCopy),
        if isNearZero settings (toDistance relevance) then state' else state) := by
  simp only [displayScore, formulaScore_eq positive finite, scoreOf]
  cases isNearZero settings (toDistance relevance) with
  | false => rfl
  | true =>
    rw [if_pos rfl, Attempt.result_bind_ok succeeds]
    cases isCopy <;> rfl

/-- The score of a relevance, as the program tells it, where the comparison is known. -/
theorem displayScore_eq (positive : 0 < features) (finite : (Number.ofInt F features).isFinite)
    (relevance : Number F) (isCopy : Bool) :
    displayScore settings features relevance (.ok isCopy : Except Fault Bool) =
      .ok (scoreOf settings (Number.ofInt F features) relevance isCopy) := by
  simp only [displayScore, formulaScore_eq positive finite, scoreOf]
  cases isNearZero settings (toDistance relevance) <;> cases isCopy <;> rfl

/-- Whatever a comparison tells, a score is that of identical items or is brought to zero. -/
theorem isPlain_of_displayScore (sound : settings.IsSound) {σ : Type} {isExact : Attempt σ Bool}
    {state state' : σ} {relevance score : Number F}
    (run : (displayScore settings features relevance isExact).result state = (.ok score, state')) :
    score.IsPlain := by
  have plain : ∀ {distance score' : Number F},
      formulaScore settings features distance = .ok score' → score'.IsPlain := by
    intro distance score' told
    rw [formulaScore] at told
    dsimp only at told
    split at told
    · cases told
    · split at told
      · cases told
        exact Number.isPlain_atLeastZero _
      · cases told
  simp only [displayScore] at run
  cases told : formulaScore settings features (toDistance relevance) with
  | error fault =>
    rw [told] at run
    cases run
  | ok score' =>
    rw [told] at run
    dsimp only at run
    split at run
    · obtain ⟨copy, _, -, run⟩ := Attempt.bind_eq_ok run
      cases copy with
      | true =>
        cases run
        exact .of_pos sound.identicalScore
      | false =>
        cases run
        exact plain told
    · cases run
      exact plain told

theorem isNaN_scoreOf (sound : settings.IsSound) (count relevance : Number F) (isCopy : Bool) :
    (scoreOf settings count relevance isCopy).isNaN = false := by
  unfold scoreOf
  split_ifs
  · exact (Number.lt_iff_place.mp sound.identicalScore).2.1
  · exact Number.isNaN_atLeastZero _

variable {x y : Number F}

/-- What is more relevant than something near enough to zero is near enough as well. -/
theorem isNearZero_of_le (proper : F.IsProper) (le : x ≤ y)
    (near : isNearZero settings (toDistance x)) : isNearZero settings (toDistance y) :=
  decide_eq_true (Number.lt_of_le_of_lt (toDistance_antitone proper le) (of_decide_eq_true near))

/-- Where no item is known as a duplicate, what is more relevant has no lower score. -/
theorem distanceScore_toDistance_mono (proper : F.IsProper) (sound : settings.IsSound) {c : ℚ}
    (positive : 0 < c) (le : x ≤ y) :
    distanceScore settings (.finite c) (toDistance x) ≤
      distanceScore settings (.finite c) (toDistance y) :=
  distanceScore_antitone proper sound positive (isAmount_toDistance proper y)
    (isAmount_toDistance proper x) (toDistance_antitone proper le)

end Score

/-- Without rounding the score of a distance is between zero and the base score. -/
theorem exists_distanceScore_eq {settings : Settings .exact} (sound : settings.IsSound) {c : ℚ}
    (positive : 0 < c) {distance : Number .exact} (amount : distance.IsAmount) :
    ∃ q : ℚ, distanceScore settings (.finite c) distance = .finite q ∧
      .finite q ≤ settings.baseScore := by
  obtain ⟨base, above, baseScore⟩ := sound.exists_baseScore_eq
  rw [baseScore]
  have least : (.finite 0 : Number .exact) ≤ .finite base := Number.finite_le_finite.mpr above.le
  rcases Number.eq_posInf_or_finite_of_pos sound.distanceWeight with infinite | ⟨w, weighs, finite⟩
  · exact ⟨0, distanceScore_of_posInf sound infinite positive amount, least⟩
  · cases amount with
    | posInf => exact ⟨0, distanceScore_posInf sound positive, least⟩
    | @finite d nonnegative _ =>
      have weighed : 0 ≤ d * w := mul_nonneg nonnegative weighs.le
      have share : (.finite d * .finite w / .finite c : Number .exact) = .finite (d * w / c) := by
        rw [Number.finite_mul_finite nonnegative weighs]
        exact Number.finite_div_finite weighed positive
      rw [distanceScore, finite, baseScore, share, Number.finite_sub_finite, Number.atLeastZero]
      split_ifs
      · exact ⟨_, rfl, Number.finite_le_finite.mpr
          (sub_le_self base (div_nonneg weighed positive.le))⟩
      · exact ⟨0, rfl, least⟩

section Standard

/-- A feature count that is a number of the program is at least one. -/
theorem exists_ofInt_eq {features : Int} (positive : 0 < features)
    (finite : (Number.ofInt .binary64 features).isFinite) :
    ∃ c : ℚ, 1 ≤ c ∧ Number.ofInt .binary64 features = .finite c := by
  have one : (.finite 1 : Number .binary64) ≤ Number.ofInt .binary64 features := by
    have kept : Number.ofRat .binary64 1 = .finite 1 := by decide +kernel
    rw [← kept]
    exact Number.ofRat_mono (by decide : 1 ≤ 53) (by exact_mod_cast positive)
  cases count : Number.ofInt .binary64 features with
  | nan | negInf | posInf => rw [count] at finite; cases finite
  | negZero =>
    rw [count] at one
    exact absurd one (by decide +kernel)
  | finite c => exact ⟨c, Number.finite_le_finite.mp (count ▸ one), rfl⟩

/-- The bound on what is near enough weighs at most one in the standard settings. -/
private theorem weighed_identicalEpsilon_standard :
    ((Settings.standard .binary64).identicalEpsilon *
        (Settings.standard .binary64).distanceWeight).IsAmount ∧
      (Settings.standard .binary64).identicalEpsilon *
        (Settings.standard .binary64).distanceWeight ≤ .finite 1 := by
  have proper : Format.binary64.IsProper := (by decide : 1 ≤ 53)
  have epsilon : (Settings.standard .binary64).identicalEpsilon.IsAmount :=
    Number.isAmount_ofRat proper (by norm_num)
  have weight : (Settings.standard .binary64).distanceWeight = .finite 4 := by decide +kernel
  refine ⟨?_, by decide +kernel⟩
  rw [weight]
  exact (Number.scales_mul_finite (by norm_num)).isAmount proper epsilon

/-- A share of at most one is at most one. -/
theorem div_finite_le_one {c : ℚ} (atLeast : 1 ≤ c) {x : Number .binary64} (amount : x.IsAmount)
    (bounded : x ≤ .finite 1) : x / .finite c ≤ .finite 1 := by
  have one : Number.ofRat .binary64 1 = .finite 1 := by decide +kernel
  have positive : 0 < c := zero_lt_one.trans_le atLeast
  cases amount with
  | posInf => exact absurd bounded (Number.not_posInf_le_finite 1)
  | finite nonnegative _ =>
    rw [Number.finite_div_finite nonnegative positive, ← one]
    refine Number.ofRat_mono (by decide : 1 ≤ 53) ((div_le_one positive).mpr ?_)
    exact (Number.finite_le_finite.mp bounded).trans atLeast

/-- In the standard settings no item near enough to zero has a score below the least one. -/
theorem minScore_le_distanceScore_standard {c : ℚ} (atLeast : 1 ≤ c) {distance : Number .binary64}
    (amount : distance.IsAmount) (near : isNearZero (Settings.standard .binary64) distance) :
    (Settings.standard .binary64).minScore ≤
      distanceScore (Settings.standard .binary64) (.finite c) distance := by
  have proper : Format.binary64.IsProper := (by decide : 1 ≤ 53)
  have positive : 0 < c := zero_lt_one.trans_le atLeast
  have baseScore : (Settings.standard .binary64).baseScore = .finite 100 := by decide +kernel
  have one : (Number.finite 1 : Number .binary64).IsAmount :=
    .finite zero_le_one (by decide +kernel)
  obtain ⟨weighed, bounded⟩ := weighed_identicalEpsilon_standard
  have shared := (Number.scales_div_finite positive).isAmount proper weighed
  -- Even at the bound on what is near enough at most one of the hundred is lost.
  have least : (Settings.standard .binary64).minScore ≤
      distanceScore (Settings.standard .binary64) (.finite c)
        (Settings.standard .binary64).identicalEpsilon := by
    rw [distanceScore, baseScore]
    have left := Number.atLeastZero_mono
      (shared.finite_sub_le (q := 100) proper one (div_finite_le_one atLeast weighed bounded))
    exact Number.le_trans (by decide +kernel) left
  have epsilon : (Settings.standard .binary64).identicalEpsilon.IsAmount :=
    Number.isAmount_ofRat proper (by norm_num)
  have fallen := distanceScore_antitone proper Settings.isSound_standard positive amount epsilon
    (Number.le_of_lt (of_decide_eq_true near))
  exact Number.le_trans least fallen

end Standard

end Relevance

end Lookalike
