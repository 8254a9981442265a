import Lookalike.Settings.Basic
import Lookalike.Proofs.Number.Order

/-!
# Built settings are sound

Every field of settings that are built from raw data keeps its bound, whether its value was given or
is the standard one, and the score of identical items exceeds the base score.

## Main definitions

* `Settings.IsSound`, what every setting has to meet
* `Settings.IsReadFrom`, how settings come from raw data

## Main statements

* `Settings.isSound_standard`
* `Settings.isReadFrom_of_ofFields`, `Settings.isSound_of_ofFields`
-/

namespace Lookalike

variable {F : Format}

namespace Settings

/-- Settings whose fields keep their bounds and whose score of identical items exceeds the base
score. -/
structure IsSound (settings : Settings F) : Prop where
  distanceWeight : 0 < settings.distanceWeight
  baseScore : 0 < settings.baseScore
  identicalScore : 0 < settings.identicalScore
  identicalEpsilon : 0 ≤ settings.identicalEpsilon
  minScore : 0 ≤ settings.minScore
  maxResults : 1 ≤ settings.maxResults
  maxTop : 1 ≤ settings.maxTop
  rangeCheck : 1 ≤ settings.rangeCheck
  exceeds : ¬ settings.identicalScore ≤ settings.baseScore

/-- The base score of sound settings is a positive finite number. -/
theorem IsSound.exists_baseScore_eq {settings : Settings F} (sound : settings.IsSound) :
    ∃ base : ℚ, 0 < base ∧ settings.baseScore = .finite base := by
  rcases Number.eq_posInf_or_finite_of_pos sound.baseScore with infinite | finite
  · have number := (Number.lt_iff_place.mp sound.identicalScore).2.1
    exact absurd (infinite ▸ Number.le_posInf number) sound.exceeds
  · exact finite

/-- The base score of sound settings lies below the score of identical items. -/
theorem IsSound.baseScore_lt_identicalScore {settings : Settings F} (sound : settings.IsSound) :
    settings.baseScore < settings.identicalScore :=
  (Number.not_le (Number.lt_iff_place.mp sound.identicalScore).2.1
    (Number.lt_iff_place.mp sound.baseScore).2.1).mp sound.exceeds

theorem isSound_standard : (standard .binary64).IsSound where
  distanceWeight := by decide +kernel
  baseScore := by decide +kernel
  identicalScore := by decide +kernel
  identicalEpsilon := by decide +kernel
  minScore := by decide +kernel
  maxResults := by decide +kernel
  maxTop := by decide +kernel
  rangeCheck := by decide +kernel
  exceeds := by decide +kernel

theorem isSound_standard_exact : (standard .exact).IsSound where
  distanceWeight := by decide +kernel
  baseScore := by decide +kernel
  identicalScore := by decide +kernel
  identicalEpsilon := by decide +kernel
  minScore := by decide +kernel
  maxResults := by decide +kernel
  maxTop := by decide +kernel
  rangeCheck := by decide +kernel
  exceeds := by decide +kernel

section Checked

variable {α β : Type}

/-- A checked application is sound only where both its parts are. -/
theorem Checked.seq_eq_sound {f : Checked (α → β)} {a : Checked α} {b : β}
    (sound : f <*> a = .sound b) : ∃ g x, f = .sound g ∧ a = .sound x ∧ g x = b := by
  change Checked.apply f a = .sound b at sound
  cases f <;> cases a <;> cases sound
  exact ⟨_, _, rfl, rfl, rfl⟩

theorem Checked.map_eq_sound {f : α → β} {a : Checked α} {b : β} (sound : f <$> a = .sound b) :
    ∃ x, a = .sound x ∧ f x = b := by
  obtain ⟨g, x, first, rest, same⟩ := seq_eq_sound (f := .sound f) sound
  cases first
  exact ⟨x, rest, same⟩

theorem Checked.andThen_eq_sound {a : Checked α} {check : α → Checked β} {b : β}
    (sound : a.andThen check = .sound b) : ∃ x, a = .sound x ∧ check x = .sound b := by
  cases a with
  | sound x => exact ⟨x, rfl, sound⟩
  | unsound problems => cases sound

/-- A bound that the default keeps, and every value that is read, is kept by the field. -/
theorem of_readField {P : α → Prop} {given : List (String × Datum)} {field : Field}
    {read : Datum → Except Complaint α} {default value : α}
    (sound : readField given field read default = .sound value) (kept : P default)
    (keeps : ∀ raw value, read raw = .ok value → P value) : P value := by
  -- A field that is not given has the default, and what cannot be read is no sound value.
  unfold readField at sound
  split at sound
  · cases sound
    exact kept
  next raw _ =>
    cases reading : read raw with
    | ok value =>
      rw [reading] at sound
      cases sound
      exact keeps raw _ reading
    | error complaint =>
      rw [reading] at sound
      cases sound

end Checked

section Bounds

/-- A value that passes a check has been read and has met what the check asks for. -/
theorem of_check_ok {α β : Type} {read : Except Complaint β} {Meets : β → Prop}
    [DecidablePred Meets] {result : β → α} {complaint : Complaint} {value : α}
    (passed : (read >>= fun y => if Meets y then .ok (result y) else .error complaint) =
      .ok value) : ∃ y, read = .ok y ∧ Meets y ∧ result y = value := by
  cases read with
  | error => cases passed
  | ok y =>
    change (if Meets y then .ok (result y) else .error complaint) = Except.ok value at passed
    split_ifs at passed with meets
    exact ⟨y, rfl, meets, Except.ok.inj passed⟩

theorem positive_of_ok {read : Except Complaint (Number F)} {value : Number F}
    (passed : read >>= positive = .ok value) : 0 < value := by
  obtain ⟨_, -, above, rfl⟩ := of_check_ok passed
  exact above

theorem nonNegative_of_ok {read : Except Complaint (Number F)} {value : Number F}
    (passed : read >>= nonNegative = .ok value) : 0 ≤ value := by
  obtain ⟨_, -, above, rfl⟩ := of_check_ok passed
  exact above

theorem count_of_ok {read : Except Complaint Int} {value : Nat}
    (passed : read >>= count = .ok value) : 1 ≤ value := by
  obtain ⟨n, -, above, rfl⟩ := of_check_ok passed
  omega

end Bounds

/-- Settings whose fields are read as a whole are read field by field. -/
theorem readFields_eq_sound {given : List (String × Datum)} {settings : Settings F}
    (read : readFields F given = .sound settings) :
    readField given .distanceWeight (fun raw => realOf F raw >>= positive)
        (standard F).distanceWeight = .sound settings.distanceWeight ∧
      readField given .baseScore (fun raw => realOf F raw >>= positive)
        (standard F).baseScore = .sound settings.baseScore ∧
      readField given .identicalScore (fun raw => realOf F raw >>= positive)
        (standard F).identicalScore = .sound settings.identicalScore ∧
      readField given .identicalEpsilon (fun raw => realOf F raw >>= nonNegative)
        (standard F).identicalEpsilon = .sound settings.identicalEpsilon ∧
      readField given .minScore (fun raw => realOf F raw >>= nonNegative)
        (standard F).minScore = .sound settings.minScore ∧
      readField given .maxResults (fun raw => integerOf F raw >>= count)
        (standard F).maxResults = .sound settings.maxResults ∧
      readField given .maxTop (fun raw => integerOf F raw >>= count)
        (standard F).maxTop = .sound settings.maxTop ∧
      readField given .rangeCheck (fun raw => integerOf F raw >>= count)
        (standard F).rangeCheck = .sound settings.rangeCheck := by
  -- The fields are applied one after the other, so they come off from the last.
  obtain ⟨_, _, toMaxTop, rangeCheck, rfl⟩ := Checked.seq_eq_sound read
  obtain ⟨_, _, toMaxResults, maxTop, rfl⟩ := Checked.seq_eq_sound toMaxTop
  obtain ⟨_, _, toMinScore, maxResults, rfl⟩ := Checked.seq_eq_sound toMaxResults
  obtain ⟨_, _, toEpsilon, minScore, rfl⟩ := Checked.seq_eq_sound toMinScore
  obtain ⟨_, _, toIdentical, identicalEpsilon, rfl⟩ := Checked.seq_eq_sound toEpsilon
  obtain ⟨_, _, toBase, identicalScore, rfl⟩ := Checked.seq_eq_sound toIdentical
  obtain ⟨_, _, toWeight, baseScore, rfl⟩ := Checked.seq_eq_sound toBase
  obtain ⟨_, distanceWeight, rfl⟩ := Checked.map_eq_sound toWeight
  exact ⟨distanceWeight, baseScore, identicalScore, identicalEpsilon, minScore, maxResults, maxTop,
    rangeCheck⟩

/-- Settings whose fields are read from raw data, each on its own, and that pass the check of the
settings as a whole. -/
structure IsReadFrom (given : List (String × Datum)) (settings : Settings F) : Prop where
  distanceWeight : readField given .distanceWeight (fun raw => realOf F raw >>= positive)
    (standard F).distanceWeight = .sound settings.distanceWeight
  baseScore : readField given .baseScore (fun raw => realOf F raw >>= positive)
    (standard F).baseScore = .sound settings.baseScore
  identicalScore : readField given .identicalScore (fun raw => realOf F raw >>= positive)
    (standard F).identicalScore = .sound settings.identicalScore
  identicalEpsilon : readField given .identicalEpsilon (fun raw => realOf F raw >>= nonNegative)
    (standard F).identicalEpsilon = .sound settings.identicalEpsilon
  minScore : readField given .minScore (fun raw => realOf F raw >>= nonNegative)
    (standard F).minScore = .sound settings.minScore
  maxResults : readField given .maxResults (fun raw => integerOf F raw >>= count)
    (standard F).maxResults = .sound settings.maxResults
  maxTop : readField given .maxTop (fun raw => integerOf F raw >>= count)
    (standard F).maxTop = .sound settings.maxTop
  rangeCheck : readField given .rangeCheck (fun raw => integerOf F raw >>= count)
    (standard F).rangeCheck = .sound settings.rangeCheck
  exceeds : ¬ settings.identicalScore ≤ settings.baseScore

/-- Built settings are read from their raw data field by field. -/
theorem isReadFrom_of_ofFields {given : List (String × Datum)} {settings : Settings F}
    (built : ofFields F given = .sound settings) : settings.IsReadFrom given := by
  obtain ⟨settings', read, checked⟩ := Checked.andThen_eq_sound built
  split_ifs at checked with exceeds
  cases checked
  obtain ⟨distanceWeight, baseScore, identicalScore, identicalEpsilon, minScore, maxResults,
    maxTop, rangeCheck⟩ := readFields_eq_sound read
  exact ⟨distanceWeight, baseScore, identicalScore, identicalEpsilon, minScore, maxResults, maxTop,
    rangeCheck, exceeds⟩

/-- Settings that are built from raw data are sound, whatever the data are. -/
theorem isSound_of_ofFields {given : List (String × Datum)} {settings : Settings .binary64}
    (built : ofFields .binary64 given = .sound settings) : settings.IsSound := by
  have read := isReadFrom_of_ofFields built
  have default := isSound_standard
  exact {
    distanceWeight :=
      of_readField read.distanceWeight default.distanceWeight fun _ _ => positive_of_ok
    baseScore := of_readField read.baseScore default.baseScore fun _ _ => positive_of_ok
    identicalScore :=
      of_readField read.identicalScore default.identicalScore fun _ _ => positive_of_ok
    identicalEpsilon :=
      of_readField read.identicalEpsilon default.identicalEpsilon fun _ _ => nonNegative_of_ok
    minScore := of_readField read.minScore default.minScore fun _ _ => nonNegative_of_ok
    maxResults := of_readField read.maxResults default.maxResults fun _ _ => count_of_ok
    maxTop := of_readField read.maxTop default.maxTop fun _ _ => count_of_ok
    rangeCheck := of_readField read.rangeCheck default.rangeCheck fun _ _ => count_of_ok
    exceeds := read.exceeds }

end Settings

end Lookalike
