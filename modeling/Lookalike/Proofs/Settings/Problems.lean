import Mathlib.Data.List.Basic
import Lookalike.Proofs.Settings

/-!
# Problems with raw settings

Each field of raw settings is read on its own, so a field has a problem in company exactly if it has
the same problem when nothing else is given. The problems are reported together, in the order of the
fields, and where there are none the settings hold what each field is read as. They are then refused
only for the order of the two scores. Settings that are not refused keep every bound, hold numbers
throughout and stay as they are.

## Main definitions

* `Settings.Setting`, `Settings.valueOf`, the value of a field
* `Settings.Field.read`, what a raw value of a field is read as or refused for
* `Settings.problemsIn`, `Settings.BlamesFields`, the problems with the fields of raw settings
* `Settings.Checked.Reports`, that a check reports some problems, or none
* `Settings.TakesValues`, `Settings.IsAdmissible`, `Settings.IsFrozen`

## Main statements

* `Settings.reports_readFields`, `Settings.takesValues_of_readFields`
* `Settings.blamesFields`, problems in company and alone
* `Settings.ofFields_admissible_or_refused`
-/

namespace Lookalike.Settings

variable {F : Format} {given : List (String × Datum)} {settings : Settings F}

section Fields

/-- The value of a field. -/
inductive Setting (F : Format) where
  | real (value : Number F)
  | count (value : ℕ)

/-- The value that settings have for a field. -/
def valueOf (settings : Settings F) : Field → Setting F
  | .distanceWeight => .real settings.distanceWeight
  | .baseScore => .real settings.baseScore
  | .identicalScore => .real settings.identicalScore
  | .identicalEpsilon => .real settings.identicalEpsilon
  | .minScore => .real settings.minScore
  | .maxResults => .count settings.maxResults
  | .maxTop => .count settings.maxTop
  | .rangeCheck => .count settings.rangeCheck

/-- The value that a raw value of a field stands for, within the bound of the field. -/
def Field.read (F : Format) (field : Field) (raw : Datum) : Except Complaint (Setting F) :=
  match field with
  | .distanceWeight | .baseScore | .identicalScore => .real <$> (realOf F raw >>= positive)
  | .identicalEpsilon | .minScore => .real <$> (realOf F raw >>= nonNegative)
  | .maxResults | .maxTop | .rangeCheck => .count <$> (integerOf F raw >>= Settings.count)

/-- The problem with a field of raw settings, which only its own value makes. -/
def problem? (F : Format) (given : List (String × Datum)) (field : Field) : Option Problem := do
  let raw ← given.lookup field.name
  match field.read F raw with
  | .ok _ => none
  | .error complaint => some ⟨some field.name, complaint⟩

/-- The problems with the fields of raw settings, in the order of the fields. -/
def problemsIn (F : Format) (given : List (String × Datum)) : List Problem :=
  Field.all.filterMap (problem? F given)

theorem Field.mem_all (field : Field) : field ∈ all := by
  cases field <;> decide

theorem Field.name_injective : Function.Injective name := by
  intro field field' same
  cases field <;> cases field' <;> first | rfl | exact absurd same (by decide)

theorem problem?_eq_some_iff {field : Field} {problem : Problem} :
    problem? F given field = some problem ↔
      ∃ raw, given.lookup field.name = some raw ∧ ∃ complaint,
        field.read F raw = .error complaint ∧ problem = ⟨some field.name, complaint⟩ := by
  simp only [problem?, Option.bind_eq_bind, Option.bind_eq_some_iff]
  refine exists_congr fun raw => and_congr_right fun _ => ?_
  cases field.read F raw <;> simp [eq_comm]

/-- A problem is named for its field. -/
theorem mem_problemsIn_iff {field : Field} {complaint : Complaint} :
    ⟨some field.name, complaint⟩ ∈ problemsIn F given ↔
      problem? F given field = some ⟨some field.name, complaint⟩ := by
  refine List.mem_filterMap.trans ⟨?_, fun known => ⟨field, field.mem_all, known⟩⟩
  rintro ⟨other, -, known⟩
  obtain ⟨_, -, _, -, same⟩ := problem?_eq_some_iff.mp known
  obtain rfl : field = other := Field.name_injective (Option.some.inj (congrArg Problem.field same))
  exact known

end Fields

section Reports

variable {α β : Type} {problems problems' : List Problem}

/-- That a check reports some problems, or finds a value sound and reports none. -/
inductive Checked.Reports : Checked α → List Problem → Prop
  | sound (value : α) : Reports (.sound value) []
  | unsound {problems : List Problem} : problems ≠ [] → Reports (.unsound problems) problems

namespace Checked.Reports

theorem exists_eq_sound {checked : Checked α} (reports : checked.Reports []) :
    ∃ value, checked = .sound value := by
  cases reports with
  | sound value => exact ⟨value, rfl⟩
  | unsound some => exact absurd rfl some

theorem eq_unsound {checked : Checked α} (reports : checked.Reports problems)
    (some : problems ≠ []) : checked = .unsound problems := by
  cases reports with
  | sound => exact absurd rfl some
  | unsound => rfl

theorem map {checked : Checked α} (reports : checked.Reports problems) (f : α → β) :
    (f <$> checked).Reports problems := by
  cases reports with
  | sound value => exact .sound (f value)
  | unsound some => exact .unsound some

/-- Two checks report the problems of both. -/
theorem seq {function : Checked (α → β)} {argument : Checked α}
    (first : function.Reports problems) (second : argument.Reports problems') :
    (function <*> argument).Reports (problems ++ problems') := by
  cases first with
  | sound f => exact second.map f
  | unsound some =>
    cases second with
    | sound =>
      rw [List.append_nil]
      exact .unsound some
    | unsound => exact .unsound fun none => some (List.append_eq_nil_iff.mp none).1

end Checked.Reports

/-- A field reports its problem, if it has one. -/
theorem reports_readField {field : Field} {read : Datum → Except Complaint α}
    {toSetting : α → Setting F} (reads : ∀ raw, field.read F raw = toSetting <$> read raw)
    (default : α) :
    (readField given field read default).Reports (problem? F given field).toList := by
  unfold readField problem?
  cases given.lookup field.name with
  | none => exact .sound default
  | some raw =>
    simp only [Option.bind_eq_bind, Option.bind_some, reads]
    cases read raw with
    | ok value => exact .sound value
    | error complaint => exact .unsound (List.cons_ne_nil _ [])

/-- Reading the fields reports the problems with all of them, in the order of the fields. -/
theorem reports_readFields (F : Format) (given : List (String × Datum)) :
    (readFields F given).Reports (problemsIn F given) := by
  have inOrder : problemsIn F given =
      (((((((problem? F given .distanceWeight).toList ++ (problem? F given .baseScore).toList) ++
        (problem? F given .identicalScore).toList) ++
        (problem? F given .identicalEpsilon).toList) ++ (problem? F given .minScore).toList) ++
        (problem? F given .maxResults).toList) ++ (problem? F given .maxTop).toList) ++
        (problem? F given .rangeCheck).toList := by
    simp [problemsIn, Field.all, List.filterMap_eq_flatMap_toList]
  rw [inOrder]
  -- The fields are applied one after the other, and their problems are appended in this order.
  refine ((((((((Checked.Reports.map ?_ _).seq ?_).seq ?_).seq ?_).seq ?_).seq ?_).seq ?_).seq ?_)
  all_goals exact reports_readField (fun _ => rfl) _

end Reports

section Values

/-- That settings have the value that each field is read as, and the standard one where nothing is
given for the field. -/
structure TakesValues (given : List (String × Datum)) (settings : Settings F) : Prop where
  absent : ∀ field : Field, given.lookup field.name = none →
    settings.valueOf field = (standard F).valueOf field
  read : ∀ (field : Field) (raw : Datum), given.lookup field.name = some raw →
    field.read F raw = .ok (settings.valueOf field)

section

variable {α β : Type} {field : Field} {read : Datum → Except Complaint α} {default value : α}

/-- A field that is sound is read from its own value or has the default. -/
theorem eq_of_readField (sound : readField given field read default = .sound value) :
    (given.lookup field.name = none → value = default) ∧
      ∀ raw, given.lookup field.name = some raw → read raw = .ok value := by
  unfold readField at sound
  cases found : given.lookup field.name with
  | none =>
    rw [found] at sound
    cases sound
    exact ⟨fun _ => rfl, by simp⟩
  | some raw =>
    cases known : read raw with
    | ok value' =>
      simp only [found, known] at sound
      cases sound
      simp [known]
    | error complaint => simp [found, known] at sound

theorem map_readField (f : α → β) (sound : readField given field read default = .sound value) :
    readField given field (fun raw => f <$> read raw) (f default) = .sound (f value) := by
  unfold readField
  cases found : given.lookup field.name with
  | none => simp [(eq_of_readField sound).1 found]
  | some raw => simp [(eq_of_readField sound).2 raw found]

end

/-- Settings whose fields are read have the value that each of them is read as. -/
theorem readField_valueOf (sound : readFields F given = .sound settings) (field : Field) :
    readField given field (field.read F) ((standard F).valueOf field) =
      .sound (settings.valueOf field) := by
  obtain ⟨distanceWeight, baseScore, identicalScore, identicalEpsilon, minScore, maxResults,
    maxTop, rangeCheck⟩ := readFields_eq_sound sound
  cases field with
  | distanceWeight => exact map_readField Setting.real distanceWeight
  | baseScore => exact map_readField Setting.real baseScore
  | identicalScore => exact map_readField Setting.real identicalScore
  | identicalEpsilon => exact map_readField Setting.real identicalEpsilon
  | minScore => exact map_readField Setting.real minScore
  | maxResults => exact map_readField Setting.count maxResults
  | maxTop => exact map_readField Setting.count maxTop
  | rangeCheck => exact map_readField Setting.count rangeCheck

theorem takesValues_of_readFields (sound : readFields F given = .sound settings) :
    settings.TakesValues given where
  absent field := (eq_of_readField (readField_valueOf sound field)).1
  read field := (eq_of_readField (readField_valueOf sound field)).2

end Values

section Outcome

/-- What comes of raw settings: the problems with their fields, or else settings with the values
that are given, which are refused if the two scores are in the wrong order. -/
theorem ofFields_cases (F : Format) (given : List (String × Datum)) :
    (problemsIn F given ≠ [] ∧ ofFields F given = .unsound (problemsIn F given)) ∨
      problemsIn F given = [] ∧ ∃ settings : Settings F, settings.TakesValues given ∧
        ofFields F given =
          if settings.identicalScore ≤ settings.baseScore then
            .unsound [⟨none, .identicalNotAboveBase settings.identicalScore.toText
              settings.baseScore.toText⟩]
          else .sound settings := by
  have reports := reports_readFields F given
  by_cases none : problemsIn F given = []
  · rw [none] at reports
    obtain ⟨settings, sound⟩ := reports.exists_eq_sound
    refine .inr ⟨none, settings, takesValues_of_readFields sound, ?_⟩
    rw [ofFields, sound]
    rfl
  · refine .inl ⟨none, ?_⟩
    rw [ofFields, reports.eq_unsound none]
    rfl

/-- Where one field is given, no other field has a problem. -/
theorem problemsIn_singleton (field : Field) (raw : Datum) :
    problemsIn F [(field.name, raw)] = (problem? F [(field.name, raw)] field).toList := by
  have others : ∀ other ≠ field, problem? F [(field.name, raw)] other = none := by
    intro other different
    have apart : (other.name == field.name) = false :=
      beq_eq_false_iff_ne.mpr fun same => different (Field.name_injective same)
    simp [problem?, List.lookup_cons, apart]
  -- The field stands once among all fields, and nothing is given for those on either side of it.
  obtain ⟨front, back, split⟩ := List.append_of_mem field.mem_all
  have distinct : (front ++ field :: back).Nodup := split ▸ (by decide : Field.all.Nodup)
  obtain ⟨-, behind, apart⟩ := List.nodup_append.mp distinct
  have inFront : front.filterMap (problem? F [(field.name, raw)]) = [] :=
    List.filterMap_eq_nil_iff.mpr fun other member =>
      others other fun same => apart other member field List.mem_cons_self same
  have inBack : back.filterMap (problem? F [(field.name, raw)]) = [] :=
    List.filterMap_eq_nil_iff.mpr fun other member =>
      others other fun same => (List.nodup_cons.mp behind).1 (same ▸ member)
  rw [problemsIn, split, List.filterMap_append, inFront, List.nil_append, List.filterMap_cons]
  cases problem? F [(field.name, raw)] field <;> simp [inBack]

/-- A field has a problem in company exactly if it has the same problem alone. -/
theorem mem_problemsIn_iff_alone {field : Field} {raw : Datum} {complaint : Complaint}
    (found : given.lookup field.name = some raw) :
    ⟨some field.name, complaint⟩ ∈ problemsIn F given ↔
      ofFields F [(field.name, raw)] = .unsound [⟨some field.name, complaint⟩] := by
  have alone : problem? F [(field.name, raw)] field = problem? F given field := by
    simp [problem?, found]
  have listed : problemsIn F [(field.name, raw)] = (problem? F given field).toList := by
    rw [problemsIn_singleton, alone]
  rw [mem_problemsIn_iff]
  obtain ⟨some, refused⟩ | ⟨none, settings, -, outcome⟩ := ofFields_cases F [(field.name, raw)]
  · rw [refused, listed]
    rw [listed] at some
    cases known : problem? F given field with
    | none => exact absurd (by rw [known]; rfl) some
    | some problem => simp
  · -- Alone the field is sound, so what is refused at most is the order of the scores.
    rw [listed] at none
    have silent : problem? F given field = Option.none := by simpa using none
    rw [outcome, silent]
    split_ifs <;> simp

/-- That problems are those of the fields of raw settings, in the order of the fields. A field has a
problem exactly if it is refused on its own. -/
structure BlamesFields (F : Format) (given : List (String × Datum)) (problems : List Problem) :
    Prop where
  inOrder : (problems.map (·.field)).Sublist (Field.all.map fun field => some field.name)
  mem_iff : ∀ (field : Field) (complaint : Complaint),
    ⟨some field.name, complaint⟩ ∈ problems ↔
      ∃ raw, given.lookup field.name = some raw ∧ field.read F raw = .error complaint
  alone : ∀ (field : Field) (raw : Datum) (complaint : Complaint),
    given.lookup field.name = some raw →
      (⟨some field.name, complaint⟩ ∈ problems ↔
        ofFields F [(field.name, raw)] = .unsound [⟨some field.name, complaint⟩])

theorem sublist_problemsIn (F : Format) (given : List (String × Datum)) :
    ((problemsIn F given).map (·.field)).Sublist (Field.all.map fun field => some field.name) := by
  rw [problemsIn]
  induction Field.all with
  | nil => exact .slnil
  | cons field rest ih =>
    rw [List.filterMap_cons]
    cases known : problem? F given field with
    | none => exact ih.cons _
    | some problem =>
      obtain ⟨_, -, _, -, rfl⟩ := problem?_eq_some_iff.mp known
      exact ih.cons_cons _

theorem blamesFields (F : Format) (given : List (String × Datum)) :
    BlamesFields F given (problemsIn F given) where
  inOrder := sublist_problemsIn F given
  mem_iff field complaint := by
    rw [mem_problemsIn_iff, problem?_eq_some_iff]
    simp
  alone _ _ _ := mem_problemsIn_iff_alone

end Outcome

section Built

/-- Settings that keep every bound, hold numbers throughout and put the score of identical items
above a finite base score. -/
structure IsAdmissible (settings : Settings F) : Prop where
  sound : settings.IsSound
  isNaN : ∀ field x, settings.valueOf field = .real x → x.isNaN = false
  isFinite : settings.baseScore.isFinite
  baseScore_lt : settings.baseScore < settings.identicalScore

theorem IsSound.isAdmissible (sound : settings.IsSound) : settings.IsAdmissible where
  sound := sound
  isNaN := by
    have positive {x : Number F} (above : 0 < x) : x.isNaN = false :=
      (Number.lt_iff_place.mp above).2.1
    have nonNegative {x : Number F} (above : 0 ≤ x) : x.isNaN = false :=
      (Number.le_iff_place.mp above).2.1
    rintro field x same
    cases field <;> cases same
    · exact positive sound.distanceWeight
    · exact positive sound.baseScore
    · exact positive sound.identicalScore
    · exact nonNegative sound.identicalEpsilon
    · exact nonNegative sound.minScore
  isFinite := by
    obtain ⟨base, -, same⟩ := sound.exists_baseScore_eq
    rw [same]
    rfl
  baseScore_lt := sound.baseScore_lt_identicalScore

/-- The settings after a scalar is assigned to a name; where it is refused they are as before. -/
def afterAssignment (settings : Settings F) (assignment : String × Scalar) : Settings F :=
  match settings.assign assignment.1 (.scalar assignment.2) with
  | .sound settings' => settings'
  | .unsound _ => settings

/-- Settings that stay as they are: fields refuse whatever is assigned to them, and no scalars that
are assigned to any names, one after the other, change anything. -/
structure IsFrozen (settings : Settings F) : Prop where
  refused : ∀ (field : Field) (raw : Datum),
    settings.assign field.name raw = .unsound [⟨some field.name, .frozen⟩]
  kept : ∀ assignments : List (String × Scalar),
    assignments.foldl afterAssignment settings = settings

theorem afterAssignment_eq (settings : Settings F) (assignment : String × Scalar) :
    settings.afterAssignment assignment = settings := by
  unfold afterAssignment assign
  split_ifs <;> rfl

theorem isFrozen (settings : Settings F) : settings.IsFrozen where
  refused field raw := by
    have plain : (field.name.toList.head? == some '_') = false := by cases field <;> decide
    simp [assign, plain]
  kept assignments := by
    induction assignments with
    | nil => rfl
    | cons assignment rest ih => rw [List.foldl_cons, afterAssignment_eq, ih]

/-- Whatever is given, settings are refused for the problems with their fields, in the order of the
fields; or, where no field has a problem, for the order of the two scores alone; or they are
admissible and stay as they are. A field has a problem exactly if it is refused on its own. -/
theorem ofFields_admissible_or_refused (given : List (String × Datum)) :
    ∃ problems, BlamesFields .binary64 given problems ∧
      ((problems ≠ [] ∧ ofFields .binary64 given = .unsound problems) ∨
        problems = [] ∧ ∃ settings : Settings .binary64, settings.TakesValues given ∧
          ((settings.identicalScore ≤ settings.baseScore ∧
              ofFields .binary64 given = .unsound [⟨none, .identicalNotAboveBase
                settings.identicalScore.toText settings.baseScore.toText⟩]) ∨
            ofFields .binary64 given = .sound settings ∧ settings.IsAdmissible ∧
              settings.IsFrozen)) := by
  refine ⟨problemsIn .binary64 given, blamesFields .binary64 given, ?_⟩
  obtain refused | ⟨none, settings, takes, outcome⟩ := ofFields_cases .binary64 given
  · exact .inl refused
  · refine .inr ⟨none, settings, takes, ?_⟩
    split_ifs at outcome with low
    · exact .inl ⟨low, outcome⟩
    · exact .inr ⟨outcome, (isSound_of_ofFields outcome).isAdmissible, settings.isFrozen⟩

/-- Problems come in the order of the fields, and a name that is not a field is ignored. -/
example : ofFields .binary64 [("max_top", .scalar (.bool false)), ("colour", .list []),
      ("base_score", .scalar (.real .nan))] =
    .unsound [⟨some "base_score", .notPositive⟩, ⟨some "max_top", .below 1⟩] := by
  decide +kernel

/-- An infinite base score is refused for the order of the scores, however high the other is. -/
example : ofFields .binary64 [("base_score", .scalar (.text "inf")),
      ("identical_score", .scalar (.real .posInf))] =
    .unsound [⟨none, .identicalNotAboveBase "inf" "inf"⟩] := by
  decide +kernel

end Built

end Lookalike.Settings
