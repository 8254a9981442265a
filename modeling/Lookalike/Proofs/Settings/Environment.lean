import Lookalike.Settings.Environment
import Lookalike.Proofs.Entries
import Lookalike.Proofs.Settings.Problems
import Lookalike.Proofs.Settings.Spelling

/-!
# Settings that an environment asks for

Every variable stands for one field. What is written in it is taken without the blanks around it,
and a variable with nothing but blanks counts as absent. So the settings that are built have the
standard value wherever nothing is written, and a count that is written in any of the usual ways is
the count that is used. A variable that cannot be used is complained about whatever the others hold.
The two scores that are compared with each other have no variable, so their order is never
complained about.

## Main definitions

* `Settings.written?`, `Settings.IsLeftOut`, what is written in a variable
* `Settings.Writes`, that a variable holds a count, written in one of the usual ways
* `Settings.BlamesVariables`, that problems are those of the variables, each on its own
* `Settings.IsDecodedFrom`, that settings have the values that are written in an environment

## Main statements

* `Settings.lookup_overrides`, `Settings.lookup_overrides_eq_none`
* `Settings.read_of_writes`
* `Settings.ofEnvironment_decodes`
-/

namespace Lookalike.Settings

open Text

variable {F : Format} {environment : String → Option String}

section Variables

/-- What is written in a variable: its text without the blanks around it, if any is left. -/
def written? (environment : String → Option String) (name : String) : Option String := do
  let text ← environment name
  let trimmed := trim isBlankOrSeparator text.toList
  if trimmed.isEmpty then none else some (String.ofList trimmed)

/-- That a variable is absent or blank. -/
def IsLeftOut (environment : String → Option String) (name : String) : Prop :=
  ∀ text ∈ environment name, ∀ c ∈ text.toList, isBlankOrSeparator c

/-- That a variable holds a count, written in one of the usual ways and not too long to be read. -/
def Writes (F : Format) (environment : String → Option String) (name : String) (n : ℕ) : Prop :=
  F.ReadsDigits n ∧ ∃ spelling : Spelling n, environment name = some spelling.text

/-- The raw settings that the variables of an environment stand for. -/
def overrides (environment : String → Option String) : List (String × Datum) :=
  overridable.filterMap (override? environment)

theorem override?_eq (environment : String → Option String) (entry : String × Field) :
    override? environment entry =
      ((written? environment entry.1).map fun text => .scalar (.text text)).map
        (entry.2.name, ·) := by
  simp only [override?, written?, Option.bind_eq_bind]
  cases environment entry.1 with
  | none => rfl
  | some text =>
    rw [Option.bind_some, Option.bind_some]
    split_ifs <;> rfl

theorem nodup_overridable : (overridable.map (·.2.name)).Nodup := by
  decide

/-- What is given for the field of a variable is what is written in the variable. -/
theorem lookup_overrides {entry : String × Field} (member : entry ∈ overridable) :
    (overrides environment).lookup entry.2.name =
      (written? environment entry.1).map fun text => .scalar (.text text) := by
  rw [overrides, List.filterMap_congr fun entry _ => override?_eq environment entry]
  exact lookup_filterMap_of_mem nodup_overridable member

/-- Nothing is given for a field that has no variable. -/
theorem lookup_overrides_eq_none {field : Field} (absent : ∀ entry ∈ overridable, entry.2 ≠ field) :
    (overrides environment).lookup field.name = none := by
  rw [overrides, List.filterMap_congr fun entry _ => override?_eq environment entry]
  exact lookup_filterMap_of_forall_ne fun entry member same =>
    absent entry member (Field.name_injective same)

theorem written?_of_isLeftOut {name : String} (leftOut : IsLeftOut environment name) :
    written? environment name = none := by
  unfold written?
  cases found : environment name with
  | none => rfl
  | some text =>
    have blank : trim isBlankOrSeparator text.toList = [] := by
      rw [trim, List.dropWhile_eq_nil_iff.mpr (leftOut text found)]
      rfl
    rw [Option.bind_eq_bind, Option.bind_some, blank]
    rfl

/-- What is written in a variable that holds a count is read as the count. -/
theorem read_of_writes {name : String} {n : ℕ} (writes : Writes F environment name n) :
    ∃ text, written? environment name = some text ∧
      (integerOf F (.scalar (.text text)) >>= count) = .ok n := by
  obtain ⟨within, spelling, holds⟩ := writes
  refine ⟨String.ofList spelling.core, ?_, ?_⟩
  · simp [written?, holds, spelling.trim_text, spelling.core_ne_nil]
  · rw [spelling.integerOf_core within]
    have positive : (1 : ℤ) ≤ n := by exact_mod_cast spelling.positive
    change Settings.count n = _
    rw [Settings.count, if_pos positive, Int.toNat_natCast]

end Variables

section Outcome

/-- That problems are those of the variables of an environment, each complained about for what is
written in it alone, in the order of the fields. No variable is complained about that is left out,
or that stands for a count and holds one. -/
structure BlamesVariables (F : Format) (environment : String → Option String)
    (problems : List Problem) : Prop where
  inOrder : (problems.map (·.field)).Sublist (Field.all.map fun field => some field.name)
  named : ∀ problem ∈ problems, ∃ entry ∈ overridable, problem.field = some entry.2.name
  mem_iff : ∀ entry ∈ overridable, ∀ complaint : Complaint,
    ⟨some entry.2.name, complaint⟩ ∈ problems ↔
      ∃ text, written? environment entry.1 = some text ∧
        entry.2.read F (.scalar (.text text)) = .error complaint
  leftOut : ∀ entry ∈ overridable, IsLeftOut environment entry.1 →
    some entry.2.name ∉ problems.map (·.field)
  counted : ∀ entry ∈ overridable, entry.2 ∈ [Field.maxResults, .maxTop, .rangeCheck] →
    ∀ n, Writes F environment entry.1 n → some entry.2.name ∉ problems.map (·.field)

/-- That settings have the values that are written in an environment, and the standard ones where
nothing is written. -/
structure IsDecodedFrom (environment : String → Option String) (settings : Settings F) : Prop where
  baseScore : settings.baseScore = (standard F).baseScore
  identicalScore : settings.identicalScore = (standard F).identicalScore
  identicalEpsilon : settings.identicalEpsilon = (standard F).identicalEpsilon
  leftOut : ∀ entry ∈ overridable, IsLeftOut environment entry.1 →
    settings.valueOf entry.2 = (standard F).valueOf entry.2
  read : ∀ entry ∈ overridable, ∀ text, written? environment entry.1 = some text →
    entry.2.read F (.scalar (.text text)) = .ok (settings.valueOf entry.2)
  maxResults : ∀ n, Writes F environment "IMGSIM_MAX_RESULTS" n → settings.maxResults = n
  maxTop : ∀ n, Writes F environment "IMGSIM_MAX_TOP" n → settings.maxTop = n
  rangeCheck : ∀ n, Writes F environment "IMGSIM_RANGE_CHECK" n → settings.rangeCheck = n

theorem field_read_of_writes {entry : String × Field}
    (counts : entry.2 ∈ [Field.maxResults, .maxTop, .rangeCheck]) {n : ℕ}
    (writes : Writes F environment entry.1 n) :
    ∃ text, written? environment entry.1 = some text ∧
      entry.2.read F (.scalar (.text text)) = .ok (.count n) := by
  obtain ⟨text, written, read⟩ := read_of_writes writes
  refine ⟨text, written, ?_⟩
  have counted : entry.2.read F (.scalar (.text text)) =
      .count <$> (integerOf F (.scalar (.text text)) >>= Settings.count) := by
    obtain ⟨name, field⟩ := entry
    simp only [List.mem_cons, List.not_mem_nil, or_false] at counts
    obtain rfl | rfl | rfl := counts <;> rfl
  rw [counted, read]
  rfl

/-- Fields that have a problem have a variable that is complained about on its own. -/
theorem blamesVariables (F : Format) (environment : String → Option String) :
    BlamesVariables F environment (problemsIn F (overrides environment)) := by
  have blames := blamesFields F (overrides environment)
  have mem_iff : ∀ entry ∈ overridable, ∀ complaint : Complaint,
      ⟨some entry.2.name, complaint⟩ ∈ problemsIn F (overrides environment) ↔
        ∃ text, written? environment entry.1 = some text ∧
          entry.2.read F (.scalar (.text text)) = .error complaint := by
    intro entry member complaint
    rw [blames.mem_iff, lookup_overrides member]
    cases written? environment entry.1 <;> simp
  -- A variable that is read, or in which nothing is written, has no complaint.
  have silent : ∀ entry ∈ overridable,
      (∀ text, written? environment entry.1 = some text →
        ∃ value, entry.2.read F (.scalar (.text text)) = .ok value) →
      some entry.2.name ∉ (problemsIn F (overrides environment)).map (·.field) := by
    intro entry member reads listed
    obtain ⟨⟨_, complaint⟩, blamed, rfl⟩ := List.mem_map.mp listed
    obtain ⟨text, written, refused⟩ := (mem_iff entry member complaint).mp blamed
    obtain ⟨value, read⟩ := reads text written
    rw [refused] at read
    cases read
  constructor
  case inOrder => exact blames.inOrder
  case named =>
    intro problem listed
    obtain ⟨field, -, known⟩ := List.mem_filterMap.mp listed
    obtain ⟨raw, found, complaint, -, rfl⟩ := problem?_eq_some_iff.mp known
    by_contra! unnamed
    rw [lookup_overrides_eq_none fun entry member same =>
      unnamed entry member (congrArg (fun field : Field => some field.name) same.symm)] at found
    cases found
  case mem_iff => exact mem_iff
  case leftOut =>
    refine fun entry member leftOut => silent entry member fun text written => ?_
    rw [written?_of_isLeftOut leftOut] at written
    cases written
  case counted =>
    refine fun entry member counts n writes => silent entry member fun text written => ?_
    obtain ⟨text', written', read⟩ := field_read_of_writes (F := F) counts writes
    rw [written] at written'
    obtain rfl := Option.some.inj written'
    exact ⟨_, read⟩

theorem TakesValues.isDecodedFrom {settings : Settings F}
    (takes : settings.TakesValues (overrides environment)) :
    settings.IsDecodedFrom environment := by
  have read : ∀ entry ∈ overridable, ∀ text, written? environment entry.1 = some text →
      entry.2.read F (.scalar (.text text)) = .ok (settings.valueOf entry.2) := by
    intro entry member text written
    exact takes.read entry.2 _ (by rw [lookup_overrides member, written]; rfl)
  have unnamed (field : Field) (absent : ∀ entry ∈ overridable, entry.2 ≠ field) :
      settings.valueOf field = (standard F).valueOf field :=
    takes.absent field (lookup_overrides_eq_none absent)
  have counted : ∀ entry ∈ overridable, entry.2 ∈ [Field.maxResults, .maxTop, .rangeCheck] →
      ∀ n, Writes F environment entry.1 n → settings.valueOf entry.2 = .count n := by
    intro entry member counts n writes
    obtain ⟨text, written, known⟩ := field_read_of_writes counts writes
    exact Except.ok.inj ((read entry member text written).symm.trans known)
  constructor
  case baseScore => exact Setting.real.inj (unnamed .baseScore (by decide))
  case identicalScore => exact Setting.real.inj (unnamed .identicalScore (by decide))
  case identicalEpsilon => exact Setting.real.inj (unnamed .identicalEpsilon (by decide))
  case leftOut =>
    intro entry member leftOut
    refine takes.absent entry.2 ?_
    rw [lookup_overrides member, written?_of_isLeftOut leftOut]
    rfl
  case read => exact read
  case maxResults =>
    exact fun n writes => Setting.count.inj
      (counted ("IMGSIM_MAX_RESULTS", .maxResults) (by decide) (by decide) n writes)
  case maxTop =>
    exact fun n writes => Setting.count.inj
      (counted ("IMGSIM_MAX_TOP", .maxTop) (by decide) (by decide) n writes)
  case rangeCheck =>
    exact fun n writes => Setting.count.inj
      (counted ("IMGSIM_RANGE_CHECK", .rangeCheck) (by decide) (by decide) n writes)

theorem ofEnvironment_congr {environment' : String → Option String}
    (same : ∀ entry ∈ overridable, environment' entry.1 = environment entry.1) :
    ofEnvironment F environment' = ofEnvironment F environment := by
  rw [ofEnvironment, ofEnvironment]
  refine congrArg (ofFields F) (List.filterMap_congr fun entry member => ?_)
  rw [override?, override?, same entry member]

/-- An environment is refused for its variables or decoded. -/
theorem ofEnvironment_cases (sound : (standard F).IsSound)
    (environment : String → Option String) :
    ∃ problems, BlamesVariables F environment problems ∧
      ((problems ≠ [] ∧ ofEnvironment F environment = .unsound problems) ∨
        problems = [] ∧ ∃ settings : Settings F, ofEnvironment F environment = .sound settings ∧
          settings.IsDecodedFrom environment) := by
  refine ⟨problemsIn F (overrides environment), blamesVariables F environment, ?_⟩
  obtain refused | ⟨none, settings, takes, outcome⟩ := ofFields_cases F (overrides environment)
  · exact .inl refused
  · -- The two scores that are compared have no variable.
    have decoded := takes.isDecodedFrom
    rw [decoded.identicalScore, decoded.baseScore, if_neg sound.exceeds] at outcome
    exact .inr ⟨none, settings, outcome, decoded⟩

/-- Where nothing but counts is written, they are the counts that are used. -/
theorem ofEnvironment_of_writes (sound : (standard F).IsSound) {p q r : ℕ}
    (maxResults : Writes F environment "IMGSIM_MAX_RESULTS" p)
    (maxTop : Writes F environment "IMGSIM_MAX_TOP" q)
    (rangeCheck : Writes F environment "IMGSIM_RANGE_CHECK" r)
    (distanceWeight : IsLeftOut environment "IMGSIM_DIST_TO_SCORE_MULT")
    (minScore : IsLeftOut environment "IMGSIM_MIN_SCORE") :
    ofEnvironment F environment =
      .sound { standard F with maxResults := p, maxTop := q, rangeCheck := r } := by
  obtain ⟨problems, blames, ⟨some, -⟩ | ⟨-, settings, outcome, decoded⟩⟩ :=
    ofEnvironment_cases sound environment
  · -- The first problem would be named for a variable that is left out or holds a count.
    obtain ⟨problem, rest, rfl⟩ := List.exists_cons_of_ne_nil some
    obtain ⟨entry, member, named⟩ := blames.named problem List.mem_cons_self
    have listed : Option.some entry.2.name ∈ (problem :: rest).map (·.field) :=
      named ▸ List.mem_cons_self
    simp only [overridable, List.mem_cons, List.not_mem_nil, or_false] at member
    obtain rfl | rfl | rfl | rfl | rfl := member
    · exact absurd listed (blames.leftOut _ (by decide) distanceWeight)
    · exact absurd listed (blames.leftOut _ (by decide) minScore)
    · exact absurd listed (blames.counted _ (by decide) (by decide) p maxResults)
    · exact absurd listed (blames.counted _ (by decide) (by decide) q maxTop)
    · exact absurd listed (blames.counted _ (by decide) (by decide) r rangeCheck)
  · have weight := Setting.real.inj <|
      decoded.leftOut ("IMGSIM_DIST_TO_SCORE_MULT", .distanceWeight) (by decide) distanceWeight
    have least := Setting.real.inj <|
      decoded.leftOut ("IMGSIM_MIN_SCORE", .minScore) (by decide) minScore
    have results := decoded.maxResults p maxResults
    have top := decoded.maxTop q maxTop
    have check := decoded.rangeCheck r rangeCheck
    rw [outcome, ← results, ← top, ← check]
    refine congrArg Checked.sound ?_
    change settings = ⟨(standard F).distanceWeight, (standard F).baseScore,
      (standard F).identicalScore, (standard F).identicalEpsilon, (standard F).minScore,
      settings.maxResults, settings.maxTop, settings.rangeCheck⟩
    rw [← weight, ← decoded.baseScore, ← decoded.identicalScore, ← decoded.identicalEpsilon,
      ← least]

/-- An environment is read through its variables alone, each on its own. Where a variable cannot be
used, the problems with all such variables are told, whatever the others hold. Otherwise there are
settings with the values that are written, counts of any size that the format reads among them, and
with the standard values where nothing is written. -/
theorem ofEnvironment_decodes (sound : (standard F).IsSound)
    (environment : String → Option String) :
    (∀ environment', (∀ entry ∈ overridable, environment' entry.1 = environment entry.1) →
      ofEnvironment F environment' = ofEnvironment F environment) ∧
    (∃ problems, BlamesVariables F environment problems ∧
      ((problems ≠ [] ∧ ofEnvironment F environment = .unsound problems) ∨
        problems = [] ∧ ∃ settings : Settings F, ofEnvironment F environment = .sound settings ∧
          settings.IsDecodedFrom environment)) ∧
    ∀ p q r : ℕ, Writes F environment "IMGSIM_MAX_RESULTS" p →
      Writes F environment "IMGSIM_MAX_TOP" q → Writes F environment "IMGSIM_RANGE_CHECK" r →
      IsLeftOut environment "IMGSIM_DIST_TO_SCORE_MULT" → IsLeftOut environment "IMGSIM_MIN_SCORE" →
        ofEnvironment F environment =
          .sound { standard F with maxResults := p, maxTop := q, rangeCheck := r } :=
  ⟨fun _ same => ofEnvironment_congr same, ofEnvironment_cases sound environment,
    fun _ _ _ => ofEnvironment_of_writes sound⟩

/-- A thousand with an underscore, a sign, a point with zeros and blanks. -/
def spelledThousand : Spelling 1000 where
  before := [' ']
  plus := true
  groups := [['1'], ['0', '0', '0']]
  zeros := 2
  after := ['\t', '\x1c']
  positive := by decide
  blank_before := List.all_eq_true.mp (by decide)
  blank_after := List.all_eq_true.mp (by decide)
  ne_nil := by decide
  flatten_groups := by decide

/-- A number of five thousand and one digits. -/
def longCount : ℕ := Nat.pow (Nat.pow 10 100) 50

theorem longCount_pos : 0 < longCount := Nat.pow_pos (Nat.pow_pos (by decide))

/-- An environment with a thousand, another count and a one, and with blanks where the least score
might be. -/
def countingEnvironment (maxTop : String) : String → Option String
  | "IMGSIM_MAX_RESULTS" => some " +1_000.00\t\x1c"
  | "IMGSIM_MAX_TOP" => some maxTop
  | "IMGSIM_RANGE_CHECK" => some "1"
  | "IMGSIM_MIN_SCORE" => some " \n"
  | _ => none

/-- Counts are read as they are written, in exact numbers however long they are. -/
theorem ofEnvironment_decodes_counts :
    ofEnvironment .binary64 (countingEnvironment "7") = .sound { standard .binary64 with
      maxResults := 1000, maxTop := 7, rangeCheck := 1 } ∧
    ofEnvironment .exact (countingEnvironment (Spelling.plain longCount_pos).text) =
      .sound { standard .exact with
        maxResults := 1000, maxTop := longCount, rangeCheck := 1 } := by
  have blank (text : String) : IsLeftOut (countingEnvironment text) "IMGSIM_MIN_SCORE" := by
    rintro _ ⟨⟩
    exact List.all_eq_true.mp (by decide)
  have absent (text : String) :
      IsLeftOut (countingEnvironment text) "IMGSIM_DIST_TO_SCORE_MULT" := nofun
  have short {n : ℕ} (few : (Nat.toDigits 10 n).length ≤ 4300) :
      Format.binary64.ReadsDigits n := by
    rintro limit ⟨⟩
    exact few
  constructor
  · obtain ⟨-, -, used⟩ := ofEnvironment_decodes isSound_standard (countingEnvironment "7")
    refine used 1000 7 1 ?_ ?_ ?_ (absent "7") (blank "7")
    · exact ⟨short (by decide), spelledThousand, by decide +kernel⟩
    · exact ⟨short (by decide), .plain (by decide), by decide +kernel⟩
    · exact ⟨short (by decide), .plain (by decide), by decide +kernel⟩
  · obtain ⟨-, -, used⟩ := ofEnvironment_decodes isSound_standard_exact
      (countingEnvironment (Spelling.plain longCount_pos).text)
    refine used 1000 longCount 1 ?_ ?_ ?_ (absent _) (blank _)
    · exact ⟨Format.readsDigits_exact _, spelledThousand, by decide +kernel⟩
    · exact ⟨Format.readsDigits_exact _, .plain longCount_pos, rfl⟩
    · exact ⟨Format.readsDigits_exact _, .plain (by decide), by decide +kernel⟩

/-- What cannot be used is complained about in the order of the fields. -/
example : ofEnvironment .binary64 (fun
      | "IMGSIM_RANGE_CHECK" => some "0"
      | "IMGSIM_MAX_TOP" => some "5"
      | "IMGSIM_MIN_SCORE" => some "abc"
      | _ => none) =
    .unsound [⟨some "min_score", .unreadableNumber⟩, ⟨some "range_check", .below 1⟩] := by
  decide +kernel

end Outcome

end Lookalike.Settings
