import Lookalike.Settings.Basic

/-!
# Settings from the environment

Five of the settings can be overridden by environment variables. A variable that is unset, or that
holds blanks alone, leaves its field as it is.

## Main definitions

* `Settings.overridable`, the variables and their fields
* `Settings.ofEnvironment`, the settings that an environment asks for
-/

namespace Lookalike.Settings

/-- The environment variables that override a field. -/
def overridable : List (String × Field) := [
  ("IMGSIM_DIST_TO_SCORE_MULT", .distanceWeight),
  ("IMGSIM_MIN_SCORE", .minScore),
  ("IMGSIM_MAX_RESULTS", .maxResults),
  ("IMGSIM_MAX_TOP", .maxTop),
  ("IMGSIM_RANGE_CHECK", .rangeCheck)]

/-- The override that a variable asks for: its text without blanks around it, if any is left. -/
def override? (environment : String → Option String) (variableField : String × Field) :
    Option (String × Datum) := do
  let text ← environment variableField.1
  let trimmed := Text.trim Text.isBlankOrSeparator text.toList
  if trimmed.isEmpty then none
  else some (variableField.2.name, .scalar (.text (String.ofList trimmed)))

/-- The settings that an environment asks for. -/
def ofEnvironment (F : Format) (environment : String → Option String) : Checked (Settings F) :=
  ofFields F (overridable.filterMap (override? environment))

end Lookalike.Settings
