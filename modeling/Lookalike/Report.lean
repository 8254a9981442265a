import Lookalike.CaseIndex.Loading
import Lookalike.Options
import Lookalike.Scorer
import Lookalike.Settings.Environment

/-!
# Reports

A report scores all items of a vector store against one of them and lists the best matches with
their rank and score. Identical matches are marked.

## Main definitions

* `Report.Ending`, how a report ends
* `Report.findHandle?`, the handle that a text stands for
* `Report.line`, the line of one candidate
* `Report.storeOf`, `Report.ofStore`, the store that options name and the report on it
* `Report.run`, the report that arguments ask for
-/

namespace Lookalike.Report

/-- How a report ends: regularly, because the arguments are malformed, or with a refusal. -/
inductive Ending where
  | regular
  | usage
  | refusal (message : String)
deriving DecidableEq, Repr

/-- A report: what it prints and how it ends. -/
structure Output where
  ending : Ending
  printed : String := ""

/-- The first handle with a text. -/
def findHandle? (handles : List Scalar) (text : String) : Option Scalar :=
  handles.find? fun handle => handle.toText == text

/-- The line of a candidate: its rank, a mark if it is identical to the reference, its score with
three places, and its handle. -/
def line (settings : Settings .binary64) (rank : Nat) (candidate : Candidate Datum .binary64) :
    String :=
  let mark := if settings.identicalScore ≤ candidate.score then "=" else " "
  Number.padLeft 5 ' ' (Number.digitText rank) ++ " " ++ mark ++ " " ++
    Number.padLeft 9 ' ' (candidate.score.toFixed 3) ++ "  " ++ candidate.item.toText ++ "\n"

/-- The lines in front of the candidates. -/
def header (reference : Scalar) (count : Nat) (top : TopList) : String :=
  "Reference: " ++ reference.toText ++ "\n" ++
    "Matched: " ++ Number.digitText count ++
    "  identical/anchor prefix: " ++ Number.integerText top.tailStart ++
    "  reordered tail: " ++ Number.integerText top.tailSize ++ "\n\n"

/-- Scores the items of a store against one of them. -/
def scored (store : VectorStore .binary64) (reference : Scalar) (settings : Settings .binary64) :
    Scoring Datum Datum .binary64 (Option TopList) := do
  let index := store.index
  let scorer ← Scorer.forItem index (.scalar reference) settings
  scorer.score index

/-- The listing of a scored pass. The count of the candidates shown is asked for only where there
are candidates to be listed. -/
def listing (reference : Scalar) (settings : Settings .binary64) (shown : Option Int)
    (top : Option TopList) (pass : Pass Datum Datum .binary64) : Except Fault String := do
  match top, shown with
  | none, _ => pure "Nothing scored.\n"
  | some _, none => throw .wrongKind
  | some top, some shown =>
    let candidates ← Scorer.candidates pass
    let lines := (Position.upTo shown candidates).mapIdx fun k candidate =>
      line settings (k + 1) candidate
    pure (header reference candidates.length top ++ String.join lines)

/-- The store that options name. Both of its files have to be named. -/
def storeOf (files : Files) (options : Options) : Except Fault (VectorStore .binary64) :=
  match options.embeddings, options.ids with
  | some embeddings, some ids =>
    let hashes := options.hashes.filter fun path => !path.isEmpty
    VectorStore.load files embeddings ids hashes options.layout
  | _, _ => .error .wrongKind

/-- The refusal of a reference that no handle of the store has as its text. -/
def refusal (reference : Option String) : String :=
  "Reference item " ++ (reference.map Text.quote).getD "[]" ++ " not found in id mapping"

/-- The report on a store. -/
def ofStore (store : VectorStore .binary64) (environment : String → Option String)
    (options : Options) : Except Fault Output :=
  match options.reference.bind (findHandle? store.handles) with
  | none => .ok { ending := .refusal (refusal options.reference) }
  | some reference =>
    match Settings.ofEnvironment .binary64 environment with
    | .unsound problems => .error (.settings problems)
    | .sound settings =>
      let results := ResultSet.ofItems (store.handles.map .scalar) 0
      match (scored store reference settings).result { results } with
      | (.error fault, _) => .error fault
      | (.ok top, pass) => do
        let printed ← listing reference settings options.count top pass
        pure { ending := .regular, printed }

/-- The report that arguments ask for. -/
def run (files : Files) (environment : String → Option String) (arguments : List String) :
    Except Fault Output :=
  match Options.parse? arguments with
  | none => .ok { ending := .usage }
  | some options => do ofStore (← storeOf files options) environment options

end Lookalike.Report
