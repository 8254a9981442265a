import Lookalike.NumberArray.File
import Lookalike.Report

/-!
# The command line

The program prints a report on the standard output. Malformed arguments end it with code 2, all
other failures with code 1, and the reason is written to the error output.
-/

namespace Lookalike

/-- What the bytes of a file hold: an array, a text, or neither. -/
def Content.ofBytes (bytes : ByteArray) : Content :=
  match NumberArray.ofFile? bytes.toList with
  | some numbers => .array (.ok numbers)
  | none =>
    match String.fromUTF8? bytes with
    | some decoded => .text decoded
    | none => .other

/-- What is found at a path, if anything can be. -/
def readContent (path : String) : IO (Option (String × Content)) := do
  match Text.toCharacters? path with
  | none => return none
  | some place =>
    try
      let bytes ← IO.FS.readBinFile place
      return some (Path.normal path, Content.ofBytes bytes)
    catch
      | .inappropriateType _ 21 _ => return some (Path.normal path, .directory)
      | _ => return none

/-- A variable of the environment with its name, if it is set. -/
def readVariable (name : String) : IO (Option (String × String)) := do
  return (← IO.getEnv name).map fun value => (name, Text.ofCharacters value)

/-- A path and the directories above it. -/
def pathAndAbove (path : String) : List String :=
  let parts := Path.parts path
  (List.range (parts.length + 1)).map fun count => Path.join (Path.root path) (parts.take count)

/-- The paths that options name, with the directories above them. -/
def Options.paths (options : Options) : List String :=
  ([options.embeddings, options.ids, options.hashes].filterMap id).flatMap pathAndAbove

/-- What is written when a report fails. -/
def Fault.report : Fault → String
  | .settings problems =>
    String.intercalate "\n" (problems.map fun problem =>
      String.intercalate ": " (problem.field.toList ++ [problem.complaint.message]))
  | fault => fault.message?.getD "The report could not be made"

/-- The characters by which a text is shown. -/
def shown (text : String) : String := (Text.toCharacters? text).getD text

end Lookalike

open Lookalike in
/-- Prints the report that the arguments ask for. -/
def main (arguments : List String) : IO UInt32 := do
  let arguments := arguments.map Text.ofCharacters
  let paths := ((Options.parse? arguments).map Options.paths).getD []
  let entries ← paths.filterMapM readContent
  let environment ← (Settings.overridable.map (·.1)).filterMapM readVariable
  match Report.run (entries.lookup ·) (environment.lookup ·) arguments with
  | .error fault =>
    IO.eprintln (shown fault.report)
    return 1
  | .ok output =>
    IO.print (shown output.printed)
    match output.ending with
    | .regular => return 0
    | .usage =>
      IO.eprintln ("usage: --embeddings FILE --ids FILE --reference ITEM [--hashes FILE] " ++
        "[--faiss_factory LAYOUT] [--show COUNT]")
      return 2
    | .refusal message =>
      IO.eprintln (shown message)
      return 1
