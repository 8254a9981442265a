import Lookalike.Text.Numeral

/-!
# Command line options

The report is asked for with options that each take a value, either as the next argument or after
an equals sign. An option may be cut short as long as no other begins with the same letters. Of
repeated options the last counts. Two hyphens after the equals sign leave an option without a value.

An argument that begins with a hyphen is not taken for a value unless it is a hyphen alone, or names
no option and is a negative number or contains a space. An option of one letter takes what follows
in the same argument as its value.

## Main definitions

* `Options`, `Options.Name`
* `Options.Token`, `Options.classify`, what an argument is
* `Options.parse?`, the options that arguments ask for
-/

namespace Lookalike

/-- What a report is made from and how much of it is shown. An option that was left without a value
has none. -/
structure Options where
  embeddings : Option String
  ids : Option String
  reference : Option String
  hashes : Option String := none
  layout : Option String := none
  count : Option Int := some 30
deriving DecidableEq, Repr

namespace Options

/-- The options. -/
inductive Name where
  | help
  | embeddings
  | ids
  | hashes
  | reference
  | layout
  | count
deriving DecidableEq, Repr

/-- The spellings of the options. -/
def spellings : List (String × Name) := [
  ("-h", .help), ("--help", .help), ("--embeddings", .embeddings), ("--ids", .ids),
  ("--hashes", .hashes), ("--reference", .reference), ("--faiss_factory", .layout),
  ("--show", .count)]

/-- What an argument is. -/
inductive Token where
  | value (text : String)
  | option (name : Name) (attached : Option String)
  | invalid
deriving DecidableEq, Repr

/-- A text without one line feed at its end. -/
def withoutLineFeed (text : List Char) : List Char :=
  if text.getLast? == some '\n' then text.dropLast else text

/-- A negative integer, or a negative decimal with digits after its point. One line feed may follow
it. -/
def isNegativeNumber (text : List Char) : Bool :=
  match withoutLineFeed text with
  | '-' :: rest =>
    let isDigit := fun c => (Text.digit? c).isSome
    match rest.dropWhile isDigit with
    | [] => !rest.isEmpty
    | '.' :: fraction => !fraction.isEmpty && fraction.all isDigit
    | _ => false
  | _ => false

/-- The part of an argument in front of its first equals sign, and the part behind it. -/
def splitAttached (text : List Char) : List Char × Option String :=
  match text.dropWhile (· != '=') with
  | [] => (text, none)
  | _ :: attached => (text.takeWhile (· != '='), some (String.ofList attached))

/-- The options whose spelling begins with a text, each with the attached value. -/
def begunWith (spelled : List Char) (attached : Option String) : List (Name × Option String) :=
  (spellings.filter fun entry => spelled.isPrefixOf entry.1.toList).map fun entry =>
    (entry.2, attached)

/-- The options of one letter with which an argument begins, each with the rest as its value. -/
def letterWith (text : List Char) : List (Name × Option String) :=
  (spellings.filter fun entry => entry.1.toList == text.take 2).map fun entry =>
    (entry.2, some (String.ofList (text.drop 2)))

/-- What an argument is. -/
def classify (argument : String) : Token :=
  let text := argument.toList
  if text.head? != some '-' || argument == "-" then .value argument
  else
    match spellings.lookup argument with
    | some name => .option name none
    | none =>
      let (spelled, attached) := splitAttached text
      match if attached.isSome then spellings.lookup (String.ofList spelled) else none with
      | some name => .option name attached
      | none =>
        match if text.take 2 == ['-', '-'] then begunWith spelled attached else letterWith text with
        | [(name, attached)] => .option name attached
        | [] =>
          if isNegativeNumber text || text.contains ' ' then .value argument else .invalid
        | _ => .invalid

/-- The options given so far, with their values; the required ones may still be missing. -/
structure Given where
  embeddings : Option (Option String) := none
  ids : Option (Option String) := none
  reference : Option (Option String) := none
  hashes : Option String := none
  layout : Option String := none
  count : Option Int := some 30

/-- Records the value of an option. A count has to be an integer. -/
def Given.put (given : Given) (name : Name) (value : Option String) : Option Given :=
  match name with
  | .help => none
  | .embeddings => some { given with embeddings := some value }
  | .ids => some { given with ids := some value }
  | .hashes => some { given with hashes := value }
  | .reference => some { given with reference := some value }
  | .layout => some { given with layout := value }
  | .count =>
    match value with
    | none => some { given with count := none }
    | some text => (Text.integer? text.toList).map fun n => { given with count := some n }

/-- The value that an attached text stands for. -/
def attachedValue (text : String) : Option String := if text == "--" then none else some text

/-- Records the options of some arguments. -/
def collect (given : Given) : List Token → Option Given
  | [] => some given
  | .option name (some text) :: rest => do collect (← given.put name (attachedValue text)) rest
  | .option name none :: .value value :: rest => do collect (← given.put name (some value)) rest
  | _ => none

/-- The options that arguments ask for, unless they are malformed or one that is required is
missing. -/
def parse? (arguments : List String) : Option Options := do
  let given ← collect {} (arguments.map classify)
  pure {
    embeddings := ← given.embeddings
    ids := ← given.ids
    reference := ← given.reference
    hashes := given.hashes
    layout := given.layout
    count := given.count }

end Options

end Lookalike
