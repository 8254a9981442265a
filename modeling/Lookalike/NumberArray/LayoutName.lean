import Lookalike.NumberArray.ElementName
import Lookalike.NumberArray.Layout
import Lookalike.Text.Surrogate

/-!
# Names of layouts

A layout is named by the name of a kind, or by a list of entries separated by commas, each of them a
name with lengths in front of it. Lengths are a number, or numbers in a row, in parentheses or not.
The list is a record, unless it is a single entry without a comma. Marks of the byte order may stand
in front of the lengths and of the name and have to agree.

## Main definitions

* `BlockLengths.ofText?`, the lengths that a text tells
* `ElementBlock.ofName`, the block that a name stands for
* `ElementLayout.entries`, the entries of a list
* `ElementLayout.ofName`, the layout that a name stands for
-/

namespace Lookalike

namespace BlockLengths

/-- A length: digits, of which the first is zero only if all are. -/
def length? (text : List Char) : Option Nat :=
  let digits := Text.trim (· == ' ') text
  let isLed := digits.head? == some '0' && digits.any (· != '0')
  if digits.isEmpty || isLed || Text.digitLimit < digits.length then none
  else if digits.all fun c => (Text.plainDigit? c).isSome then
    some (Text.digitsValue Text.plainDigit? digits)
  else none

/-- The parts of a text between commas. -/
def parts : List Char → List (List Char)
  | [] => [[]]
  | ',' :: rest => [] :: parts rest
  | c :: rest =>
    match parts rest with
    | [] => [[c]]
    | first :: others => (c :: first) :: others

/-- Lengths without parentheses. A comma may follow the last one and makes a single length a row. -/
def ofParts? (text : List Char) : Option BlockLengths :=
  let isBlank := fun (part : List Char) => part.all (· == ' ')
  match parts text with
  | [only] => (length? only).map single
  | several =>
    let kept := if (several.getLast?).any isBlank then several.dropLast else several
    (kept.mapM length?).map each

/-- The lengths that a text tells. -/
def ofText? (text : List Char) : Option BlockLengths :=
  match Text.trim (· == ' ') text with
  | '(' :: rest =>
    if rest.getLast? == some ')' then
      let inner := rest.dropLast
      if inner.all (· == ' ') then some (each []) else ofParts? inner
    else none
  | bare => ofParts? bare

end BlockLengths

namespace ElementBlock

/-- The block that a name stands for, in front of which, or behind its mark, a length may stand. -/
def ofName (name : List Char) : Except Fault ElementBlock := do
  let isDigit := fun c => (Text.plainDigit? c).isSome
  let (mark, rest) := ElementKind.splitMark name
  let digits := rest.takeWhile isDigit
  if digits.isEmpty then pure (single (← ElementKind.ofName name))
  else
    match BlockLengths.length? digits with
    | none => throw .malformedLengths
    | some length =>
      let kind ← ElementKind.ofName (mark.toList ++ rest.dropWhile isDigit)
      repeated (single kind) (.single length)

end ElementBlock

namespace ElementLayout

/-- A name in a list, the lengths in front of it, and whether a comma follows. -/
structure Entry where
  lengths : Option BlockLengths
  name : List Char
  isFollowed : Bool

/-- The parts of an entry as they are written, which are a mark, lengths, another mark and a name,
and the rest of the list. -/
structure WrittenEntry where
  first : Option Char
  lengths : List Char
  second : Option Char
  name : List Char
  rest : List Char

/-- A part of a text in brackets, if the text begins with one, and the rest of the text. There is
something in the brackets. -/
def bracketed (text : List Char) : List Char × List Char :=
  let isInner := fun (c : Char) => c.isAlphanum || c == ',' || c == '.'
  match text with
  | '[' :: rest =>
    match rest.takeWhile isInner, rest.dropWhile isInner with
    | c :: inner, ']' :: behind => ('[' :: c :: inner ++ [']'], behind)
    | _, _ => ([], text)
  | _ => ([], text)

/-- Reads the lengths with which a text begins, with parentheses and blanks around them. -/
def splitLengths (text : List Char) : List Char × List Char :=
  let take := fun (isPart : Char → Bool) (limit : Nat) (read : List Char × List Char) =>
    let part := (read.2.takeWhile isPart).take limit
    (read.1 ++ part, read.2.drop part.length)
  let isBlank := fun (c : Char) => c == ' '
  let isLength := fun (c : Char) => c == ' ' || c == ',' || (Text.plainDigit? c).isSome
  let opened := take (· == '(') 1 (take isBlank text.length ([], text))
  take isBlank text.length (take (· == ')') 1 (take isLength text.length opened))

/-- Cuts the first entry off a list. -/
def cut (text : List Char) : WrittenEntry :=
  let (first, text) := ElementKind.splitMark text
  let (lengths, text) := splitLengths text
  let (second, text) := ElementKind.splitMark text
  let isInner := fun (c : Char) => c.isAlphanum || c == '.' || c == '?'
  let (brackets, rest) := bracketed (text.dropWhile isInner)
  { first, lengths, second, name := text.takeWhile isInner ++ brackets, rest }

/-- The rest of a list behind a comma with blanks around it, and whether there is a comma. There may
also be nothing but blanks. -/
def behindComma (text : List Char) : Except Fault (Bool × List Char) :=
  match text.dropWhile Text.isBlankOrSeparator with
  | [] => .ok (false, [])
  | ',' :: rest => .ok (true, rest.dropWhile Text.isBlankOrSeparator)
  | _ => .error .unreadable

/-- The mark that the two marks of an entry agree on. The usual order and the order of the machine
are the same. -/
def agreedMark : Option Char → Option Char → Except Fault (Option Char)
  | mark, none | none, mark => .ok mark
  | some first, some second =>
    let usual := fun (c : Char) => if c == '=' then '<' else c
    if usual first == usual second then .ok (some first) else .error .unreadable

/-- The entry that is written in some way. -/
def WrittenEntry.toEntry (written : WrittenEntry) (isFollowed : Bool) : Except Fault Entry := do
  let mark ← agreedMark written.first written.second
  let name := (mark.filter (· == '>')).toList ++ written.name
  if written.lengths.isEmpty then pure ⟨none, name, isFollowed⟩
  else
    match BlockLengths.ofText? written.lengths with
    | some lengths => pure ⟨some lengths, name, isFollowed⟩
    | none => throw .malformedLengths

/-- The entries of a list. An entry that another one follows ends with a comma, so that there are no
more entries than characters. -/
def entries : (fuel : Nat) → List Char → Except Fault (List Entry)
  | 0, _ | _, [] => .ok []
  | fuel + 1, text => do
    let written := cut text
    let (isFollowed, rest) ← behindComma written.rest
    let entry ← written.toEntry isFollowed
    pure (entry :: (← entries fuel rest))

/-- Whether a comma stands in a text outside of brackets. -/
def hasComma (depth : Int) : List Char → Bool
  | [] => false
  | c :: rest =>
    c == ',' && depth == 0 ||
      hasComma (if c == '[' then depth + 1 else if c == ']' then depth - 1 else depth) rest

/-- Whether a name is read as a list: it begins with a length or has a comma. -/
def isList (name : List Char) : Bool :=
  let isLed := fun (text : List Char) => ((text.head?).bind Text.plainDigit?).isSome
  let isEmptyRow := fun (text : List Char) => ['(', ')'].isPrefixOf text
  let rest := (ElementKind.splitMark name).2
  isLed rest || isEmptyRow name || isEmptyRow rest && 3 < name.length || hasComma 0 name

/-- The block of an entry. -/
def Entry.toBlock (entry : Entry) : Except Fault ElementBlock := do
  let block ← ElementBlock.ofName entry.name
  match entry.lengths with
  | none => pure block
  | some lengths => block.repeated lengths

/-- The field of a record that an entry stands for. -/
def Entry.toField (entry : Entry) : Except Fault ElementBlock := do
  let block ← entry.toBlock
  pure { block with kind := block.kind.fixed }

/-- The layout that the entries of a list stand for. An empty entry at the end is none. -/
def ofEntries (entries : List Entry) : Except Fault ElementLayout := do
  match entries with
  | [⟨lengths, name, false⟩] => pure (ofBlock (← Entry.toBlock ⟨lengths, name, false⟩))
  | entries =>
    let isEmpty := fun (entry : Entry) => entry.lengths.isNone && entry.name.isEmpty
    let kept := if (entries.getLast?).any isEmpty then entries.dropLast else entries
    if kept.isEmpty then throw .unreadable
    pure (.record (← kept.mapM Entry.toField))

/-- The layout that a name stands for. -/
def ofName (name : String) : Except Fault ElementLayout := do
  match (Text.toCharacters? name).map (·.toList) with
  | none => throw .unwritable
  | some characters =>
    if isList characters then ofEntries (← entries characters.length characters)
    else pure (ofBlock (.single (← ElementKind.ofName characters)))

end ElementLayout

end Lookalike
