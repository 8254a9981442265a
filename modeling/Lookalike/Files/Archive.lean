import Lookalike.Fault

/-!
# Archives

An archive keeps several files in one. It ends with a record that tells how long the directory in
front of it is; a comment may follow the record, and a longer record for large archives may stand
between the two. The directory is a row of entries, each with a name, extra fields and a comment.
Numbers are stored with the least significant byte first.

Only the end and the directory are looked at here, which is what opening an archive amounts to.

## Main definitions

* `Archive.isBegun`, whether bytes begin as an archive does
* `Archive.directory`, the bytes of the directory
* `Archive.inspect`, whether an archive can be opened
-/

namespace Lookalike.Archive

/-- A mark of four bytes, told by its last two. -/
def markOf (kind number : UInt8) : List UInt8 := [0x50, 0x4b, kind, number]

/-- The mark of a file in the archive. -/
def fileMark : List UInt8 := markOf 3 4

/-- The mark of an entry of the directory. -/
def entryMark : List UInt8 := markOf 1 2

/-- The mark of the record at the end. -/
def endMark : List UInt8 := markOf 5 6

/-- The mark of what tells that a longer record is there. -/
def locatorMark : List UInt8 := markOf 6 7

/-- The mark of the longer record. -/
def longMark : List UInt8 := markOf 6 6

/-- How many bytes the record at the end has. -/
def endSize : Nat := 22

/-- How many bytes the locator has. -/
def locatorSize : Nat := 20

/-- How many bytes the longer record has. -/
def longSize : Nat := 56

/-- How many bytes an entry has in front of its name. -/
def entrySize : Nat := 46

/-- How many bytes a comment may have. -/
def commentLimit : Nat := 65535

/-- The latest version of the format. -/
def latestVersion : Nat := 63

/-- Whether bytes begin as an archive does, be it empty or not. -/
def isBegun (bytes : List UInt8) : Bool :=
  fileMark.isPrefixOf bytes || endMark.isPrefixOf bytes

/-- The number in some bytes. -/
def numberAt (bytes : List UInt8) (start count : Nat) : Nat :=
  ((bytes.drop start).take count).foldr (fun byte number => byte.toNat + 256 * number) 0

/-- The last place, counted on from `place`, at which bytes have a mark. -/
def lastPlace? (sought : List UInt8) (place : Nat) : List UInt8 → Option Nat
  | [] => none
  | byte :: rest =>
    (lastPlace? sought (place + 1) rest).or
      (if sought.isPrefixOf (byte :: rest) then some place else none)

/-- Where the record at the end starts: in front of no comment, or at the last mark that leaves room
for the longest comment. -/
def endPlace? (bytes : List UInt8) : Option Nat :=
  if bytes.length < endSize then none
  else
    let last := bytes.length - endSize
    let record := bytes.drop last
    -- Without a comment the record is the end of the bytes.
    if endMark.isPrefixOf record && numberAt record 20 2 == 0 then some last
    else
      let first := last - commentLimit
      (lastPlace? endMark first (bytes.drop first)).filter (· ≤ last)

/-- Where the directory ends and how long it is, for an archive with its end record at a place. -/
def extent (bytes : List UInt8) (place : Nat) : Except Fault (Nat × Nat) :=
  let short := (place, numberAt bytes (place + 12) 4)
  if place < locatorSize then .ok short
  else
    let locator := bytes.drop (place - locatorSize)
    if !locatorMark.isPrefixOf locator then .ok short
    -- The archive has to be whole, and not one of several parts.
    else if numberAt locator 4 4 ≠ 0 ∨ 1 < numberAt locator 16 4 then .error .brokenArchive
    else if place < locatorSize + longSize then .error .brokenArchive
    else
      let ending := place - locatorSize - longSize
      let long := bytes.drop ending
      .ok (if longMark.isPrefixOf long then (ending, numberAt long 40 8) else short)

/-- The bytes of the directory. -/
def directory (bytes : List UInt8) : Except Fault (List UInt8) :=
  match endPlace? bytes with
  | none => .error .brokenArchive
  | some place => do
    let (ending, size) ← extent bytes place
    if ending < size then throw .brokenArchive
    pure ((bytes.drop (ending - size)).take size)

/-- Whether extra fields are whole: each tells its size behind its kind. -/
def areWhole : (fuel : Nat) → List UInt8 → Bool
  | 0, _ => true
  | fuel + 1, fields =>
    let size := numberAt fields 2 2 + 4
    fields.length < 4 || size ≤ fields.length && areWhole fuel (fields.drop size)

/-- Whether the name of an entry can be read. It is of any bytes unless it is marked as text. -/
def isReadable (entry name : List UInt8) : Bool :=
  numberAt entry 8 2 / 0x800 % 2 == 0 || (String.fromUTF8? ⟨name.toArray⟩).isSome

/-- Goes through the entries of a directory. -/
def checkEntries : (fuel : Nat) → List UInt8 → Except Fault Unit
  | 0, _ | _, [] => .ok ()
  | fuel + 1, entry =>
    if entry.length < entrySize || !entryMark.isPrefixOf entry then .error .brokenArchive
    else
      let behind := entry.drop entrySize
      let nameSize := numberAt entry 28 2
      let extraSize := numberAt entry 30 2
      let extra := (behind.drop nameSize).take extraSize
      if !isReadable entry (behind.take nameSize) then .error .notText
      else if latestVersion < numberAt entry 6 1 then .error .unsupported
      else if !areWhole extra.length extra then .error .brokenArchive
      else checkEntries fuel (behind.drop (nameSize + extraSize + numberAt entry 32 2))

/-- Looks at what is read when an archive is opened. -/
def inspect (bytes : List UInt8) : Except Fault Unit := do
  let entries ← directory bytes
  checkEntries entries.length entries

end Lookalike.Archive
