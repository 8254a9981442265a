import Lookalike.Datum.Reader
import Lookalike.Datum.Text
import Lookalike.Files.Archive
import Lookalike.Files.Path
import Lookalike.NumberArray.LayoutHeader
import Lookalike.NumberArray.LayoutName

/-!
# Files

A file holds an array, a text or something else. An array file may hold elements of which no numbers
can be had; that comes out only when the numbers are asked for, and an archive in the place of an
array is found out then as well.

## Main definitions

* `Content`, what is found at a path
* `Files`, `Files.contentAt`
* `Content.ofText`, `Content.ofArray`, the files that a text or an array is put into
* `Content.toArray`, `Content.toDatum`, the array or the document that a file holds
-/

namespace Lookalike

/-- What is found at a path. -/
inductive Content where
  /-- A text, in which each character stands for itself. -/
  | text (characters : String)
  /-- An array, or why its elements are no numbers. -/
  | array (content : Except Fault (NumberArray .exact))
  | directory
  /-- A file that holds something else. -/
  | other

/-- What is found at each path, if anything is. -/
abbrev Files := String → Option Content

namespace Files

/-- Whether a text has more bytes than a bound, if it can be stored in a path. -/
def isLonger (bound : Nat) (text : String) : Bool := (Path.byteCount? text).any (bound < ·)

/-- Whether the file system refuses a path because it, or a part of it that is looked up in a
directory, is too long. -/
def isTooLong (files : Files) (path : String) : Bool :=
  let isLong := isLonger Path.partLimit
  let above := Path.join (Path.root path) ((Path.parts path).takeWhile fun part => !isLong part)
  let reachesLong :=
    match files above with
    | some .directory => true
    | _ => false
  isLonger Path.limit (Path.normal path) || (Path.parts path).any isLong && reachesLong

/-- What the file system says when it refuses a path. -/
def reason : StorageKind → String
  | .notFound => "[Errno 2] No such file or directory"
  | .notDirectory => "[Errno 20] Not a directory"
  | .directory => "[Errno 21] Is a directory"
  | _ => "[Errno 36] File name too long"

/-- A fault of the file system about a path. -/
def fault (kind : StorageKind) (path : String) : Fault :=
  .storage kind (reason kind ++ ": " ++ Text.quote path)

/-- What is found at a path. There is nothing at what cannot be stored in a path. -/
def contentAt (files : Files) (path : String) : Except Fault (Option Content) :=
  if (Path.byteCount? path).isNone then .ok none
  else if isTooLong files path then .error (fault .general (Path.normal path))
  else .ok (files (Path.normal path))

end Files

namespace Content

/-- The fault of opening a directory as a file. -/
def directoryFault (path : String) : Fault := Files.fault .directory (Path.normal path)

/-- A file with a text. -/
def ofText (text : String) : Except Fault Content :=
  match Text.toCharacters? text with
  | some characters => .ok (.text characters)
  | none => .error .unwritable

/-- A file with an array of elements of a kind, brought to the layout of a name if one is given. A
missing value has to be one of each kind in the layout. -/
def ofArray (source : ElementKind) (array : NumberArray .exact) :
    Option String → Except Fault Content
  | none => .ok (if source.isRestored then .array (.ok array) else other)
  | some name => do
    let layout ← ElementLayout.ofName name
    let refuses := fun (kind : ElementKind) => kind.missing matches .error .wrongKind
    if !layout.fits array then throw .unreadable
    if source = .object && layout.kinds.any refuses then throw .wrongKind
    pure (if layout.isRestored array.shape then .array (layout.numbers source array) else other)

/-- The array that the file at a path holds, or why its numbers cannot be had. An archive is no
array. -/
def toArray (path : String) : Content → Except Fault (Except Fault (NumberArray .exact))
  | array content => .ok content
  | text characters =>
    let bytes := characters.toUTF8.toList
    if bytes.isEmpty then .error .endOfData
    else if Archive.isBegun bytes then (Archive.inspect bytes).map fun _ => .error .notRecord
    else .error .unreadable
  | directory => .error (directoryFault path)
  | other => .error .unreadable

/-- The datum of the document that the file at a path holds. -/
def toDatum (path : String) : Content → Except Fault Datum
  | array _ | other => .error .notText
  | directory => .error (directoryFault path)
  | text characters =>
    match Datum.ofDocument characters with
    | .ok datum => .ok datum
    | .error .malformed => .error .malformed
    | .error .oversizedInteger => .error .unreadable
    | .error .tooDeep => .error .tooDeep

end Content

end Lookalike
