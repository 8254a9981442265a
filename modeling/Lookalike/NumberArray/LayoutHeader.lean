import Lookalike.NumberArray.Layout

/-!
# Headers of saved arrays

The file of an array tells in a header what the elements are made up of and what the shape is. The
header is filled up, so that the elements begin at a multiple of the alignment. A file with a header
that is too long is not read back, which bounds the number of fields of a record.

## Main definitions

* `ElementKind.code`, the name of a kind in a header
* `ElementLayout.description`, `ElementLayout.header`
* `ElementLayout.isRestored`, whether an array of some layout and shape is read back from its file
-/

namespace Lookalike

/-- The name of a kind in a header, without the mark of its byte order. -/
def ElementKind.code : ElementKind → String
  | number format => "f" ++ Number.digitText (number format).width
  | complex format => "c" ++ Number.digitText (complex format).width
  | integer signed bits => (if signed then "i" else "u") ++ Number.digitText (bits / 8)
  | time unit => "M8" ++ unit.toText
  | truth => "b1"
  | text letterWidth length =>
    (if letterWidth = 1 then "S" else "U") ++ Number.digitText (length.getD 0)
  | bytes count => "V" ++ Number.digitText (count.getD 0)
  | object => "O"
  | apart => "T16"

/-- The name of a kind in quotes. Each mark of a byte order is one character, so that the usual one
stands for all. -/
def ElementKind.quotedCode (kind : ElementKind) : String := "'<" ++ kind.code ++ "'"

/-- How parts of a kind in some layers of dimensions are told in a header. -/
def ElementKind.layered (kind : ElementKind) : List (List Nat) → String
  | [] => kind.quotedCode
  | layer :: inner => "(" ++ kind.layered inner ++ ", " ++ shapeText layer ++ ")"

namespace ElementLayout

/-- How a field of a record is told in a header: by a name with its place, by what its blocks are,
and by the dimensions in which these are arranged if there are some. -/
def fieldDescription (block : ElementBlock) (place : Nat) : String :=
  "('f" ++ Number.digitText place ++ "', " ++
    (match block.layers with
    | [] => block.kind.quotedCode
    | outer :: inner => block.kind.layered inner ++ ", " ++ shapeText outer) ++ ")"

/-- How a layout is told in a header. The parts of a block count as elements of the array. -/
def description : ElementLayout → String
  | .block parts => parts.kind.quotedCode
  | .record fields => "[" ++ String.intercalate ", " (fields.zipIdx.map fun (field, place) =>
      fieldDescription field place) ++ "]"

/-- How many characters there are for the length of the first dimension, which may grow. -/
def growthWidth : Nat := 21

/-- The header of an array of a layout and a shape, before it is filled up. -/
def header (layout : ElementLayout) (shape : List Nat) : String :=
  let growth := (shape.take 1).map fun n => growthWidth - (Number.digitText n).length
  "\x7b'descr': " ++ layout.description ++ ", 'fortran_order': False, 'shape': " ++
    shapeText shape ++ ", \x7d" ++ String.ofList (List.replicate (growth.foldl (· + ·) 0) ' ')

/-- The multiple at which the elements begin. -/
def alignment : Nat := 64

/-- How many bytes stand in front of a header. -/
def leadLength : Nat := 10

/-- How long a header is when it is filled up and ended. Something is always filled in. -/
def headerLength (layout : ElementLayout) (shape : List Nat) : Nat :=
  let ended := leadLength + (layout.header shape).length + 1
  alignment * (ended / alignment + 1) - leadLength

/-- How long a header may be for the file to be read back. -/
def headerLimit : Nat := 10000

/-- Whether an array of a layout and a shape is read back from its file. -/
def isRestored (layout : ElementLayout) (shape : List Nat) : Bool :=
  layout.kinds.all ElementKind.isRestored && layout.headerLength shape ≤ headerLimit

end ElementLayout

end Lookalike
