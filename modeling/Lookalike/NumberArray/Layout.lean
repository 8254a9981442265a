import Lookalike.NumberArray.Element

/-!
# Layouts of elements

An element may itself be a block of equal parts, arranged in dimensions, or a record of such blocks.
An array whose elements are made blocks gets the dimensions of the block behind its own, and each
element is repeated. A block that takes no bytes leaves the elements as they are and has their bytes
read. An array of records can be read as numbers if the records have one field; of a block in it the
first part is read.

## Main definitions

* `ElementBlock`, `ElementBlock.width`, `ElementLayout`
* `BlockLengths`, `ElementBlock.repeated`, a block of blocks
* `ElementLayout.ofBlock`, the layout of elements that are blocks
* `ElementLayout.numbers`, the numbers of an array that is brought to a layout
-/

namespace Lookalike

/-- Parts of one kind arranged in dimensions. A single part has none. -/
structure ElementBlock where
  /-- The lengths of the dimensions, those of a block of blocks apart from those of its blocks. -/
  layers : List (List Nat)
  kind : ElementKind
  /-- How many bytes are set aside for a block without parts. -/
  spare : Nat := 0
deriving DecidableEq, Repr

/-- What an element is made up of. -/
inductive ElementLayout where
  | block (parts : ElementBlock)
  | record (fields : List ElementBlock)
deriving DecidableEq, Repr

/-- The lengths in front of a name: a single one, or one for each dimension. -/
inductive BlockLengths where
  | single (length : Nat)
  | each (shape : List Nat)
deriving DecidableEq, Repr

/-- The shape that lengths tell. -/
def BlockLengths.shape : BlockLengths → List Nat
  | .single length => [length]
  | .each shape => shape

namespace ElementBlock

/-- A single part. -/
def single (kind : ElementKind) : ElementBlock := { layers := [], kind }

/-- The lengths of all dimensions. -/
def shape (block : ElementBlock) : List Nat := block.layers.flatten

/-- How many parts there are. -/
def size (block : ElementBlock) : Nat := block.shape.foldl (· * ·) 1

/-- How many bytes a block takes. -/
def width (block : ElementBlock) : Nat := block.size * block.kind.width + block.spare

/-- A block that takes no bytes, with a size. It becomes that of a part that has none of its own, or
is set aside. -/
def sized (count : Nat) (block : ElementBlock) : ElementBlock :=
  if block.shape.isEmpty then { block with kind := block.kind.sized count }
  else { block with spare := count }

/-- A block of blocks. Where a block takes no bytes, a single length is its size. The size of a
block in bytes is bounded, and so is the product of the lengths in front of the first zero. -/
def repeated (block : ElementBlock) (lengths : BlockLengths) : Except Fault ElementBlock :=
  let limit := ElementKind.greatestSize
  if block.width = 0 then
    match lengths with
    | .single length =>
      let whole := block.sized length
      if limit < length || limit < whole.width then .error .unreadable else .ok whole
    | .each _ => .error .unreadable
  else
    let outer := if lengths.shape.isEmpty then [] else [lengths.shape]
    let whole : ElementBlock := { block with layers := outer ++ block.layers }
    let leading := lengths.shape.takeWhile (· ≠ 0)
    let isOversized := NumberArray.dimensionLimit < lengths.shape.length ||
      lengths.shape.any (limit < ·) || NumberArray.sizeLimit ≤ leading.foldl (· * ·) 1 ||
      limit < whole.width
    if isOversized then .error .unreadable else .ok whole

end ElementBlock

namespace ElementLayout

/-- The layout of elements that are blocks. Of a block that takes no bytes only the bytes of the
elements remain. -/
def ofBlock (parts : ElementBlock) : ElementLayout :=
  .block (if parts.shape ≠ [] ∧ parts.width = 0 then .single (.bytes none) else parts)

/-- The kinds of the parts of an element. -/
def kinds : ElementLayout → List ElementKind
  | .block parts => [parts.kind]
  | .record fields => fields.map (·.kind)

/-- The numbers of an array with elements of a kind that is brought to a layout. Elements are made
blocks only if the array becomes a matrix. -/
def numbers (source : ElementKind) (array : NumberArray .exact) :
    ElementLayout → Except Fault (NumberArray .exact)
  | .block parts => do
    let shape := array.shape ++ parts.shape
    let values ←
      if parts.size = 0 then pure [] else array.values.mapM fun x => source.convert x parts.kind
    if shape.length ≠ 2 then throw (.notMatrix shape)
    pure ⟨shape, values.flatMap fun x => List.replicate parts.size x⟩
  | .record [field] => do
    if field.size = 0 then pure ⟨array.shape, array.values.map fun _ => 0⟩
    else pure ⟨array.shape, ← array.values.mapM fun x => source.convert x field.kind⟩
  | .record _ => .error .wrongKind

/-- Whether the dimensions of an array leave room for those of its elements. -/
def fits (array : NumberArray .exact) : ElementLayout → Bool
  | .block parts => array.shape.length + parts.shape.length ≤ NumberArray.dimensionLimit
  | .record _ => true

end ElementLayout

end Lookalike
