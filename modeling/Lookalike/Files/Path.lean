import Lookalike.Text.Surrogate

/-!
# Paths

A path is a row of parts, separated by slashes, from the root or from where the program runs. Empty
parts and parts that stay in place mean nothing, while a part that goes up is kept, since what lies
above depends on what is there.

A part is made of bytes. A text is stored in the usual way, where some surrogates stand for single
bytes that are no text. The file system bounds the bytes of a part and of a path.

## Main definitions

* `Path.parts`, `Path.root`, `Path.join`, `Path.normal`
* `Path.byteCount?`, how many bytes a text takes, if it can be stored in a path
-/

namespace Lookalike.Path

/-- The parts of a path that are neither empty nor stay in place. -/
def parts (path : String) : List String :=
  (path.splitOn "/").filter fun part => part != "" && part != "."

/-- How a path begins: two slashes, and no more, are kept. -/
def root (path : String) : String :=
  match path.toList with
  | '/' :: '/' :: '/' :: _ => "/"
  | '/' :: '/' :: _ => "//"
  | '/' :: _ => "/"
  | _ => ""

/-- The path with a given beginning and parts. -/
def join (root : String) (parts : List String) : String :=
  let path := root ++ String.intercalate "/" parts
  if path == "" then "." else path

/-- A path without empty parts and without parts that stay in place. -/
def normal (path : String) : String := join (root path) (parts path)

/-- The part that goes up. -/
def upward : String := ".."

/-- How many bytes a part may have. -/
def partLimit : Nat := 255

/-- How many bytes a path may have. -/
def limit : Nat := 4095

/-- How many bytes a code point takes in a path. The null character has no place in one, and of the
surrogates only those that stand for a byte have. -/
def pointBytes? (point : Nat) : Option Nat :=
  if point = 0 then none
  else if 0xdc80 ≤ point ∧ point < 0xdd00 then some 1
  else if Text.isSurrogate point then none
  else some (Char.ofNat point).utf8Size

/-- How many bytes a text takes in a path. -/
def byteCount? (text : String) : Option Nat :=
  (Text.points text.toList).foldlM (fun count point => (pointBytes? point).map (count + ·)) 0

end Lookalike.Path
