import Lookalike.Files.Content

/-!
# Folders

A folder is a tree of directories and files that is given as a whole. Its places are the parts of
paths from the root on, without parts that go up. A path is followed from part to part, and each
part is looked up in a directory.

## Main definitions

* `Folder`, `Folder.isDirectory`
* `Folder.placeOf`, the place to which a path leads
* `Folder.toFiles`, a folder as files
* `Folder.write`, a folder with a further file
-/

namespace Lookalike

/-- A tree of directories and files, by their places. -/
structure Folder where
  files : List (List String × Content)
  /-- Directories besides those that files lie in. -/
  directories : List (List String)
  /-- Where the paths start that do not start at the root. -/
  current : List String

namespace Folder

/-- Whether there is a directory at a place. -/
def isDirectory (folder : Folder) (place : List String) : Bool :=
  (folder.directories ++ folder.files.map fun entry => entry.1.dropLast).any fun lower =>
    place.isPrefixOf lower

/-- The place to which some parts lead from another, or why one of them cannot be looked up. That is
done in a directory, and nothing lies above the root. -/
def follow (folder : Folder) (place : List String) : List String → Except StorageKind (List String)
  | [] => .ok place
  | part :: rest =>
    if folder.isDirectory place then
      follow folder (if part == Path.upward then place.dropLast else place ++ [part]) rest
    else .error (if (folder.files.lookup place).isSome then .notDirectory else .notFound)

/-- The place to which a path leads. -/
def placeOf (folder : Folder) (path : String) : Except StorageKind (List String) :=
  folder.follow (if Path.root path == "" then folder.current else []) (Path.parts path)

/-- What is found in a folder at each path. -/
def toFiles (folder : Folder) : Files := fun path => do
  let place ← (folder.placeOf path).toOption
  if folder.isDirectory place then some .directory else folder.files.lookup place

/-- Puts a file at a path, in place of the one that is there. A path that ends with a slash is that
of a directory. -/
def write (folder : Folder) (path : String) (content : Content) : Except Fault Folder := do
  let points := Text.points path.toList
  if points.any fun point => point ≠ 0 && (Path.pointBytes? point).isNone then throw .unwritable
  if points.contains 0 then throw .unreadable
  if folder.toFiles.isTooLong path then throw (Files.fault .general path)
  match folder.placeOf path with
  | .error kind => throw (Files.fault kind path)
  | .ok place =>
    let isNamedDirectory := ((path.splitOn "/").getLast?).any ["", "."].contains
    if isNamedDirectory || folder.isDirectory place then throw (Files.fault .directory path)
    pure { folder with files := (place, content) :: folder.files }

end Folder

end Lookalike
