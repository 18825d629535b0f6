import Courseware.Files.Tree

/-!
# File maps

Files as a map from places to their bytes. There are no folders that could be missing or stand in the way:
whether a place can be read, and whether it can be written, is given for each place. A path leads from place
to place by its steps alone.
-/

namespace Courseware

/-- The place to which a path leads, followed from a place. -/
def Path.placeFrom (place : List String) (path : String) : List String :=
  (steps path).foldl FileTree.placeAfter (FileTree.startOf place path)

/-- The files at places, the places that can be read and those that can be written, and the place from which
paths are followed. -/
structure FileMap where
  bytes? : List String → Option ByteArray
  isReadable : List String → Bool
  isWritable : List String → Bool
  folder : List String

namespace FileMap

/-- The place to which a path leads. -/
def placeOf (files : FileMap) (path : String) : List String := Path.placeFrom files.folder path

/-- The bytes of the file at a path. -/
def read (files : FileMap) (path : String) : Except ReadFailure ByteArray :=
  if files.isReadable (files.placeOf path) then
    match files.bytes? (files.placeOf path) with
    | some bytes => .ok bytes
    | none => .error .missing
  else
    .error .unusable

/-- Whether there is a file at a path. -/
def isFile (files : FileMap) (path : String) : Bool := (files.bytes? (files.placeOf path)).isSome

/-- The files after bytes have been put at a path. -/
def put (files : FileMap) (path : String) (bytes : ByteArray) : FileMap :=
  { files with
    bytes? := fun place => if place = files.placeOf path then some bytes else files.bytes? place }

end FileMap

instance : FileAccess (StateM FileMap) where
  read path := do
    let files ← get
    return files.read path
  isFile path := do
    let files ← get
    return files.isFile path
  write path bytes := do
    let files ← get
    if files.isWritable (files.placeOf path) then
      set (files.put path bytes)
      return true
    else
      return false

end Courseware
