import Courseware.Files.Access
import Courseware.Files.Path

/-!
# File trees

A tree of folders and files in memory. Places in it are lists of names from the top down. A path is
followed step by step, and every step but the last has to end in a folder; writing creates the folders
that are missing on the way, and a tree is left as it is by a write that fails.
-/

namespace Courseware

/-- A file with its bytes, or a folder with what it holds by name. -/
inductive FileTree
  | file (bytes : ByteArray)
  | folder (entries : List (String × FileTree))

namespace FileTree

/-- The tree without any files. -/
def empty : FileTree := folder []

/-- What stands at a place. -/
def at? (tree : FileTree) : List String → Option FileTree
  | [] => some tree
  | name :: names =>
    match tree with
    | file _ => none
    | folder entries =>
      match entries.lookup name with
      | some entry => entry.at? names
      | none => none

/-- Put what a name stands for into entries, or take the name out. -/
def setEntry (name : String) (entry : Option FileTree) :
    List (String × FileTree) → List (String × FileTree)
  | [] => entry.toList.map fun tree => (name, tree)
  | (other, tree) :: rest =>
    if other = name then (entry.toList.map fun tree => (name, tree)) ++ rest
    else (other, tree) :: setEntry name entry rest

/-- Put something at a place, or take away what is there. Nothing changes if the place is not in a
folder. -/
def set (entry : Option FileTree) : List String → FileTree → FileTree
  | [], tree => entry.getD tree
  | [name], folder entries => folder (setEntry name entry entries)
  | name :: names, folder entries =>
    match entries.lookup name with
    | some tree => folder (setEntry name (some (set entry names tree)) entries)
    | none => folder entries
  | _ :: _, file bytes => file bytes

mutual

/-- The places of all files. -/
def files : FileTree → List (List String)
  | file _ => [[]]
  | folder entries => filesOf entries

/-- The places of all files among entries. -/
def filesOf : List (String × FileTree) → List (List String)
  | [] => []
  | (name, tree) :: rest => (files tree).map (fun place => name :: place) ++ filesOf rest

end

/-! ## Following paths -/

/-- Whether something can have a name: a name has at most 255 bytes, none of which is zero. -/
def isName (name : String) : Bool := decide (name.utf8ByteSize ≤ 255) && !name.toList.contains '\x00'

/-- The place where a step from a folder leads. -/
def placeAfter (place : List String) : Path.Step → List String
  | .stay => place
  | .up => place.dropLast
  | .enter name => place ++ [name]

/-- Whether a step can be taken from any folder at all. -/
def isPossible : Path.Step → Bool
  | .enter name => isName name
  | _ => true

/-- Take a step from a place, which has to be a folder. -/
def follow (tree : FileTree) (place : List String) (step : Path.Step) :
    Except ReadFailure (List String) :=
  match tree.at? place with
  | some (folder _) => if isPossible step then .ok (placeAfter place step) else .error .unusable
  | some (file _) => .error .unusable
  | none => .error .missing

/-- Take a step from a place, making it a folder if nothing is there. -/
def followCreating (state : FileTree × List String) (step : Path.Step) :
    Option (FileTree × List String) :=
  let (tree, place) := state
  match tree.at? place with
  | some (folder _) => if isPossible step then some (tree, placeAfter place step) else none
  | some (file _) => none
  | none =>
    if isPossible step then some (tree.set (some empty) place, placeAfter place step) else none

/-- The place from which a path is followed: the top, if the path is absolute. -/
def startOf (place : List String) (path : String) : List String :=
  if Path.isAbsolute path then [] else place

/-- The bytes of the file at a path, followed from a place. -/
def read (tree : FileTree) (place : List String) (path : String) :
    Except ReadFailure ByteArray := do
  match tree.at? (← (Path.steps path).foldlM tree.follow (startOf place path)) with
  | some (file bytes) => .ok bytes
  | some (folder _) => .error .unusable
  | none => .error .missing

/-- Whether there is a file at a path. -/
def isFile (tree : FileTree) (place : List String) (path : String) : Bool :=
  (tree.read place path).isOk

/-- Write the file at a path. -/
def write? (tree : FileTree) (place : List String) (path : String) (bytes : ByteArray) :
    Option FileTree := do
  let (grown, target) ← (Path.steps path).foldlM followCreating (tree, startOf place path)
  match grown.at? target with
  | some (folder _) => none
  | _ => some (grown.set (some (file bytes)) target)

/-- Create the folder at a path, and those above it. -/
def createFolder? (tree : FileTree) (place : List String) (path : String) : Option FileTree := do
  let (grown, target) ← (Path.steps path).foldlM followCreating (tree, startOf place path)
  match grown.at? target with
  | some (folder _) => some grown
  | some (file _) => none
  | none => some (grown.set (some empty) target)

/-- Take away what is at a path, with everything below it. -/
def remove? (tree : FileTree) (place : List String) (path : String) : Option FileTree :=
  match (Path.steps path).foldlM tree.follow (startOf place path) with
  | .ok target => (tree.at? target).map fun _ => tree.set none target
  | .error _ => none

end FileTree

/-- A file tree, and the place in it from which paths are followed. -/
structure Workspace where
  tree : FileTree
  place : List String

instance : FileAccess (StateM Workspace) where
  read path := do
    let workspace ← get
    return workspace.tree.read workspace.place path
  isFile path := do
    let workspace ← get
    return workspace.tree.isFile workspace.place path
  write path bytes := do
    let workspace ← get
    match workspace.tree.write? workspace.place path bytes with
    | some tree =>
      set { workspace with tree := tree }
      return true
    | none => return false

end Courseware
