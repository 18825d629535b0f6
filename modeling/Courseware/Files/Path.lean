import Courseware.Text.Basic

/-!
# Paths

A path is text with slashes. Joining never normalises: an absolute path replaces what it is joined to,
and otherwise one slash separates the two unless there is nothing to separate or a slash is there
already. Where a path leads is read off its steps.
-/

namespace Courseware.Path

/-- A path below another. -/
def join (base path : String) : String :=
  if path.startsWith "/" then path
  else if base.isEmpty || base.endsWith "/" then base ++ path
  else base ++ "/" ++ path

/-- Whether a path starts at the top. -/
def isAbsolute (path : String) : Bool := path.startsWith "/"

/-- One part of a path: stay where one is, go up, or go to what has a name. -/
inductive Step
  | stay
  | up
  | enter (name : String)
deriving DecidableEq, Repr

/-- The step that a part of a path stands for. -/
def Step.ofPart (part : Text) : Step :=
  match part with
  | [] | ['.'] => .stay
  | ['.', '.'] => .up
  | name => .enter (String.ofList name)

/-- The steps of a path. -/
def steps (path : String) : List Step := (Text.split '/' path.toList).map Step.ofPart

/-- Drop the parts of a path that lead to the same place as `base`, step by step. Parts that stay where
one is count for nothing. -/
def dropSteps : List Step → List Text → Option (List Text)
  | [], parts => some parts
  | .stay :: base, parts => dropSteps base parts
  | step :: base, parts =>
    match parts.dropWhile fun part => Step.ofPart part = .stay with
    | part :: rest => if Step.ofPart part = step then dropSteps base rest else none
    | [] => none

/-- A path as seen from a folder: what is left of it below the folder, or the whole path if it does not
lie below the folder. -/
def relativeTo (folder path : String) : String :=
  if isAbsolute folder = isAbsolute path then
    match dropSteps (steps folder) (Text.split '/' path.toList) with
    | some parts =>
      let rest := parts.dropWhile fun part => Step.ofPart part = .stay
      String.ofList (Text.join ['/'] rest)
    | none => path
  else
    path

end Courseware.Path
