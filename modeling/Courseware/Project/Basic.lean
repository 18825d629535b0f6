import Courseware.Files.Access
import Courseware.Settings

/-!
# Projects

A project is a folder with a settings file. The settings file that counts is the first of the candidates
that is there.
-/

namespace Courseware

/-- The folder of a project, and its settings. -/
structure Project where
  root : String
  settings : Settings
deriving DecidableEq, Repr

namespace Project

/-- Where the files of a project lie. -/
def folders (project : Project) : Folders := project.settings.folders.below project.root

variable {m : Type → Type} [Monad m] [FileAccess m]

/-- The settings file of the project in a folder. -/
def settingsFile? (root : String) : m (Option String) :=
  (Settings.candidates.map (Path.join root)).findM? FileAccess.isFile

/-- Read the text of a file. -/
def readText (path : String) : m (Option Text) := do
  match ← FileAccess.read path with
  | .ok bytes => return Text.ofBytes? bytes
  | .error _ => return none

/-- The project in a folder, if there is a settings file. The data of the file is read by `data?`. -/
def find? (data? : Text → Option Json) (root : String) : m (Except Problem (Option Project)) := do
  match ← settingsFile? root with
  | none => return .ok none
  | some path =>
    match ← readText path with
    | none => return .error .unreadable
    | some text => return (Settings.ofText data? text).map fun settings => some ⟨root, settings⟩

/-- The project in a folder, where a settings file is expected. -/
def load (data? : Text → Option Json) (root : String) : m (Except Problem Project) := do
  match ← find? data? root with
  | .error problem => return .error problem
  | .ok none => return .error (.missingSettings root)
  | .ok (some project) => return .ok project

end Project
end Courseware
