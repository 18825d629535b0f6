import Courseware.Course.PlanData
import Courseware.Course.Validation
import Courseware.Files.Path
import Courseware.Problem

/-!
# Settings

The settings of a project say where its files lie, how it is built, and which courses are planned. Every
setting has a default. They are written in a language for data, of which no more is known here than how its
texts are read.
-/

namespace Courseware

/-- Where the files of a project lie, relative to its root. -/
structure Folders where
  content : String
  generated : String
  scripts : String
  website : String
deriving DecidableEq, Repr

/-- The settings of a project. -/
structure Settings where
  folders : Folders
  threads : Option Nat
  withSlides : Bool
  publishes : Bool
  plans : List Plan
deriving DecidableEq, Repr

namespace Folders

/-- The folders of a project whose settings name none. -/
def standard : Folders := ⟨"content", "generated", "scripts", "website"⟩

/-- Read the folders. -/
def ofJson? (json : Json) : Option Folders := do
  let source ← FieldSource.ofJson? false 4 json
  let content ← source.withDefault? "content" 0 Json.string? standard.content
  let generated ← source.withDefault? "generated" 1 Json.string? standard.generated
  let scripts ← source.withDefault? "scripts" 2 Json.string? standard.scripts
  let website ← source.withDefault? "website" 3 Json.string? standard.website
  some ⟨content, generated, scripts, website⟩

/-- The folders of a project with a root. -/
def below (folders : Folders) (root : String) : Folders :=
  ⟨Path.join root folders.content, Path.join root folders.generated,
    Path.join root folders.scripts, Path.join root folders.website⟩

end Folders

namespace Settings

/-- Where the settings of a project may lie, in the order in which they are looked for. -/
def candidates : List String := ["coursec.toml", ".coursec.toml", ".config/coursec.toml"]

/-- The settings for building: the threads, whether slides are compiled, and whether sources are
published. -/
def buildOfJson? (json : Json) : Option (Option Nat × Bool × Bool) := do
  let source ← FieldSource.ofJson? false 3 json
  let threads ← source.withDefault? "threads" 0 (Json.nullable? Json.nat?) none
  let slides ← source.withDefault? "slides" 1 Json.bool? true
  let publishes ← source.withDefault? "publish_website" 2 Json.bool? true
  some (threads, slides, publishes)

/-- Read settings. -/
def ofJson? (json : Json) : Option Settings := do
  let source ← FieldSource.ofJson? false 3 json
  let folders ← source.withDefault? "paths" 0 Folders.ofJson? .standard
  let (threads, slides, publishes) ←
    source.withDefault? "build" 1 buildOfJson? (none, true, true)
  let plans ← source.withDefault? "courses" 2 (Json.list? (Plan.ofJson? false)) []
  some ⟨folders, threads, slides, publishes, plans⟩

/-- Read the text of a settings file, whose data is read by `data?`. -/
def ofText (data? : Text → Option Json) (text : Text) : Except Problem Settings :=
  match (data? text).bind ofJson? with
  | some settings => .ok settings
  | none => .error .malformedSettings

/-- Check the settings: at least one thread if any are named, and valid plans. -/
def validate (settings : Settings) : Except Problem Unit :=
  if settings.threads = some 0 then .error .noThreads
  else (Plan.validate settings.plans).mapError .invalidPlan

end Settings
end Courseware
