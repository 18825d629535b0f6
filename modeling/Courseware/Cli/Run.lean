import Courseware.Cli.Arguments
import Courseware.Cli.Transcript
import Courseware.Markdown.Gfm
import Courseware.Project.Build
import Courseware.Toml.Document

/-!
# Running commands

Each command loads the project, whose settings have to be valid. `build` builds it; `check` sees in a dry
run whether everything compiles and no file is out of date; `paths` lists what is published where; `sql`
prints the script that registers the courses, which needs no document. Paths are shown as seen from the
root of the project.
-/

namespace Courseware.Cli

/-- The readers of what a program is given in languages that are not its own: documents, settings and
arguments. -/
structure Readers where
  markdown : Markdown.Dialect
  settings : Text → Option Json
  arguments : List String → Except Interruption Request

/-- The readers in use. -/
def Readers.standard : Readers := ⟨.gfm, Toml.parse?, Request.ofArguments⟩

/-- The lines of some output. -/
def lines (parts : List String) : String := String.join (parts.map fun part => part ++ "\n")

/-- What is shown of the failures of a build. -/
def failureNotices (project : Project) (report : BuildReport) : List Notice :=
  ((Compilation.failures report.compilations).map fun (job, problem) =>
    .failedDocument job.id
      (Path.relativeTo project.root (Path.join project.folders.content job.source)) problem) ++
  (EmissionRecord.failures report.records).map fun (target, problem) =>
    .failedTarget (Path.relativeTo project.root target) problem

/-- The exit status of what failed or did not. -/
def statusOf (isOk : Bool) : Nat := if isOk then 0 else 1

/-- The line that sums up a build. -/
def summary (dryRun : Bool) (report : BuildReport) : String :=
  let compiled := (Compilation.compiled report.compilations).length
  let outcome := if dryRun then WriteOutcome.pending else WriteOutcome.written
  let written := (EmissionRecord.targets outcome report.records).length
  let failed := (Compilation.failures report.compilations).length +
    (EmissionRecord.failures report.records).length
  s!"Compiled {compiled} document(s): {written} written, {report.unchanged} unchanged, " ++
    s!"{failed} failed"

/-- What is shown of a build. -/
def buildTranscript (isVerbose isColored dryRun : Bool) (project : Project)
    (report : BuildReport) : Transcript :=
  let compiled := if isVerbose then Compilation.compiled report.compilations else []
  let targets (outcome : WriteOutcome) (label : String) : List String :=
    (EmissionRecord.targets outcome report.records).map fun target =>
      s!"  {label} {Path.relativeTo project.root target}"
  { output := lines <|
      (compiled.map fun id => s!"  compiled {id}") ++
      targets .written (paint isColored .success "wrote") ++
      targets .pending (paint isColored .pending "would write") ++
      [paint isColored .strong (summary dryRun report)]
    notices := failureNotices project report
    status := statusOf report.isOk }

/-- What is shown of a check, by the report of a dry run. -/
def checkTranscript (isColored : Bool) (project : Project) (report : BuildReport) : Transcript :=
  let failures := failureNotices project report
  match EmissionRecord.targets .pending report.records with
  | [] =>
    let compiled := (Compilation.compiled report.compilations).length
    let label := paint isColored .success "ok:"
    { output := lines <|
        if report.isOk then
          [s!"{label} {compiled} document(s) compile and all artifacts are up to date."]
        else
          []
      notices := failures
      status := statusOf report.isOk }
  | stale =>
    { output := ""
      notices := failures ++ [.outOfDate (stale.map (Path.relativeTo project.root))]
      status := 1 }

/-- A text followed by spaces up to a width. -/
def padded (width : Nat) (text : String) : String :=
  text ++ String.ofList (List.replicate (width - text.length) ' ')

/-- A publication as a line of a listing. -/
def listed (publication : Publication) : String :=
  s!"{padded 13 publication.rendition.label} {publication.source} -> {publication.target}"

/-- A listing of publications. -/
def listing (format : ListingFormat) (publications : List Publication) : String :=
  match format with
  | .text => lines (publications.map listed)
  | .json => String.ofList (Json.array (publications.map Publication.toJson)).file

variable {m : Type → Type} [Monad m] [FileAccess m]

/-- Run a command on a project with valid settings. -/
def runOn (dialect : Markdown.Dialect) (isVerbose isColored : Bool) (project : Project)
    (command : Command) : m Transcript := do
  match command with
  | .build dryRun =>
    match ← project.build dialect dryRun with
    | .ok report => return buildTranscript isVerbose isColored dryRun project report
    | .error problem => return .ofProblem problem
  | .check =>
    match ← project.build dialect true with
    | .ok report => return checkTranscript isColored project report
    | .error problem => return .ofProblem problem
  | .paths format =>
    match project.pages with
    | .ok pages =>
      return .ofOutput (listing format (pages ++ Plan.allPrinted project.settings.plans))
    | .error problem => return .ofProblem problem
  | .sql =>
    return .ofOutput (String.ofList (SqlScript.ofCourses (project.courses [])))

/-- Whether the output of a request is colored: it is, unless the request or the surroundings forbid
it. -/
def Request.isColored (request : Request) (noColor : Bool) : Bool := !request.isPlain && !noColor

/-- Run a command on the project in a folder. -/
def Request.runIn (readers : Readers) (request : Request) (folder : String) (isColored : Bool)
    (command : Command) : m Transcript := do
  match ← Project.load readers.settings folder with
  | .error problem => return .ofProblem problem
  | .ok project =>
    match project.settings.validate with
    | .error problem => return .ofProblem problem
    | .ok () => runOn readers.markdown request.isVerbose isColored project command

/-- Run what is requested. The project lies in the folder that is named, or else in the folder in which
one works. -/
def Request.run (readers : Readers) (request : Request) (workingFolder : String) (noColor : Bool) :
    m Transcript := do
  let isColored := request.isColored noColor
  match request.command with
  | none => return { output := "", notices := [.noCommand], status := 1 }
  | some command =>
    let folder := request.root.getD workingFolder
    return { ← request.runIn readers folder isColored command with isColored := isColored }

/-- The text that explains the arguments. -/
def help : String :=
  lines [
    "coursec compiles course material into JSON documents, navigation config and SQL seed scripts.",
    "",
    "Usage: coursec [OPTIONS] [COMMAND]",
    "",
    "Commands:",
    "  build   Compile every planned document and write all artifacts [--dry-run]",
    "  check   Check that every document compiles and all artifacts are up to date",
    "  paths   Print the source and target of every published file [--format text|json]",
    "  sql     Print the SQL seed script for the configured courses",
    "  help    Print this message",
    "",
    "Options:",
    "  -p, --path <PATH>   Path to the project root directory",
    "  -v, --verbose       Enable verbose output",
    "      --no-color      Disable colored output",
    "  -h, --help          Print help",
    "  -V, --version       Print version"]

/-- The version that is shown. -/
def version : String := "coursec_cli 0.3.0"

/-- Run the command line. -/
def run (readers : Readers) (arguments : List String) (workingFolder : String) (noColor : Bool) :
    m Transcript :=
  match readers.arguments arguments with
  | .ok request => request.run readers workingFolder noColor
  | .error .misuse => return { output := "", notices := [.misuse], status := 2 }
  | .error .help => return .ofOutput help
  | .error .version => return .ofOutput (lines [version])

end Courseware.Cli
