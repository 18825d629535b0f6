import Courseware.Problem

/-!
# Transcripts

What a run of a command shows: its output, what it has to say about problems, and its exit status. Output
is colored unless that is switched off.
-/

namespace Courseware.Cli

/-- How a text stands out. -/
inductive Emphasis
  | strong
  | failure
  | success
  | pending
deriving DecidableEq, Repr

/-- The terminal's number of an emphasis. -/
def Emphasis.code : Emphasis → Nat
  | strong => 1
  | failure => 31
  | success => 32
  | pending => 33

/-- A text that stands out, if output is colored. -/
def paint (isColored : Bool) (emphasis : Emphasis) (text : String) : String :=
  if isColored then s!"\x1b[{emphasis.code}m{text}\x1b[0m" else text

/-- Something to say about a problem. -/
inductive Notice
  /-- The arguments are wrong. -/
  | misuse
  | noCommand
  /-- Nothing could be done. -/
  | fatal (problem : Problem)
  | failedDocument (id : String) (source : String) (problem : Problem)
  | failedTarget (target : String) (problem : Problem)
  /-- Files that do not hold what a build would write. -/
  | outOfDate (targets : List String)
deriving DecidableEq, Repr

namespace Notice

/-- The first line of a notice: what it opens with, and what follows. -/
def headline : Notice → String × String
  | misuse => ("error:", "the arguments are not understood; run `coursec --help` for usage")
  | noCommand => ("No subcommand specified.", "Run `coursec --help` for usage.")
  | fatal problem => ("error:", problem.message?.getD "a file is not as expected")
  | failedDocument id source _ => ("failed:", s!"{id} ({source})")
  | failedTarget target _ => ("failed to write:", s!"{target}: the file cannot be used")
  | outOfDate targets =>
    ("error:",
      s!"{targets.length} artifact(s) are out of date. Run `coursec build` to update them.")

/-- The problem that is explained below the first line. -/
def problem? : Notice → Option Problem
  | fatal problem | failedDocument _ _ problem => some problem
  | misuse | noCommand | failedTarget _ _ | outOfDate _ => none

/-- The lines below the first. -/
def details : Notice → List String
  | outOfDate targets => targets.map fun target => s!"  {target}"
  | notice =>
    match notice.problem? with
    | some problem =>
      [s!"  {problem.code}"] ++ (problem.message?.toList.map fun message => s!"  {message}") ++
        (problem.help?.toList.map fun help => s!"  help: {help}")
    | none => []

/-- A notice as it is shown. -/
def render (isColored : Bool) (notice : Notice) : String :=
  let (opening, rest) := notice.headline
  let opening := match notice with
    | noCommand => opening
    | _ => paint isColored .failure opening
  "\n".intercalate (s!"{opening} {rest}" :: notice.details)

end Notice

/-- What a run shows, and its exit status: 0 if all is well, 1 if something failed, 2 if nothing could be
done. -/
structure Transcript where
  output : String
  notices : List Notice
  status : Nat
  isColored : Bool := false
deriving DecidableEq, Repr

/-- Nothing could be done. -/
def Transcript.ofProblem (problem : Problem) : Transcript :=
  { output := "", notices := [.fatal problem], status := 2 }

/-- All is well. -/
def Transcript.ofOutput (output : String) : Transcript :=
  { output := output, notices := [], status := 0 }

end Courseware.Cli
