import Courseware.Course.Publication
import Courseware.Course.Validation
import Courseware.Markup.Fault

/-!
# Problems

Whatever can go wrong in a project is one of these causes. A cause that another program words, such as
an unreadable file or malformed settings, has no message here.
-/

namespace Courseware

/-- Why something cannot be done. -/
inductive Problem
  | document (problem : DocumentProblem)
  /-- A file cannot be read as text. -/
  | unreadable
  | registry (conflict : RegistryConflict)
  | pathCollision (collision : PathCollision)
  | invalidPlan (report : InvalidPlan)
  /-- The settings are not of the form that is expected. -/
  | malformedSettings
  /-- The settings ask for no threads at all. -/
  | noThreads
  | missingSettings (folder : String)
  /-- A file cannot be written, or cannot be read to be copied. -/
  | notWritten (path : String)
deriving DecidableEq, Repr

namespace Problem

/-- The wording of a problem. -/
def message? : Problem → Option String
  | document problem => some problem.message
  | registry conflict => some s!"macro registry is misconfigured: {conflict.message}"
  | pathCollision collision =>
    some <| s!"target `{collision.target}` is produced by both `{collision.first}` and " ++
      s!"`{collision.second}`"
  | invalidPlan report => some s!"invalid course plan `{report.course}`: {report.defect.message}"
  | noThreads => some "failed to parse config file: `build.threads` must be at least 1"
  | missingSettings folder => some s!"no config file found in `{folder}`"
  | unreadable | malformedSettings | notWritten _ => none

/-- The code under which a problem is looked up. -/
def code : Problem → String
  | document (.noSentinels _) | document (.markdown _) => "coursec::markdown"
  | document (.fault _ _ fault) => fault.code
  | unreadable => "coursec::io_error"
  | registry _ => "coursec::registry_misconfigured"
  | pathCollision _ => "coursec::path_collision"
  | invalidPlan _ => "coursec::invalid_course_plan"
  | malformedSettings | noThreads => "coursec::config_parse"
  | missingSettings _ => "coursec::missing_config"
  | notWritten _ => "coursec::emit_io_failure"

/-- The advice that goes with a problem. -/
def help? : Problem → Option String
  | document (.fault _ _ fault) => fault.help?
  | pathCollision _ =>
    some "each (topic, chapter) pair of a course plan must map to its own file"
  | malformedSettings | noThreads =>
    some "check that coursec.toml is valid TOML with a [[courses]] table per course"
  | missingSettings _ =>
    some <| "create a coursec.toml (or .coursec.toml / .config/coursec.toml) in the project root"
  | _ => none

/-- Whether a problem belongs to a single document, so that others can be compiled. -/
def isOfDocument : Problem → Bool
  | document _ => true
  | _ => false

end Problem
end Courseware
