import Courseware.Files.Access
import Courseware.Problem

/-!
# Emissions

What a build puts into files is a list of emissions. An emission touches its target only if the bytes
there are to change; a dry run finds out which targets would change and touches none. Every emission
leaves one record, so that one that fails does not keep the others from being carried out.
-/

namespace Courseware

/-- What has become of a target. -/
inductive WriteOutcome
  | written
  /-- The target holds these bytes already. -/
  | unchanged
  /-- The target is to change, but this is a dry run. -/
  | pending
deriving DecidableEq, Repr

/-- Something to put into a file: a text, or the bytes of another file. -/
inductive Emission
  | text (target : String) (content : Text)
  | copy (target : String) (source : String)
deriving DecidableEq, Repr

/-- What has become of an emission. -/
structure EmissionRecord where
  target : String
  outcome : Except Problem WriteOutcome

variable {m : Type → Type} [Monad m] [FileAccess m]

/-- Make bytes the contents of a file, unless they are already. -/
def writeIfChanged (dryRun : Bool) (path : String) (bytes : ByteArray) :
    m (Except Problem WriteOutcome) := do
  let change : m (Except Problem WriteOutcome) := do
    if dryRun then
      return .ok .pending
    else if ← FileAccess.write path bytes then
      return .ok .written
    else
      return .error (.notWritten path)
  match ← FileAccess.read path with
  | .ok present => if present.data = bytes.data then return .ok .unchanged else change
  | .error .missing => change
  | .error .unusable => return .error (.notWritten path)

namespace Emission

/-- The file that an emission is for. -/
def target : Emission → String
  | text target _ | copy target _ => target

/-- Carry out an emission. A source that cannot be copied is itself what is reported. -/
def run (dryRun : Bool) (emission : Emission) : m (Except Problem WriteOutcome) := do
  match emission with
  | text target content => writeIfChanged dryRun target content.bytes
  | copy target source =>
    match ← FileAccess.read source with
    | .ok bytes => writeIfChanged dryRun target bytes
    | .error _ => return .error (.notWritten source)

/-- Carry out emissions in order. -/
def runAll (dryRun : Bool) (emissions : List Emission) : m (List EmissionRecord) :=
  emissions.mapM fun emission => do
    return ⟨emission.target, ← emission.run dryRun⟩

end Emission

namespace EmissionRecord

/-- The targets with an outcome, in the order in which they were emitted. -/
def targets (outcome : WriteOutcome) (records : List EmissionRecord) : List String :=
  records.filterMap fun record =>
    match record.outcome with
    | .ok found => if found = outcome then some record.target else none
    | .error _ => none

/-- The targets that failed, each with the problem. -/
def failures (records : List EmissionRecord) : List (String × Problem) :=
  records.filterMap fun record =>
    match record.outcome with
    | .ok _ => none
    | .error problem => some (record.target, problem)

end EmissionRecord
end Courseware
