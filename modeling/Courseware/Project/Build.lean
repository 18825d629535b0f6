import Courseware.Course.Artifact
import Courseware.Project.Basic
import Courseware.Project.Job

/-!
# Building projects

To build a project is to compile the documents that its plans call for and to emit what comes of it: the
compiled documents in the order of the jobs, the catalogue artifacts, the list of worksheets to print,
and, if the project publishes its pages, the sources of the pages that did not fail to compile. Settings
that are not valid, and pages that collide, stop a build before anything is read or written; the failure
of one document or one file does not stop it.
-/

namespace Courseware

/-- What came of a build. -/
structure BuildReport where
  compilations : List Compilation
  courses : List Course
  records : List EmissionRecord

namespace BuildReport

/-- Whether nothing failed. -/
def isOk (report : BuildReport) : Bool :=
  (Compilation.failures report.compilations).isEmpty &&
    (EmissionRecord.failures report.records).isEmpty

/-- How many emissions found their target unchanged. -/
def unchanged (report : BuildReport) : Nat :=
  (EmissionRecord.targets .unchanged report.records).length

end BuildReport

namespace Project

/-- The pages that a project is to publish. -/
def pages (project : Project) : Except Problem (List Publication) := do
  project.settings.validate
  (Plan.pages project.settings.plans).mapError .pathCollision

/-- The emissions of the catalogue. -/
def catalogueEmissions (project : Project) (courses : List Course) : List Emission :=
  let folders := project.folders
  let printed := Plan.allPrinted project.settings.plans
  [.text (Path.join folders.generated "config/courses.json") (Course.configuration courses).file,
    .text (Path.join folders.generated "navbar.config.json")
      (NavEntry.navigationJson courses).file,
    .text (Path.join folders.scripts "courses.sql") (SqlScript.ofCourses courses),
    .text (Path.join folders.generated "worksheets.json")
      (Json.array (printed.map Publication.toJson)).file]

/-- The emissions that publish pages, but for those whose sources failed to compile. -/
def pageEmissions (project : Project) (pages : List Publication) (failed : List String) :
    List Emission :=
  let folders := project.folders
  if project.settings.publishes then
    (pages.filter fun page => !failed.contains page.source).map fun page =>
      .copy (Path.join folders.website page.target) (Path.join folders.content page.source)
  else
    []

/-- The courses of a project whose documents have been compiled. -/
def courses (project : Project) (compilations : List Compilation) : List Course :=
  Course.catalogue (Compilation.titles compilations) project.settings.plans

/-- Everything that a build emits, in order. -/
def emissions (project : Project) (pages : List Publication) (compilations : List Compilation) :
    List Emission :=
  compilations.filterMap (Compilation.emission? project.folders.generated) ++
    project.catalogueEmissions (project.courses compilations) ++
    project.pageEmissions pages
      ((Compilation.failures compilations).map fun (job, _) => job.source)

variable {m : Type → Type} [Monad m] [FileAccess m]

/-- The jobs of a project. -/
def jobs (project : Project) : m (List Job) := do
  let slides ← project.settings.slidesSources.filterM fun source =>
    FileAccess.isFile (Path.join project.folders.content source)
  return Job.ofPlans slides.contains project.settings.plans

/-- Do a job. -/
def compile (dialect : Markdown.Dialect) (project : Project) (job : Job) : m Compilation := do
  let source ← readText (Path.join project.folders.content job.source)
  return ⟨job, job.compile dialect .standard source⟩

/-- Build a project. -/
def build (dialect : Markdown.Dialect) (project : Project) (dryRun : Bool) :
    m (Except Problem BuildReport) := do
  match project.pages with
  | .error problem => return .error problem
  | .ok pages =>
    let compilations ← (← project.jobs).mapM (project.compile dialect)
    let records ← Emission.runAll dryRun (project.emissions pages compilations)
    return .ok ⟨compilations, project.courses compilations, records⟩

end Project
end Courseware
