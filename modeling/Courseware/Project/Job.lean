import Courseware.Document.Compile
import Courseware.Document.Location
import Courseware.Files.Emission
import Courseware.Json.Printer
import Courseware.Problem
import Courseware.Settings

/-!
# Jobs

A job is to compile one document. The plans of a project call for the page of every chapter, for its
slides if there are any, and for every current worksheet. Plans may share documents: jobs are ordered by
their sources, and each source has one job, the first that the plans call for.
-/

namespace Courseware

/-- A document to compile, by its source below the content folder. -/
structure Job where
  source : String
  context : Context
  location : DocumentLocation
deriving DecidableEq, Repr

namespace Job

/-- The id of the document. -/
def id (job : Job) : String := job.location.documentId job.context

/-- The jobs of a chapter, given which slides there are. -/
def ofChapter (hasSlides : String → Bool) (plan : Plan) (ref : ChapterRef) : List Job :=
  let location := DocumentLocation.ofChapter plan ref
  let slides := plan.slidesSource ref
  ⟨plan.pageSource ref, .page, location⟩ ::
    if hasSlides slides then [⟨slides, .slides, location⟩] else []

/-- The job of a worksheet. -/
def ofWorksheet (plan : Plan) (ref : WorksheetRef) : Job :=
  ⟨plan.worksheetSource ref, .worksheet, .ofWorksheet plan ref⟩

/-- The jobs of a plan, in planned order. -/
def ofPlan (hasSlides : String → Bool) (plan : Plan) : List Job :=
  plan.chapters.flatMap (ofChapter hasSlides plan) ++ plan.worksheets.map (ofWorksheet plan)

/-- Take up a job among jobs that are ordered by source. A source keeps the job that it has. -/
def insert (job : Job) : List Job → List Job
  | [] => [job]
  | first :: rest =>
    if job.source < first.source then job :: first :: rest
    else if job.source = first.source then first :: rest
    else first :: insert job rest

/-- The jobs of plans. -/
def ofPlans (hasSlides : String → Bool) (plans : List Plan) : List Job :=
  (plans.flatMap (ofPlan hasSlides)).foldl (fun jobs job => insert job jobs) []

/-- Do a job with the text of its source, which is absent if it cannot be read. -/
def compile (dialect : Markdown.Dialect) (registry : Registry) (job : Job) (source : Option Text) :
    Except Problem DocumentTree :=
  match source with
  | some source =>
    (DocumentTree.compile dialect job.id job.context registry source).mapError .document
  | none => .error .unreadable

end Job

/-- The slides that plans may call for, if settings ask for slides. -/
def Settings.slidesSources (settings : Settings) : List String :=
  if settings.withSlides then
    settings.plans.flatMap fun plan => plan.chapters.map plan.slidesSource
  else
    []

/-- A job that has been done. -/
structure Compilation where
  job : Job
  result : Except Problem DocumentTree

namespace Compilation

/-- The title of a page, under the id of the page. -/
def pageTitle? (compilation : Compilation) : Option (String × String) :=
  match compilation.job.context, compilation.result with
  | .page, .ok tree => tree.title.map fun title => (compilation.job.id, String.ofList title)
  | _, _ => none

/-- The ids of the documents that compiled. -/
def compiled (compilations : List Compilation) : List String :=
  compilations.filterMap fun compilation =>
    match compilation.result with
    | .ok _ => some compilation.job.id
    | .error _ => none

/-- The jobs that failed, each with the problem. -/
def failures (compilations : List Compilation) : List (Job × Problem) :=
  compilations.filterMap fun compilation =>
    match compilation.result with
    | .ok _ => none
    | .error problem => some (compilation.job, problem)

/-- The titles of the pages that compiled. -/
def titles (compilations : List Compilation) (id : String) : Option String :=
  (compilations.filterMap pageTitle?).lookup id

/-- The file of a document that compiled. -/
def emission? (generated : String) (compilation : Compilation) : Option Emission :=
  match compilation.result with
  | .ok tree => some (.text (outputPath generated compilation.job.id) tree.toJson.file)
  | .error _ => none

end Compilation
end Courseware
