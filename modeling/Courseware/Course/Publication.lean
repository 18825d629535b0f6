import Courseware.Course.Plan

/-!
# Publications

Every planned chapter is published as a page, and every current worksheet as two documents to print.
Two different sources must not be published to one place.
-/

namespace Courseware

/-- How a source is turned into what is published. -/
inductive Rendition
  | web
  | pdf
  | pdfSolution
deriving DecidableEq, Repr

namespace Rendition

/-- The name of a rendition in data. -/
def key : Rendition → String
  | web => "web"
  | pdf => "pdf"
  | pdfSolution => "pdfSolution"

/-- The name of a rendition in a listing. -/
def label : Rendition → String
  | web => "web"
  | pdf => "pdf"
  | pdfSolution => "pdf-solution"

end Rendition

/-- A source, the place where its processed form goes, and the rendition. -/
structure Publication where
  source : String
  target : String
  rendition : Rendition
deriving DecidableEq, Repr

/-- Two sources that are published to one place. -/
structure PathCollision where
  target : String
  first : String
  second : String
deriving DecidableEq, Repr

namespace Plan

/-- The page of a chapter. -/
def page (plan : Plan) (ref : ChapterRef) : Publication :=
  ⟨plan.pageSource ref, plan.pageTarget ref, .web⟩

/-- The pages that plans call for, in planned order, repetitions included. -/
def allPages (plans : List Plan) : List Publication :=
  plans.flatMap fun plan => plan.chapters.map plan.page

/-- Take up a page after others: one that is there already is dropped, and one whose place is taken
by another source collides. -/
def addPage (pages : List Publication) (page : Publication) :
    Except PathCollision (List Publication) :=
  match pages.find? fun other => other.target == page.target with
  | none => .ok (pages ++ [page])
  | some other =>
    if other.source = page.source then .ok pages
    else .error ⟨page.target, other.source, page.source⟩

/-- The pages of plans, in planned order and each once. -/
def pages (plans : List Plan) : Except PathCollision (List Publication) :=
  (allPages plans).foldlM addPage []

/-- The two documents of a worksheet. -/
def printed (plan : Plan) (ref : WorksheetRef) : List Publication :=
  [⟨plan.worksheetSource ref, plan.worksheetTarget ref ".pdf", .pdf⟩,
    ⟨plan.worksheetSource ref, plan.worksheetTarget ref "-solution.pdf", .pdfSolution⟩]

/-- The documents of all current worksheets, in planned order. -/
def allPrinted (plans : List Plan) : List Publication :=
  plans.flatMap fun plan => plan.worksheets.flatMap plan.printed

end Plan
end Courseware
