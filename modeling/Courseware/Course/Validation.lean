import Courseware.Course.Plan

/-!
# Validating plans

Names of courses, topics, chapters and worksheets become parts of paths, so they must be slugs. A set
of plans is valid when all names are slugs, course ids differ, every course has a chapter, no chapter
is planned twice in a course, and every worksheet belongs to a planned chapter. `Plan.validate` reports
the first defect in the order of the plans.
-/

namespace Courseware

/-- Whether a character may stand in a slug. -/
def isSlugLetter (letter : Char) : Bool := letter.isAlphanum || letter == '-' || letter == '_'

/-- Whether a name is a slug: not empty, and of ASCII letters, digits, hyphens and underscores. -/
def isSlug (name : String) : Bool := !name.toList.isEmpty && name.toList.all isSlugLetter

/-- What is wrong with a plan. -/
inductive PlanDefect
  | notSlug (field value : String)
  | idTaken
  | noTopic
  | invalidChapter (ref : ChapterRef)
  | chapterTwice (ref : ChapterRef)
  | invalidWorksheet (worksheet : String)
  | unplannedWorksheet (ref : WorksheetRef)
deriving DecidableEq, Repr

/-- The wording of a defect. -/
def PlanDefect.message : PlanDefect → String
  | notSlug field value => s!"`{field}` must be a non-empty slug, got `{value}`"
  | idTaken => "the course id is used by more than one plan"
  | noTopic => "a course needs at least one topic"
  | invalidChapter ref => s!"`{ref.topic}/{ref.chapter}` is not a valid topic and chapter pair"
  | chapterTwice ref => s!"`{ref.topic}/{ref.chapter}` is planned more than once"
  | invalidWorksheet worksheet => s!"`{worksheet}` is not a valid worksheet id"
  | unplannedWorksheet ref =>
    s!"worksheet `{ref.worksheet}` refers to `{ref.topic}/{ref.chapter}` which is not planned"

/-- A defect, with the id of the course that has it. -/
structure InvalidPlan where
  course : String
  defect : PlanDefect
deriving DecidableEq, Repr

namespace Plan

/-- The first defect among the names of a plan. -/
def nameDefect? (plan : Plan) : Option PlanDefect :=
  [("group", plan.group), ("subject", plan.subject), ("course_variant", plan.variant)].findSome?
    fun (field, value) => if isSlug value then none else some (.notSlug field value)

/-- The first defect among chapters, where `earlier` holds the chapters before them. -/
def chapterDefect? (earlier : List ChapterRef) : List ChapterRef → Option PlanDefect
  | [] => none
  | ref :: rest =>
    if !(isSlug ref.topic && isSlug ref.chapter) then some (.invalidChapter ref)
    else if earlier.contains ref then some (.chapterTwice ref)
    else chapterDefect? (ref :: earlier) rest

/-- The defect of a worksheet. -/
def worksheetDefect? (plan : Plan) (ref : WorksheetRef) : Option PlanDefect :=
  if !isSlug ref.worksheet then some (.invalidWorksheet ref.worksheet)
  else if !plan.chapters.contains ref.chapterRef then some (.unplannedWorksheet ref)
  else none

/-- The first defect of a plan, where `taken` holds the ids of the plans before it. -/
def defect? (taken : List String) (plan : Plan) : Option PlanDefect :=
  plan.nameDefect?.or <|
    (if taken.contains plan.id then some .idTaken else none).or <|
    (if plan.chapters.isEmpty then some .noTopic else none).or <|
    (chapterDefect? [] plan.chapters).or <|
    plan.worksheets.findSome? plan.worksheetDefect?

/-- Check plans, where `taken` holds the ids of the plans before them. -/
def validateAfter (taken : List String) : List Plan → Except InvalidPlan Unit
  | [] => .ok ()
  | plan :: rest =>
    match plan.defect? taken with
    | some defect => .error ⟨plan.id, defect⟩
    | none => validateAfter (plan.id :: taken) rest

/-- Check the plans of a project. -/
def validate (plans : List Plan) : Except InvalidPlan Unit := validateAfter [] plans

end Plan
end Courseware
