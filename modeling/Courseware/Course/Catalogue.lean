import Courseware.Course.Plan

/-!
# The catalogue

The catalogue is what a website shows of the courses: for each plan a course with its topics and
chapters, each with a label and a link. A chapter is labelled with the title of its page when the page
has one, and a topic with the label of its index chapter.
-/

namespace Courseware

/-- A chapter in the catalogue. -/
structure CourseChapter where
  id : String
  label : String
  href : String
  isIndex : Bool
deriving DecidableEq, Repr

/-- A topic in the catalogue. -/
structure CourseTopic where
  id : String
  label : String
  href : String
  chapters : List CourseChapter
deriving DecidableEq, Repr

/-- A course in the catalogue. -/
structure Course where
  id : String
  group : String
  subject : String
  slug : String
  title : String
  color : String
  tags : List String
  icon : Option String
  isListed : Bool
  isPublic : Bool
  registrationOpenUntil : Option String
  topics : List CourseTopic
deriving DecidableEq, Repr

/-- The titles of the pages that have one, by page id. -/
abbrev PageTitles := String → Option String

namespace CourseChapter

/-- The entry of a planned chapter. -/
def ofRef (titles : PageTitles) (plan : Plan) (ref : ChapterRef) : CourseChapter where
  id := ref.chapter
  label := (titles (plan.chapterId ref)).getD ref.chapter
  href :=
    if ref.isIndex then s!"{plan.href}/{ref.topic}" else s!"{plan.href}/{ref.topic}/{ref.chapter}"
  isIndex := ref.isIndex

end CourseChapter

namespace CourseTopic

/-- The entry of a topic with its planned chapters. -/
def ofGroup (titles : PageTitles) (plan : Plan) (topic : String) (refs : List ChapterRef) :
    CourseTopic :=
  let chapters := refs.map (CourseChapter.ofRef titles plan)
  { id := topic
    label := ((chapters.find? CourseChapter.isIndex).map CourseChapter.label).getD topic
    href := s!"{plan.href}/{topic}"
    chapters := chapters }

end CourseTopic

namespace Course

/-- The page of a course. -/
def href (course : Course) : String := s!"/courses/{course.group}/{course.slug}"

/-- The entry of a planned course. -/
def ofPlan (titles : PageTitles) (plan : Plan) : Course where
  id := plan.id
  group := plan.group
  subject := plan.subject
  slug := plan.variant
  title := plan.displayTitle
  color := plan.color
  tags := plan.tags
  icon := plan.icon
  isListed := plan.isListed
  isPublic := plan.isPublic
  registrationOpenUntil := plan.registrationOpenUntil
  topics := plan.topics.map fun (topic, refs) => CourseTopic.ofGroup titles plan topic refs

/-- The catalogue of plans, in their order. -/
def catalogue (titles : PageTitles) (plans : List Plan) : List Course :=
  plans.map (ofPlan titles)

/-- The first topic of a course with its first chapter. -/
def current? (course : Course) : Option (CourseTopic × CourseChapter) := do
  let topic ← course.topics.head?
  let chapter ← topic.chapters.head?
  some (topic, chapter)

end Course

/-- An entry of the navigation: a course, and below it its topics. -/
structure NavEntry where
  id : String
  label : String
  href : String
  color : String
  topics : List CourseTopic
deriving DecidableEq, Repr

namespace NavEntry

/-- The entry of a course. -/
def ofCourse (course : Course) : NavEntry :=
  ⟨course.id, course.title, course.href, course.color, course.topics⟩

/-- Add an entry to its group. Groups are sorted by name and keep the order of their entries. -/
def addToGroup (group : String) (entry : NavEntry) :
    List (String × List NavEntry) → List (String × List NavEntry)
  | [] => [(group, [entry])]
  | (first, entries) :: rest =>
    if group < first then (group, [entry]) :: (first, entries) :: rest
    else if group = first then (first, entries ++ [entry]) :: rest
    else (first, entries) :: addToGroup group entry rest

/-- The navigation: the listed courses by group. -/
def navigation (courses : List Course) : List (String × List NavEntry) :=
  (courses.filter Course.isListed).foldl
    (fun groups course => addToGroup course.group (ofCourse course) groups) []

end NavEntry
end Courseware
