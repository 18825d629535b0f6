/-!
# Course plans

A course plan names the chapters that a course teaches, in order, and the worksheets that are handed
out at present. Where the sources of a chapter lie and where its published form goes are functions of
the plan and the chapter.
-/

namespace Courseware

/-- A planned chapter of a topic. The chapter named like its topic is the topic's index. -/
structure ChapterRef where
  topic : String
  chapter : String
deriving DecidableEq, Repr, Inhabited

/-- Whether a chapter is the index of its topic. -/
def ChapterRef.isIndex (ref : ChapterRef) : Bool := ref.topic == ref.chapter

/-- A worksheet of a chapter. -/
structure WorksheetRef where
  topic : String
  chapter : String
  worksheet : String
deriving DecidableEq, Repr, Inhabited

/-- The chapter to which a worksheet belongs. -/
def WorksheetRef.chapterRef (ref : WorksheetRef) : ChapterRef := ⟨ref.topic, ref.chapter⟩

/-- The plan of a course. -/
structure Plan where
  group : String
  subject : String
  variant : String
  title : Option String
  color : String
  tags : List String
  icon : Option String
  isListed : Bool
  isPublic : Bool
  registrationOpenUntil : Option String
  chapters : List ChapterRef
  worksheets : List WorksheetRef
deriving DecidableEq, Repr, Inhabited

namespace Plan

/-- The id of the course. -/
def id (plan : Plan) : String := s!"{plan.group}-{plan.variant}"

/-- The title that is shown: the variant, when the plan has no title. -/
def displayTitle (plan : Plan) : String := plan.title.getD plan.variant

/-- The page of the course. -/
def href (plan : Plan) : String := s!"/courses/{plan.group}/{plan.variant}"

/-- Where the sources of a topic lie. -/
def sourceFolder (plan : Plan) (topic : String) : String := s!"{plan.subject}/{topic}/chapters"

/-- Where the pages of a topic are published. -/
def targetFolder (plan : Plan) (topic : String) : String :=
  s!"courses/{plan.group}/{plan.variant}/{topic}"

/-- The id of the page that a chapter is compiled to. -/
def chapterId (plan : Plan) (ref : ChapterRef) : String :=
  s!"{plan.subject}/{ref.topic}/{ref.chapter}"

/-- A file in the folder of a chapter. The index of a topic has the folder of the topic. -/
def chapterFile (plan : Plan) (ref : ChapterRef) (file : String) : String :=
  if ref.isIndex then s!"{plan.sourceFolder ref.topic}/{file}"
  else s!"{plan.sourceFolder ref.topic}/{ref.chapter}/{file}"

/-- The source of the page of a chapter. -/
def pageSource (plan : Plan) (ref : ChapterRef) : String := plan.chapterFile ref "website.md"

/-- The source of the slides of a chapter, which need not exist. -/
def slidesSource (plan : Plan) (ref : ChapterRef) : String := plan.chapterFile ref "slides.md"

/-- Where the page of a chapter is published. -/
def pageTarget (plan : Plan) (ref : ChapterRef) : String :=
  if ref.isIndex then s!"{plan.targetFolder ref.topic}/index.md"
  else s!"{plan.targetFolder ref.topic}/{ref.chapter}.md"

/-- The source of a worksheet. -/
def worksheetSource (plan : Plan) (ref : WorksheetRef) : String :=
  s!"{plan.sourceFolder ref.topic}/{ref.chapter}/worksheets/{ref.worksheet}.md"

/-- Where a processed worksheet goes, by the end of its file name. -/
def worksheetTarget (plan : Plan) (ref : WorksheetRef) (ending : String) : String :=
  s!"pdf/{plan.group}/{plan.variant}/{ref.worksheet}{ending}"

/-- Add a chapter to the group of its topic, or as a new group at the end. -/
def addToGroup (ref : ChapterRef) :
    List (String × List ChapterRef) → List (String × List ChapterRef)
  | [] => [(ref.topic, [ref])]
  | (topic, chapters) :: rest =>
    if topic = ref.topic then (topic, chapters ++ [ref]) :: rest
    else (topic, chapters) :: addToGroup ref rest

/-- The chapters by topic: topics in the order in which they first occur, chapters in planned order. -/
def topics (plan : Plan) : List (String × List ChapterRef) :=
  plan.chapters.foldl (fun groups ref => addToGroup ref groups) []

end Plan
end Courseware
