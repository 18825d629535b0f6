import Courseware.Course.Plan
import Courseware.Files.Path
import Courseware.Markup.Registry

/-!
# Where documents sit

A document belongs to a chapter of a course; it is the page of the chapter, its slides, or one of its
worksheets. The id of a document is also the path of the file that it is compiled to.
-/

namespace Courseware

/-- Where a document sits among the courses. -/
structure DocumentLocation where
  group : String
  subject : String
  variant : String
  topic : String
  chapter : String
  worksheet : Option String
deriving DecidableEq, Repr

namespace DocumentLocation

/-- The place of a planned chapter. -/
def ofChapter (plan : Plan) (ref : ChapterRef) : DocumentLocation :=
  ⟨plan.group, plan.subject, plan.variant, ref.topic, ref.chapter, none⟩

/-- The place of a planned worksheet. -/
def ofWorksheet (plan : Plan) (ref : WorksheetRef) : DocumentLocation :=
  { ofChapter plan ref.chapterRef with worksheet := some ref.worksheet }

/-- The id of the document of a kind that sits here. -/
def documentId (location : DocumentLocation) (context : Context) : String :=
  let chapter := s!"{location.subject}/{location.topic}/{location.chapter}"
  match context, location.worksheet with
  | .worksheet, some worksheet => s!"{chapter}/worksheets/{worksheet}"
  | .slides, _ => s!"{chapter}/slides"
  | _, _ => chapter

end DocumentLocation

/-- The file that a document is compiled to. -/
def outputPath (folder id : String) : String := Path.join folder s!"{id}.json"

end Courseware
