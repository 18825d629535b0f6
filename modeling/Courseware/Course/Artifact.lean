import Courseware.Course.Catalogue
import Courseware.Course.Publication
import Courseware.Json.Printer

/-!
# Catalogue artifacts

The catalogue is written as the course configuration, as the navigation, and as a script that registers
the courses in a database. The script inserts every course once; a course that is registered already is
left as it is.
-/

namespace Courseware

namespace CourseChapter

/-- A chapter as data. -/
def toJson (chapter : CourseChapter) : Json :=
  .object [("id", .string chapter.id), ("label", .string chapter.label),
    ("href", .string chapter.href), ("isIndex", .bool chapter.isIndex)]

end CourseChapter

namespace CourseTopic

/-- A topic as data. -/
def toJson (topic : CourseTopic) : Json :=
  .object [("id", .string topic.id), ("label", .string topic.label),
    ("href", .string topic.href), ("chapters", .array (topic.chapters.map CourseChapter.toJson))]

/-- A topic as an entry of the navigation. -/
def navJson (topic : CourseTopic) : Json :=
  .object [("id", .string topic.id), ("label", .string topic.label), ("href", .string topic.href)]

end CourseTopic

namespace Course

/-- The tags of a course as data. -/
def tagsJson (course : Course) : Json := .array (course.tags.map .string)

/-- A course as data. -/
def toJson (course : Course) : Json :=
  .object <|
    [("id", .string course.id), ("group", .string course.group),
      ("subject", .string course.subject), ("slug", .string course.slug),
      ("title", .string course.title), ("color", .string course.color),
      ("tags", course.tagsJson)] ++
    Json.member? "icon" (course.icon.map .string) ++
    [("isListed", .bool course.isListed), ("isPublic", .bool course.isPublic),
      ("topics", .array (course.topics.map CourseTopic.toJson))]

/-- A course as an entry of the course configuration. -/
def configJson (course : Course) : Json :=
  .object <|
    [("id", .string course.id), ("label", .string course.title),
      ("group", .string course.group), ("subject", .string course.subject),
      ("slug", .string course.slug), ("href", .string course.href),
      ("color", .string course.color), ("tags", course.tagsJson)] ++
    Json.member? "icon" (course.icon.map .string) ++
    [("isListed", .bool course.isListed), ("isPublic", .bool course.isPublic),
      ("topics", .array (course.topics.map CourseTopic.toJson))]

/-- The course configuration. -/
def configuration (courses : List Course) : Json := .array (courses.map configJson)

end Course

namespace NavEntry

/-- An entry as data. A course without topics has no children. -/
def toJson (entry : NavEntry) : Json :=
  .object <|
    [("id", .string entry.id), ("label", .string entry.label), ("href", .string entry.href),
      ("color", .string entry.color)] ++
    match entry.topics with
    | [] => []
    | topics => [("children", .array (topics.map CourseTopic.navJson))]

/-- The navigation as data. -/
def navigationJson (courses : List Course) : Json :=
  .object ((navigation courses).map fun (group, entries) =>
    (group, .array (entries.map toJson)))

end NavEntry

namespace Publication

/-- A publication as data. -/
def toJson (publication : Publication) : Json :=
  .object [("source", .string publication.source), ("target", .string publication.target),
    ("process", .string publication.rendition.key)]

end Publication

/-! ## The database script -/

namespace SqlScript

/-- A text as a literal of the script: in single quotes, with each single quote inside doubled. -/
def literal (value : String) : Text :=
  '\'' :: (value.toList.flatMap fun letter => if letter == '\'' then ['\'', '\''] else [letter]) ++
    ['\'']

/-- A text that may be absent. -/
def optionalLiteral (value : Option String) : Text :=
  match value with
  | some value => literal value
  | none => ['N', 'U', 'L', 'L']

/-- The start of every statement. -/
def statementStart : String :=
  "INSERT INTO courses (course_id, current_topic_id, current_chapter_id, " ++
    "registration_open_until) VALUES ("

/-- The end of every statement. -/
def statementEnd : String := ") ON CONFLICT (course_id) DO NOTHING;"

/-- The values of the row that is inserted for a course. -/
def row (course : Course) : Text :=
  Text.join [',', ' ']
    [literal course.id, optionalLiteral (course.current?.map fun (topic, _) => topic.id),
      optionalLiteral (course.current?.map fun (_, chapter) => chapter.id),
      optionalLiteral course.registrationOpenUntil]

/-- The statement that registers a course. -/
def statement (course : Course) : Text :=
  statementStart.toList ++ row course ++ statementEnd.toList

/-- The script that registers courses: a line for each. -/
def ofCourses (courses : List Course) : Text :=
  courses.flatMap fun course => statement course ++ ['\n']

end SqlScript
end Courseware
