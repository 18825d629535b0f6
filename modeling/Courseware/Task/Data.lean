import Courseware.Json.Basic
import Courseware.Task.Basic

/-!
# Tasks as data

A task is written as an object whose first member tells its kind. A text that a task does not have is
left out.
-/

namespace Courseware

namespace Choice

/-- A choice as data. -/
def toJson (choice : Choice) : Json :=
  .object [("text", .text choice.text), ("correct", .bool choice.correct)]

end Choice

namespace GapField

/-- A field as data. -/
def toJson (field : GapField) : Json :=
  .object [("answers", .array (field.answers.map .text))]

end GapField

namespace Task

/-- The members of a task as data, its kind first. -/
def members : Task → List (String × Json)
  | text instruction hint solution =>
    [("type", .string "text"), ("instruction", .text instruction)] ++
      Json.member? "hint" (hint.map .text) ++ Json.member? "solution" (solution.map .text)
  | math instruction hint solution =>
    [("type", .string "math"), ("instruction", .text instruction), ("hint", .text hint),
      ("solution", .text solution)]
  | code instruction language lines solution =>
    [("type", .string "code"), ("instruction", .text instruction),
      ("language", .string language.name), ("code", .text lines)] ++
      Json.member? "solution" (solution.map .text)
  | choice question choices isMultiple =>
    [("type", .string "mcq"), ("question", .text question),
      ("options", .array (choices.map Choice.toJson)), ("multiple", .bool isMultiple)]
  | gap fields parts =>
    [("type", .string "gap"), ("fields", .array (fields.map GapField.toJson)),
      ("parts", .array (parts.map .text))]

/-- A task as data. -/
def toJson (task : Task) : Json := .object task.members

end Task
end Courseware
