import Courseware.Task.Basic
import Courseware.Text.Blank

/-!
# The plain text of tasks

`plain` stands for the plain text of Markdown throughout.
-/

namespace Courseware.Task

/-- The mark around the answers of a gap. -/
def gapMark : Text := [' ', '_', '_', '_', ' ']

/-- The answers of a field between marks. -/
def fieldText (field : GapField) : Text := gapMark ++ Text.join [' ', '/', ' '] field.answers ++ gapMark

/-- The parts of a gap text, each with the field that follows it if there is one. -/
def gapText (plain : Text → Text) : List GapField → List Text → Text
  | _, [] => []
  | [], part :: parts => plain part ++ gapText plain [] parts
  | field :: fields, part :: parts => plain part ++ (fieldText field ++ gapText plain fields parts)

/-- The plain text of a text that may be absent. -/
def optionalText (plain : Text → Text) (text : Option Text) : Text := (text.map plain).getD []

/-- The plain text of a task. -/
def plainText (plain : Text → Text) : Task → Text
  | .text instruction hint solution =>
    Text.joinLines [plain instruction, optionalText plain hint, optionalText plain solution]
  | .math instruction hint solution =>
    Text.joinLines [plain instruction, plain hint, plain solution]
  | .code instruction _ lines _ => Text.joinLines [plain instruction, lines]
  | .choice question choices _ =>
    Text.joinLines (plain question :: choices.map fun choice => plain choice.text)
  | .gap fields parts => Text.trim (gapText plain fields parts)

end Courseware.Task
