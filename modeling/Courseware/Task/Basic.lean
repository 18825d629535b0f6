import Courseware.Text.Basic

/-!
# Tasks

What a learner is asked to do. Every text of a task is authored Markdown in which literals have been
restored and directives have been taken out, apart from code and from the answers of a gap.
-/

namespace Courseware

/-- The languages in which a code task may be set. -/
inductive CodeLanguage
  | ts
deriving DecidableEq, Repr

namespace CodeLanguage

/-- The name of a language. -/
def name : CodeLanguage → String
  | ts => "ts"

/-- The language with a name. -/
def ofName? (name : String) : Option CodeLanguage := if name == "ts" then some ts else none

end CodeLanguage

/-- An answer that a multiple choice question offers. -/
structure Choice where
  text : Text
  correct : Bool
deriving DecidableEq, Repr

/-- A field of a gap text, by the answers that it accepts. -/
structure GapField where
  answers : List Text
deriving DecidableEq, Repr

/-- A task. A question tells whether several of its choices are correct, and a gap text has parts around its
fields. -/
inductive Task
  | text (instruction : Text) (hint solution : Option Text)
  | math (instruction hint solution : Text)
  | code (instruction : Text) (language : CodeLanguage) (code : Text) (solution : Option Text)
  | choice (question : Text) (choices : List Choice) (isMultiple : Bool)
  | gap (fields : List GapField) (parts : List Text)
deriving DecidableEq, Repr

/-- A directive that has been read: a note, a note for the presenter, or a task. -/
inductive Directive
  | note (content : Text)
  | presenterNote (content : Text)
  | task (task : Task)
deriving DecidableEq, Repr

end Courseware
