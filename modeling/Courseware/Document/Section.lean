import Courseware.Document.Tree
import Courseware.Text.Blank

/-!
# Sections

A section is read item by item and becomes a category. Prose waits until it is known what it belongs to:
before a task it is the introduction of a new task set, and elsewhere it is information of its own. A
section without tasks is information as a whole.
-/

namespace Courseware

namespace CategoryKind

/-- The words that make a heading one of a checkpoint. -/
def checkpointWords : List String := ["checkpoint", "check-in", "selbsttest", "selbstcheck"]

/-- The words that make a heading one of a challenge. -/
def challengeWords : List String := ["challenge", "knobel", "bonus", "expert", "vertiefung"]

/-- A letter in lower case. Of all other characters only the kelvin sign becomes an ASCII letter. -/
def lowerLetter (letter : Char) : Char :=
  if letter == '\u212a' then 'k' else letter.toLower

/-- The kind that a heading announces. Number signs before it and casing do not matter. -/
def ofHeading (heading : Text) : CategoryKind :=
  let words := ((Text.trim heading).dropWhile (· == '#')).map lowerLetter
  if checkpointWords.any fun word => Text.hasPart word.toList words then checkpoint
  else if challengeWords.any fun word => Text.hasPart word.toList words then challenge
  else core

end CategoryKind

/-- A section that is being read. Lists are kept latest first: the items so far, the Markdown of the
whole section, and the prose that waits. `subtitle` is the heading that waits for what follows it, and
`openSet` the task set that takes the next task. -/
structure Section where
  kind : CategoryKind
  title : Text
  items : List Item
  text : List Text
  waiting : List Text
  subtitle : Option Text
  openSet : Option TaskSet
  hasTasks : Bool
deriving DecidableEq, Repr

namespace Section

/-- The texts in reading order with an empty line between them. -/
def paragraphs (latestFirst : List Text) : Text := Text.join ['\n', '\n'] latestFirst.reverse

/-- A heading as Markdown. -/
def headingText (depth : Nat) (title : Text) : Text := List.replicate depth '#' ++ ' ' :: title

/-- A section that begins with a heading. -/
def begin (title : Text) : Section := ⟨.ofHeading title, title, [], [], [], none, none, false⟩

/-- The section of what stands before any heading. -/
def implicit : Section := ⟨.core, [], [], [], [], none, none, false⟩

/-- Turn prose that waits into information. It is headed by the heading before it, or else like the
section. -/
def flushProse (draft : Section) : Section :=
  match draft.waiting with
  | [] => draft
  | waiting =>
    { draft with
      items := .info (draft.subtitle.getD draft.title) (paragraphs waiting) :: draft.items
      waiting := []
      subtitle := none }

/-- Close the open task set. -/
def closeSet (draft : Section) : Section :=
  match draft.openSet with
  | none => draft
  | some set => { draft with items := .taskSet set :: draft.items, openSet := none }

/-- Read a heading inside the section. -/
def addHeading (draft : Section) (depth : Nat) (title : Text) : Section :=
  let draft := draft.flushProse.closeSet
  { draft with text := headingText depth title :: draft.text, subtitle := some title }

/-- Read prose. -/
def addProse (draft : Section) (text : Text) : Section :=
  { draft with text := text :: draft.text, waiting := text :: draft.waiting }

/-- Read a task. Prose that waits introduces a new task set. -/
def addTask (draft : Section) (task : Task) : Section :=
  let draft := { draft with hasTasks := true }
  match draft.waiting with
  | [] =>
    match draft.openSet with
    | some set => { draft with openSet := some { set with tasks := set.tasks ++ [task] } }
    | none =>
      { draft with openSet := some ⟨draft.subtitle, none, [task]⟩, subtitle := none }
  | waiting =>
    let draft := draft.closeSet
    { draft with
      openSet := some ⟨draft.subtitle, some (paragraphs waiting), [task]⟩
      waiting := []
      subtitle := none }

/-- Read a note. -/
def addNote (draft : Section) (content : Text) : Section :=
  let draft := draft.flushProse.closeSet
  { draft with text := content :: draft.text, items := .note content :: draft.items }

/-- The category of a section that has been read to its end. -/
def category (draft : Section) : Category :=
  if draft.hasTasks then
    .tasks draft.kind draft.title draft.flushProse.closeSet.items.reverse
  else
    .info draft.title (paragraphs draft.text)

end Section
end Courseware
