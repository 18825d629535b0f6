import Courseware.Document.Event
import Courseware.Document.Section

/-!
# Documents in sections

The events of a page or a worksheet are gathered into categories. A heading of the first or second depth
begins a category, except that the first heading of depth one before any category is the title. What
stands before the first category is the introduction, and tasks there make a category without title.
-/

namespace Courseware

/-- A document that is being read. Lists are kept latest first; `current` is the section of the last
heading, and `implicit` the section of what stands before any. -/
structure SectionReader where
  title : Option Text
  intro : List Text
  categories : List Category
  implicit : Section
  current : Option Section
deriving DecidableEq, Repr

namespace SectionReader

/-- Nothing has been read. -/
def initial : SectionReader := ⟨none, [], [], .implicit, none⟩

/-- End the section that is being read. Notes before any category join the introduction when there are
no tasks. -/
def endSection (reader : SectionReader) : SectionReader :=
  match reader.current with
  | some draft =>
    { reader with categories := draft.category :: reader.categories, current := none }
  | none =>
    if reader.implicit.hasTasks then
      { reader with
        categories := reader.implicit.category :: reader.categories
        implicit := .implicit }
    else
      { reader with intro := reader.implicit.text ++ reader.intro, implicit := .implicit }

/-- Read text of the current section, or of the introduction. -/
def addProse (reader : SectionReader) (text : Text) : SectionReader :=
  match reader.current with
  | some draft => { reader with current := some (draft.addProse text) }
  | none => { reader with intro := text :: reader.intro }

/-- Read something that belongs to the current section, or to the one before any heading. -/
def addToSection (reader : SectionReader) (add : Section → Section) : SectionReader :=
  match reader.current with
  | some draft => { reader with current := some (add draft) }
  | none => { reader with implicit := add reader.implicit }

/-- Read a heading. -/
def addHeading (reader : SectionReader) (depth : Nat) (title : Text) : SectionReader :=
  if depth = 1 && reader.title.isNone && reader.current.isNone then
    { reader with title := some title }
  else if depth ≤ 2 then
    { reader.endSection with current := some (.begin title) }
  else
    match reader.current with
    | some draft => { reader with current := some (draft.addHeading depth title) }
    | none => { reader with intro := Section.headingText depth title :: reader.intro }

/-- Read an event. Notes for the presenter have no place here, and the offset of one is an error. -/
def read (reader : SectionReader) : Event → Except Nat SectionReader
  | .heading depth title => .ok (reader.addHeading depth title)
  | .thematicBreak => .ok (reader.addProse ['-', '-', '-'])
  | .prose text => .ok (reader.addProse text)
  | .directive _ (.task task) => .ok (reader.addToSection fun draft => draft.addTask task)
  | .directive _ (.note content) =>
    .ok (reader.addToSection fun draft => draft.addNote content)
  | .directive offset (.presenterNote _) => .error offset

/-- The document that has been read. -/
def finish (reader : SectionReader) : SectionedDocument :=
  let reader := reader.endSection
  { title := reader.title
    intro := if reader.intro.isEmpty then none else some (Section.paragraphs reader.intro)
    categories := reader.categories.reverse }

end SectionReader

namespace SectionedDocument

/-- The document that events make, or the offset of a note for the presenter. -/
def ofEvents (events : List Event) : Except Nat SectionedDocument := do
  let reader ← events.foldlM SectionReader.read .initial
  .ok reader.finish

end SectionedDocument
end Courseware
