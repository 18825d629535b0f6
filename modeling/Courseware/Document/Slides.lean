import Courseware.Document.Event
import Courseware.Document.Section

/-!
# Slide decks

The events of slides are divided by thematic breaks. The first heading of a slide is its title when
nothing stands before it, and the first heading of depth one is also the title of the deck.
-/

namespace Courseware

/-- A slide deck that is being read. Lists are kept latest first. -/
structure SlideReader where
  deckTitle : Option Text
  slides : List Slide
  title : Option Text
  blocks : List SlideBlock
  notes : List Text
deriving DecidableEq, Repr

namespace SlideReader

/-- Nothing has been read. -/
def initial : SlideReader := ⟨none, [], none, [], []⟩

/-- End the slide that is being read, unless it is empty. -/
def endSlide (reader : SlideReader) : SlideReader :=
  if reader.title.isNone && reader.blocks.isEmpty && reader.notes.isEmpty then
    reader
  else
    { reader with
      slides := ⟨reader.title, reader.blocks.reverse, reader.notes.reverse⟩ :: reader.slides
      title := none
      blocks := []
      notes := [] }

/-- Read Markdown. It joins Markdown right before it. -/
def addMarkdown (reader : SlideReader) (text : Text) : SlideReader :=
  match reader.blocks with
  | .markdown before :: rest =>
    { reader with blocks := .markdown (before ++ '\n' :: '\n' :: text) :: rest }
  | blocks => { reader with blocks := .markdown text :: blocks }

/-- Read a heading. -/
def addHeading (reader : SlideReader) (depth : Nat) (title : Text) : SlideReader :=
  let reader :=
    if depth = 1 && reader.deckTitle.isNone then { reader with deckTitle := some title }
    else reader
  if reader.title.isNone && reader.blocks.isEmpty then { reader with title := some title }
  else reader.addMarkdown (Section.headingText depth title)

/-- Read an event. -/
def read (reader : SlideReader) : Event → SlideReader
  | .heading depth title => reader.addHeading depth title
  | .thematicBreak => reader.endSlide
  | .prose text => reader.addMarkdown text
  | .directive _ (.note content) => { reader with blocks := .note content :: reader.blocks }
  | .directive _ (.task task) => { reader with blocks := .task task :: reader.blocks }
  | .directive _ (.presenterNote content) => { reader with notes := content :: reader.notes }

end SlideReader

namespace SlideDeck

/-- The slide deck that events make. -/
def ofEvents (events : List Event) : SlideDeck :=
  let reader := (events.foldl SlideReader.read .initial).endSlide
  ⟨reader.deckTitle, reader.slides.reverse⟩

end SlideDeck
end Courseware
