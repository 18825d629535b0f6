import Courseware.Document.Tree

/-!
# The plain text of documents

The plain text of a document is made of its titles and texts in reading order, each on lines of its own.
What is empty adds no line, and notes for the presenter are left out. `plain` stands for the plain text
of Markdown throughout.
-/

namespace Courseware

namespace TaskSet

/-- The plain text of a task set. -/
def plainText (plain : Text → Text) (set : TaskSet) : Text :=
  Text.joinLines <|
    set.title.getD [] :: Task.optionalText plain set.intro :: set.tasks.map (Task.plainText plain)

end TaskSet

namespace Item

/-- The plain text of an item. -/
def plainText (plain : Text → Text) : Item → Text
  | info title text => Text.joinLines [title, plain text]
  | taskSet set => set.plainText plain
  | note content => plain content

end Item

namespace Category

/-- The plain text of a category. -/
def plainText (plain : Text → Text) : Category → Text
  | info title text => Text.joinLines [title, plain text]
  | tasks _ title items => Text.joinLines (title :: items.map (Item.plainText plain))

end Category

namespace SectionedDocument

/-- The plain text of a document in categories. -/
def plainText (plain : Text → Text) (document : SectionedDocument) : Text :=
  Text.joinLines [document.title.getD [], Task.optionalText plain document.intro,
    Text.joinLines (document.categories.map (Category.plainText plain))]

end SectionedDocument

namespace SlideBlock

/-- The plain text of a block of a slide. -/
def plainText (plain : Text → Text) : SlideBlock → Text
  | markdown text => plain text
  | note content => plain content
  | task content => content.plainText plain

end SlideBlock

namespace Slide

/-- The plain text of a slide. -/
def plainText (plain : Text → Text) (slide : Slide) : Text :=
  Text.joinLines [slide.title.getD [],
    Text.joinLines (slide.blocks.map (SlideBlock.plainText plain))]

end Slide

namespace DocumentTree

/-- The plain text of a document. -/
def plainText (plain : Text → Text) : DocumentTree → Text
  | page document | worksheet document => document.plainText plain
  | slideDeck deck =>
    Text.joinLines [deck.title.getD [], Text.joinLines (deck.slides.map (Slide.plainText plain))]

end DocumentTree
end Courseware
