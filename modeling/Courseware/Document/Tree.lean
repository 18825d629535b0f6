import Courseware.Task.Data
import Courseware.Task.PlainText

/-!
# Document trees

A compiled document is a tree. Pages and worksheets have categories, each of which holds tasks among
information and notes, or is information as a whole. A slide deck has slides.
-/

namespace Courseware

/-- What a category of tasks is for. -/
inductive CategoryKind
  | checkpoint
  | core
  | challenge
deriving DecidableEq, Repr

/-- The name of a kind. -/
def CategoryKind.name : CategoryKind → String
  | checkpoint => "checkpoint"
  | core => "core"
  | challenge => "challenge"

/-- Tasks that belong together. -/
structure TaskSet where
  title : Option Text
  intro : Option Text
  tasks : List Task
deriving DecidableEq, Repr

/-- An item of a category. -/
inductive Item
  | info (title text : Text)
  | taskSet (set : TaskSet)
  | note (content : Text)
deriving DecidableEq, Repr

/-- A category: information only, or items some of which are tasks. -/
inductive Category
  | info (title text : Text)
  | tasks (kind : CategoryKind) (title : Text) (items : List Item)
deriving DecidableEq, Repr

/-- A document in categories. -/
structure SectionedDocument where
  title : Option Text
  intro : Option Text
  categories : List Category
deriving DecidableEq, Repr

/-- A block of a slide. -/
inductive SlideBlock
  | markdown (text : Text)
  | note (content : Text)
  | task (task : Task)
deriving DecidableEq, Repr

/-- A slide. -/
structure Slide where
  title : Option Text
  blocks : List SlideBlock
  presenterNotes : List Text
deriving DecidableEq, Repr

/-- A slide deck. -/
structure SlideDeck where
  title : Option Text
  slides : List Slide
deriving DecidableEq, Repr

/-- A compiled document. -/
inductive DocumentTree
  | page (document : SectionedDocument)
  | worksheet (document : SectionedDocument)
  | slideDeck (deck : SlideDeck)
deriving DecidableEq, Repr

namespace Category

/-- The title of a category. -/
def title : Category → Text
  | info title _ | tasks _ title _ => title

/-- The items of a category. One that is information only has none. -/
def items : Category → List Item
  | info .. => []
  | tasks _ _ items => items

end Category

namespace DocumentTree

/-- The title of a document. -/
def title : DocumentTree → Option Text
  | page document | worksheet document => document.title
  | slideDeck deck => deck.title

end DocumentTree

/-! ## Trees as data -/

namespace TaskSet

/-- A task set as an item. -/
def toJson (set : TaskSet) : Json :=
  .object <|
    [("type", .string "taskSet")] ++ Json.member? "title" (set.title.map .text) ++
    Json.member? "intro" (set.intro.map .text) ++ [("tasks", .array (set.tasks.map Task.toJson))]

end TaskSet

namespace Item

/-- An item as data. -/
def toJson : Item → Json
  | info title text =>
    .object [("type", .string "info"), ("title", .text title), ("text", .text text)]
  | taskSet set => set.toJson
  | note content => .object [("type", .string "note"), ("content", .text content)]

end Item

namespace Category

/-- A category as data. -/
def toJson : Category → Json
  | info title text =>
    .object [("kind", .string "info"), ("title", .text title), ("text", .text text)]
  | tasks kind title items =>
    .object [("kind", .string kind.name), ("title", .text title),
      ("items", .array (items.map Item.toJson))]

end Category

namespace SlideBlock

/-- A block of a slide as data. -/
def toJson : SlideBlock → Json
  | markdown text => .object [("type", .string "markdown"), ("text", .text text)]
  | note content => .object [("type", .string "note"), ("content", .text content)]
  | task content => .object [("type", .string "task"), ("task", content.toJson)]

end SlideBlock

namespace Slide

/-- A slide as data. -/
def toJson (slide : Slide) : Json :=
  .object <|
    Json.member? "title" (slide.title.map .text) ++
    [("blocks", .array (slide.blocks.map SlideBlock.toJson)),
      ("presenterNotes", .array (slide.presenterNotes.map .text))]

end Slide

namespace DocumentTree

/-- A document in categories as data. -/
def sectionedJson (type : String) (document : SectionedDocument) : Json :=
  .object <|
    [("type", .string type)] ++ Json.member? "title" (document.title.map .text) ++
    Json.member? "intro" (document.intro.map .text) ++
    [("categories", .array (document.categories.map Category.toJson))]

/-- A document as data. -/
def toJson : DocumentTree → Json
  | page document => sectionedJson "page" document
  | worksheet document => sectionedJson "worksheet" document
  | slideDeck deck =>
    .object <|
      [("type", .string "slideDeck")] ++ Json.member? "title" (deck.title.map .text) ++
      [("slides", .array (deck.slides.map Slide.toJson))]

end DocumentTree
end Courseware
