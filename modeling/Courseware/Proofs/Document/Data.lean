import Courseware.Document.Tree
import Courseware.Proofs.Json.Recovery

/-!
# Documents are recovered from their data

Every kind of data that a document consists of is read back here from an object, type by type. Types that
are written in several ways are told apart by a member that names the way. What is left out of an object is
absent, and nothing else is, so an absent text is not mistaken for an empty one. Every member that is
written is read, also where builders make it follow from the others, like the flag that tells whether a
question has several correct choices.
-/

namespace Courseware

/-! ## Lists with a title and an introduction -/

namespace Json

/-- An object with a type, a title and an introduction that may be absent, and items under a name. -/
def titled (type name : String) (title intro : Option Text) (items : Json) : Json :=
  .object <|
    [("type", .string type)] ++ member? "title" (title.map .text) ++
    member? "intro" (intro.map .text) ++ [(name, items)]

/-- A name under which items are not mistaken for what stands before them. -/
def IsItemsName (name : String) : Prop := name ≠ "type" ∧ name ≠ "title" ∧ name ≠ "intro"

/-- Everything is found again in such an object. -/
theorem spec_titled {name : String} (apart : IsItemsName name) (type : String)
    (title intro : Option Text) (items : Json) :
    (titled type name title intro items).sorted.field? "type" string? = some type ∧
    (titled type name title intro items).sorted.optional? "title" text? = some title ∧
    (titled type name title intro items).sorted.optional? "intro" text? = some intro ∧
    ∀ {α : Type} (read : Json → Option α),
      (titled type name title intro items).sorted.field? name read = read items.sorted := by
  obtain ⟨htype, htitle, hintro⟩ := apart
  cases title <;> cases intro <;>
    simp [titled, member?, htype.symm, htitle.symm, hintro.symm]

theorem readable_titled {room : Nat} {items : Json} (readable : items.Readable room)
    (type name : String) (title intro : Option Text) :
    (titled type name title intro items).Readable (room + 1) := by
  rw [titled, readable_object_iff]
  cases title <;> cases intro <;> simpa [member?] using readable

end Json

/-! ## Tasks -/

namespace Choice

/-- Read a choice. -/
def ofJson? (json : Json) : Option Choice := do
  let text ← json.field? "text" Json.text?
  let correct ← json.field? "correct" Json.bool?
  some ⟨text, correct⟩

theorem recovers : Json.Recovers toJson ofJson? 1 := by
  constructor
  case readable =>
    intro choice
    rw [toJson, Json.readable_object_iff]
    simp
  case recovered =>
    intro choice
    simp [ofJson?, toJson]

end Choice

namespace GapField

/-- Read a field. -/
def ofJson? (json : Json) : Option GapField := (json.field? "answers" (Json.list? Json.text?)).map mk

theorem recovers : Json.Recovers toJson ofJson? 2 := by
  constructor
  case readable =>
    intro field
    have hanswers := Json.Recovers.text.list.readable field.answers
    simpa [toJson] using hanswers
  case recovered =>
    intro field
    have hanswers := Json.Recovers.text.list.recovered field.answers
    simp [ofJson?, toJson, hanswers]

end GapField

namespace Task

/-- Read a task by its type. -/
def ofJson? (json : Json) : Option Task := do
  match ← json.field? "type" Json.string? with
  | "text" =>
    let instruction ← json.field? "instruction" Json.text?
    let hint ← json.optional? "hint" Json.text?
    let solution ← json.optional? "solution" Json.text?
    some (text instruction hint solution)
  | "math" =>
    let instruction ← json.field? "instruction" Json.text?
    let hint ← json.field? "hint" Json.text?
    let solution ← json.field? "solution" Json.text?
    some (math instruction hint solution)
  | "code" =>
    let instruction ← json.field? "instruction" Json.text?
    let name ← json.field? "language" Json.string?
    let language ← CodeLanguage.ofName? name
    let lines ← json.field? "code" Json.text?
    let solution ← json.optional? "solution" Json.text?
    some (code instruction language lines solution)
  | "mcq" =>
    let question ← json.field? "question" Json.text?
    let choices ← json.field? "options" (Json.list? Choice.ofJson?)
    let isMultiple ← json.field? "multiple" Json.bool?
    some (choice question choices isMultiple)
  | "gap" =>
    let fields ← json.field? "fields" (Json.list? GapField.ofJson?)
    let parts ← json.field? "parts" (Json.list? Json.text?)
    some (gap fields parts)
  | _ => none

theorem recovers : Json.Recovers toJson ofJson? 4 := by
  constructor
  case readable =>
    intro task
    rw [toJson, Json.readable_object_iff]
    cases task with
    | text instruction hint solution => cases hint <;> cases solution <;> simp [members, Json.member?]
    | math instruction hint solution => simp [members]
    | code instruction language lines solution => cases solution <;> simp [members, Json.member?]
    | choice question choices isMultiple =>
      have hchoices := (Choice.recovers.list.mono (by decide : 2 ≤ 3)).readable choices
      simpa [members] using hchoices
    | gap fields parts =>
      have hfields := GapField.recovers.list.readable fields
      have hparts := (Json.Recovers.text.list.mono (by decide : 1 ≤ 3)).readable parts
      simpa [members] using ⟨hfields, hparts⟩
  case recovered =>
    intro task
    rw [toJson, ofJson?]
    cases task with
    | text instruction hint solution => cases hint <;> cases solution <;> simp [members, Json.member?]
    | math instruction hint solution => simp [members]
    | code instruction language lines solution =>
      cases language
      cases solution <;> simp [members, Json.member?, CodeLanguage.name, CodeLanguage.ofName?]
    | choice question choices isMultiple =>
      have hchoices := Choice.recovers.list.recovered choices
      simp [members, hchoices]
    | gap fields parts =>
      have hfields := GapField.recovers.list.recovered fields
      have hparts := Json.Recovers.text.list.recovered parts
      simp [members, hfields, hparts]

end Task

/-! ## Documents in categories -/

namespace TaskSet

/-- Read a task set. -/
def ofJson? (json : Json) : Option TaskSet := do
  let title ← json.optional? "title" Json.text?
  let intro ← json.optional? "intro" Json.text?
  let tasks ← json.field? "tasks" (Json.list? Task.ofJson?)
  some ⟨title, intro, tasks⟩

theorem isItemsName_tasks : Json.IsItemsName "tasks" := ⟨by decide, by decide, by decide⟩

theorem recovers : Json.Recovers toJson ofJson? 6 := by
  constructor
  case readable =>
    intro set
    have htasks := Task.recovers.list.readable set.tasks
    exact Json.readable_titled htasks "taskSet" "tasks" set.title set.intro
  case recovered =>
    intro set
    have htasks := Task.recovers.list.recovered set.tasks
    obtain ⟨_, htitle, hintro, hitems⟩ := Json.spec_titled isItemsName_tasks "taskSet" set.title
      set.intro (.array (set.tasks.map Task.toJson))
    show ofJson? (Json.titled "taskSet" "tasks" _ _ _).sorted = _
    rw [ofJson?, htitle, hintro, hitems, htasks]
    rfl

end TaskSet

namespace Item

/-- Read an item by its type. -/
def ofJson? (json : Json) : Option Item := do
  match ← json.field? "type" Json.string? with
  | "info" =>
    let title ← json.field? "title" Json.text?
    let text ← json.field? "text" Json.text?
    some (info title text)
  | "taskSet" => (TaskSet.ofJson? json).map taskSet
  | "note" => (json.field? "content" Json.text?).map note
  | _ => none

theorem recovers : Json.Recovers toJson ofJson? 6 := by
  constructor
  case readable =>
    intro item
    cases item with
    | info title text => simp [toJson]
    | taskSet set => exact TaskSet.recovers.readable set
    | note content => simp [toJson]
  case recovered =>
    intro item
    rw [ofJson?]
    cases item with
    | info title text => simp [toJson]
    | taskSet set =>
      have htype : (taskSet set).toJson.sorted.field? "type" Json.string? = some "taskSet" :=
        (Json.spec_titled TaskSet.isItemsName_tasks "taskSet" set.title set.intro _).1
      rw [htype]
      show (TaskSet.ofJson? set.toJson.sorted).map taskSet = _
      rw [TaskSet.recovers.recovered]
      rfl
    | note content => simp [toJson]

end Item

namespace CategoryKind

/-- The kind with a name. -/
def ofName? (name : String) : Option CategoryKind :=
  [checkpoint, core, challenge].find? fun kind => kind.name == name

end CategoryKind

namespace Category

/-- Read a category by its kind. -/
def ofJson? (json : Json) : Option Category := do
  let title ← json.field? "title" Json.text?
  match ← json.field? "kind" Json.string? with
  | "info" => (json.field? "text" Json.text?).map (info title)
  | name =>
    let kind ← CategoryKind.ofName? name
    let items ← json.field? "items" (Json.list? Item.ofJson?)
    some (tasks kind title items)

theorem recovers : Json.Recovers toJson ofJson? 8 := by
  constructor
  case readable =>
    intro category
    cases category with
    | info title text => simp [toJson]
    | tasks kind title items =>
      have hitems := Item.recovers.list.readable items
      simpa [toJson] using hitems
  case recovered =>
    intro category
    rw [ofJson?]
    cases category with
    | info title text => simp [toJson]
    | tasks kind title items =>
      have hitems := Item.recovers.list.recovered items
      cases kind <;> simp [toJson, CategoryKind.name, CategoryKind.ofName?, hitems]

end Category

namespace SectionedDocument

/-- Read a document in categories, whatever its type. -/
def ofJson? (json : Json) : Option SectionedDocument := do
  let title ← json.optional? "title" Json.text?
  let intro ← json.optional? "intro" Json.text?
  let categories ← json.field? "categories" (Json.list? Category.ofJson?)
  some ⟨title, intro, categories⟩

theorem isItemsName_categories : Json.IsItemsName "categories" :=
  ⟨by decide, by decide, by decide⟩

theorem type_sectionedJson (type : String) (document : SectionedDocument) :
    (DocumentTree.sectionedJson type document).sorted.field? "type" Json.string? = some type :=
  (Json.spec_titled isItemsName_categories type document.title document.intro _).1

theorem recovers (type : String) :
    Json.Recovers (DocumentTree.sectionedJson type) ofJson? 10 := by
  constructor
  case readable =>
    intro document
    have hcategories := Category.recovers.list.readable document.categories
    exact Json.readable_titled hcategories type "categories" document.title document.intro
  case recovered =>
    intro document
    have hcategories := Category.recovers.list.recovered document.categories
    obtain ⟨_, htitle, hintro, hitems⟩ := Json.spec_titled isItemsName_categories type
      document.title document.intro (.array (document.categories.map Category.toJson))
    show ofJson? (Json.titled type "categories" _ _ _).sorted = _
    rw [ofJson?, htitle, hintro, hitems, hcategories]
    rfl

end SectionedDocument

/-! ## Slides -/

namespace SlideBlock

/-- Read a block of a slide by its type. -/
def ofJson? (json : Json) : Option SlideBlock := do
  match ← json.field? "type" Json.string? with
  | "markdown" => (json.field? "text" Json.text?).map markdown
  | "note" => (json.field? "content" Json.text?).map note
  | "task" => (json.field? "task" Task.ofJson?).map task
  | _ => none

theorem recovers : Json.Recovers toJson ofJson? 5 := by
  constructor
  case readable =>
    intro block
    cases block with
    | markdown text => simp [toJson]
    | note content => simp [toJson]
    | task content =>
      have htask := Task.recovers.readable content
      simpa [toJson] using htask
  case recovered =>
    intro block
    rw [ofJson?]
    cases block with
    | markdown text => simp [toJson]
    | note content => simp [toJson]
    | task content => simp [toJson, Task.recovers.recovered]

end SlideBlock

namespace Slide

/-- Read a slide. -/
def ofJson? (json : Json) : Option Slide := do
  let title ← json.optional? "title" Json.text?
  let blocks ← json.field? "blocks" (Json.list? SlideBlock.ofJson?)
  let notes ← json.field? "presenterNotes" (Json.list? Json.text?)
  some ⟨title, blocks, notes⟩

theorem recovers : Json.Recovers toJson ofJson? 7 := by
  constructor
  case readable =>
    intro slide
    obtain ⟨title, blocks, notes⟩ := slide
    have hblocks := SlideBlock.recovers.list.readable blocks
    have hnotes := (Json.Recovers.text.list.mono (by decide : 1 ≤ 6)).readable notes
    rw [toJson, Json.readable_object_iff]
    cases title <;> simpa [Json.member?] using ⟨hblocks, hnotes⟩
  case recovered =>
    intro slide
    obtain ⟨title, blocks, notes⟩ := slide
    have hblocks := SlideBlock.recovers.list.recovered blocks
    have hnotes := Json.Recovers.text.list.recovered notes
    rw [toJson, ofJson?]
    cases title <;> simp [Json.member?, hblocks, hnotes]

end Slide

namespace SlideDeck

/-- Read a slide deck. -/
def ofJson? (json : Json) : Option SlideDeck := do
  let title ← json.optional? "title" Json.text?
  let slides ← json.field? "slides" (Json.list? Slide.ofJson?)
  some ⟨title, slides⟩

end SlideDeck

/-! ## Documents -/

namespace DocumentTree

/-- Read a document by its type. -/
def ofJson? (json : Json) : Option DocumentTree := do
  match ← json.field? "type" Json.string? with
  | "page" => (SectionedDocument.ofJson? json).map page
  | "worksheet" => (SectionedDocument.ofJson? json).map worksheet
  | "slideDeck" => (SlideDeck.ofJson? json).map slideDeck
  | _ => none

theorem recovers : Json.Recovers toJson ofJson? 10 := by
  constructor
  case readable =>
    intro tree
    cases tree with
    | page document => exact (SectionedDocument.recovers "page").readable document
    | worksheet document => exact (SectionedDocument.recovers "worksheet").readable document
    | slideDeck deck =>
      obtain ⟨title, slides⟩ := deck
      have hslides := (Slide.recovers.list.mono (by decide : 8 ≤ 9)).readable slides
      rw [toJson, Json.readable_object_iff]
      cases title <;> simpa [Json.member?] using hslides
  case recovered =>
    intro tree
    rw [ofJson?]
    cases tree with
    | page document =>
      simp [toJson, SectionedDocument.type_sectionedJson,
        (SectionedDocument.recovers "page").recovered]
    | worksheet document =>
      simp [toJson, SectionedDocument.type_sectionedJson,
        (SectionedDocument.recovers "worksheet").recovered]
    | slideDeck deck =>
      obtain ⟨title, slides⟩ := deck
      have hslides := Slide.recovers.list.recovered slides
      cases title <;> simp [toJson, SlideDeck.ofJson?, Json.member?, hslides]

/-- The document that the bytes of its file stand for. -/
def ofBytes? (bytes : ByteArray) : Option DocumentTree := (Json.ofBytes? bytes).bind ofJson?

/-- Every document is recovered from the bytes of the file that it is written to. So two documents are
written to the same bytes exactly when they are the same. -/
theorem ofBytes?_toJson :
    (∀ tree : DocumentTree, ofBytes? tree.toJson.file.bytes = some tree) ∧
      ∀ first second : DocumentTree,
        first.toJson.file.bytes = second.toJson.file.bytes ↔ first = second := by
  have recovered : ∀ tree : DocumentTree, ofBytes? tree.toJson.file.bytes = some tree :=
    recovers.ofBytes?_file (by decide)
  refine ⟨recovered, ?_⟩
  intro first second
  constructor
  · intro same
    have hfirst := recovered first
    rw [same, recovered second] at hfirst
    exact (Option.some.inj hfirst).symm
  · intro same
    rw [same]

end DocumentTree
end Courseware
