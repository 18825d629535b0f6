import Courseware.Course.Plan
import Courseware.Json.Basic

/-!
# Plans as data

A plan is read from an object by the names of its fields, or from an array by their order. A field
that is left out takes its default if it has one. Where `exact` holds, an array must not have more items
than there are fields.
-/

namespace Courseware

/-- The fields of a record, in order, as they are found in data. -/
structure FieldSource where
  get? : String → Nat → Option Json

namespace FieldSource

/-- The fields of an object or of an array with room for `count` of them. -/
def ofJson? (exact : Bool) (count : Nat) : Json → Option FieldSource
  | .object members => some ⟨fun name _ => members.lookup name⟩
  | .array items => if exact && count < items.length then none else some ⟨fun _ index => items[index]?⟩
  | _ => none

/-- A field that must be there. -/
def required? {α : Type} (source : FieldSource) (name : String) (index : Nat)
    (read : Json → Option α) : Option α :=
  (source.get? name index).bind read

/-- A field that takes a default when it is left out. -/
def withDefault? {α : Type} (source : FieldSource) (name : String) (index : Nat)
    (read : Json → Option α) (default : α) : Option α :=
  match source.get? name index with
  | none => some default
  | some value => read value

end FieldSource

namespace Json

/-- The value of a string. -/
def string? : Json → Option String
  | string value => some value
  | _ => none

/-- The value of a truth value. -/
def bool? : Json → Option Bool
  | bool value => some value
  | _ => none

/-- The value of a number without sign that fits 64 bits. -/
def nat? : Json → Option Nat
  | int value => if 0 ≤ value && value < Nat.pow 2 64 then some value.toNat else none
  | _ => none

/-- The value of an array of which every item can be read. -/
def list? {α : Type} (read : Json → Option α) : Json → Option (List α)
  | array items => items.mapM read
  | _ => none

/-- The value of what may also be `null`. -/
def nullable? {α : Type} (read : Json → Option α) : Json → Option (Option α)
  | null => some none
  | value => (read value).map some

end Json

namespace ChapterRef

/-- Read a chapter of a topic. -/
def ofJson? (exact : Bool) (json : Json) : Option ChapterRef := do
  let source ← FieldSource.ofJson? exact 2 json
  let topic ← source.required? "topic" 0 Json.string?
  let chapter ← source.required? "chapter" 1 Json.string?
  some ⟨topic, chapter⟩

/-- A chapter of a topic as data. -/
def toJson (ref : ChapterRef) : Json :=
  .object [("topic", .string ref.topic), ("chapter", .string ref.chapter)]

end ChapterRef

namespace WorksheetRef

/-- Read a worksheet. -/
def ofJson? (exact : Bool) (json : Json) : Option WorksheetRef := do
  let source ← FieldSource.ofJson? exact 3 json
  let topic ← source.required? "topic" 0 Json.string?
  let chapter ← source.required? "chapter" 1 Json.string?
  let worksheet ← source.required? "worksheet" 2 Json.string?
  some ⟨topic, chapter, worksheet⟩

/-- A worksheet as data. -/
def toJson (ref : WorksheetRef) : Json :=
  .object [("topic", .string ref.topic), ("chapter", .string ref.chapter),
    ("worksheet", .string ref.worksheet)]

end WorksheetRef

namespace Plan

/-- The color of a course whose plan names none. -/
def defaultColor : String := "gray"

/-- Read a plan. -/
def ofJson? (exact : Bool) (json : Json) : Option Plan := do
  let source ← FieldSource.ofJson? exact 12 json
  let group ← source.required? "group" 0 Json.string?
  let subject ← source.required? "subject" 1 Json.string?
  let variant ← source.required? "course_variant" 2 Json.string?
  let title ← source.withDefault? "title" 3 (Json.nullable? Json.string?) none
  let color ← source.withDefault? "color" 4 Json.string? defaultColor
  let tags ← source.withDefault? "tags" 5 (Json.list? Json.string?) []
  let icon ← source.withDefault? "icon" 6 (Json.nullable? Json.string?) none
  let isListed ← source.withDefault? "listed" 7 Json.bool? true
  let isPublic ← source.withDefault? "public" 8 Json.bool? true
  let until? ← source.withDefault? "registration_open_until" 9 (Json.nullable? Json.string?) none
  let chapters ← source.withDefault? "topics" 10 (Json.list? (ChapterRef.ofJson? exact)) []
  let worksheets ←
    source.withDefault? "current_worksheets" 11 (Json.list? (WorksheetRef.ofJson? exact)) []
  some ⟨group, subject, variant, title, color, tags, icon, isListed, isPublic, until?, chapters,
    worksheets⟩

/-- A plan as data, with `null` for what is absent. -/
def toJson (plan : Plan) : Json :=
  .object [("group", .string plan.group), ("subject", .string plan.subject),
    ("course_variant", .string plan.variant), ("title", .ofOption (plan.title.map .string)),
    ("color", .string plan.color), ("tags", .array (plan.tags.map .string)),
    ("icon", .ofOption (plan.icon.map .string)), ("listed", .bool plan.isListed),
    ("public", .bool plan.isPublic),
    ("registration_open_until", .ofOption (plan.registrationOpenUntil.map .string)),
    ("topics", .array (plan.chapters.map ChapterRef.toJson)),
    ("current_worksheets", .array (plan.worksheets.map WorksheetRef.toJson))]

end Plan
end Courseware
