import Courseware.Proofs.Markup.Outline
import Courseware.Proofs.Markup.Registry

/-!
# The grammar of documents

A document is text and directives in any order; a directive is an opening, a body and a closing
bracket; a body is content and slots, every slot at most once and every required one exactly once; and
content is plain text, balanced groups and directives, at any depth. `Derives` states this grammar on
lexemes, without a stack and without a cursor.

What a reader has read always derives from this grammar, as far as it has come: `Walk.begun` says so,
by induction on the steps.
-/

namespace Courseware

/-- What the grammar describes. The slots of a body are those that it fills, latest first. -/
inductive Phrase
  | document
  | directive
  | content
  | body (descriptor : Descriptor) (filled : List String)

/-- The lexemes that a phrase may consist of, for a registry and a context. -/
inductive Derives (registry : Registry) (context : Context) : Phrase → List Lexeme → Prop
  /-- A document may be empty. -/
  | emptyDocument : Derives registry context .document []
  /-- Whatever opens neither a directive nor a slot may stand in a document. -/
  | documentText {before : List Lexeme} {lexeme : Lexeme}
      (document : Derives registry context .document before)
      (unnamed : lexeme.token.names? = none) :
      Derives registry context .document (before ++ [lexeme])
  /-- A directive may stand in a document. -/
  | documentDirective {before part : List Lexeme}
      (document : Derives registry context .document before)
      (directive : Derives registry context .directive part) :
      Derives registry context .document (before ++ part)
  /-- A directive is opened by a tag that is registered and allowed, and closed by a bracket after a
  body that fills all required slots. -/
  | directive {opening closing : Lexeme} {body : List Lexeme} {descriptor : Descriptor}
      {filled : List String} (named : opening.token.names? = some .bracket)
      (registered : registry.get? opening.name = some descriptor)
      (allowed : descriptor.allows context = true)
      (inner : Derives registry context (.body descriptor filled) body)
      (required : ∀ slot ∈ descriptor.requiredSlots, slot.name ∈ filled)
      (closed : closing.token.closes? = some .bracket) :
      Derives registry context .directive (opening :: (body ++ [closing]))
  /-- Content may be empty. -/
  | emptyContent : Derives registry context .content []
  /-- Plain text may stand in content. -/
  | contentText {before : List Lexeme} {lexeme : Lexeme}
      (content : Derives registry context .content before) (plain : lexeme.token.isPlain = true) :
      Derives registry context .content (before ++ [lexeme])
  /-- A balanced group may stand in content. -/
  | contentGroup {before inner : List Lexeme} {opening closing : Lexeme} {enclosure : Enclosure}
      (content : Derives registry context .content before)
      (opened : opening.token.groups? = some enclosure)
      (grouped : Derives registry context .content inner)
      (closed : closing.token.closes? = some enclosure) :
      Derives registry context .content (before ++ opening :: (inner ++ [closing]))
  /-- A directive may stand in content. -/
  | contentDirective {before part : List Lexeme}
      (content : Derives registry context .content before)
      (directive : Derives registry context .directive part) :
      Derives registry context .content (before ++ part)
  /-- A body may be empty. -/
  | emptyBody {descriptor : Descriptor} : Derives registry context (.body descriptor []) []
  /-- Content may stand in a body. -/
  | bodyContent {descriptor : Descriptor} {filled : List String} {before part : List Lexeme}
      (body : Derives registry context (.body descriptor filled) before)
      (content : Derives registry context .content part) :
      Derives registry context (.body descriptor filled) (before ++ part)
  /-- A slot that is declared and not yet filled may stand in a body. -/
  | bodySlot {descriptor : Descriptor} {filled : List String} {before inner : List Lexeme}
      {opening closing : Lexeme} {enclosure : Enclosure}
      (body : Derives registry context (.body descriptor filled) before)
      (named : opening.token.names? = some enclosure)
      (declared : descriptor.hasSlot opening.name = true) (unfilled : opening.name ∉ filled)
      (content : Derives registry context .content inner)
      (closed : closing.token.closes? = some enclosure) :
      Derives registry context (.body descriptor (opening.name :: filled))
        (before ++ opening :: (inner ++ [closing]))

namespace Derives

variable {registry : Registry} {context : Context}

/-- Content after content is content. -/
theorem content_append {before after : List Lexeme}
    (first : Derives registry context .content before)
    (second : Derives registry context .content after) :
    Derives registry context .content (before ++ after) := by
  generalize hphrase : Phrase.content = phrase at second
  induction second with
  | emptyContent => rwa [List.append_nil]
  | contentText _ plain ih =>
    rw [← List.append_assoc]
    exact (ih hphrase).contentText plain
  | contentGroup _ opened grouped closed ih =>
    rw [← List.append_assoc]
    exact (ih hphrase).contentGroup opened grouped closed
  | contentDirective _ directive ih =>
    rw [← List.append_assoc]
    exact (ih hphrase).contentDirective directive
  | _ => cases hphrase

theorem content_text {lexeme : Lexeme} (plain : lexeme.token.isPlain = true) :
    Derives registry context .content [lexeme] :=
  @contentText registry context [] lexeme .emptyContent plain

theorem content_directive {part : List Lexeme} (directive : Derives registry context .directive part) :
    Derives registry context .content part :=
  @contentDirective registry context [] part .emptyContent directive

theorem content_group {inner : List Lexeme} {opening closing : Lexeme} {enclosure : Enclosure}
    (opened : opening.token.groups? = some enclosure)
    (grouped : Derives registry context .content inner)
    (closed : closing.token.closes? = some enclosure) :
    Derives registry context .content (opening :: (inner ++ [closing])) :=
  @contentGroup registry context [] inner opening closing enclosure .emptyContent opened grouped
    closed

end Derives

/-! ## What is read derives

While a document is read, the lexemes behind the reader are a document, then the opening and a part of
the body of each open directive, outermost first. `Begun` says so for all open directives, and `Within`
for the body of one of them. -/

/-- The lexemes of a body up to a place in it, by the outline that is read there. -/
inductive Within (registry : Registry) (context : Context) (descriptor : Descriptor) :
    List String → Option (String × Enclosure) → List Enclosure → List Lexeme → Prop
  | body {filled : List String} {part : List Lexeme}
      (body : Derives registry context (.body descriptor filled) part) :
      Within registry context descriptor filled none [] part
  | slot {filled : List String} {before inner : List Lexeme} {opening : Lexeme}
      {enclosure : Enclosure} (body : Derives registry context (.body descriptor filled) before)
      (named : opening.token.names? = some enclosure)
      (declared : descriptor.hasSlot opening.name = true) (unfilled : opening.name ∉ filled)
      (content : Derives registry context .content inner) :
      Within registry context descriptor filled (some (opening.name, enclosure)) []
        (before ++ opening :: inner)
  | group {filled : List String} {slot : Option (String × Enclosure)} {groups : List Enclosure}
      {before inner : List Lexeme} {opening : Lexeme} {enclosure : Enclosure}
      (around : Within registry context descriptor filled slot groups before)
      (opened : opening.token.groups? = some enclosure)
      (content : Derives registry context .content inner) :
      Within registry context descriptor filled slot (enclosure :: groups)
        (before ++ opening :: inner)

namespace Within

variable {registry : Registry} {context : Context} {descriptor : Descriptor}
  {filled : List String} {slot : Option (String × Enclosure)} {groups : List Enclosure}
  {before after : List Lexeme}

/-- Content may follow at any place of a body. -/
theorem content_append (first : Within registry context descriptor filled slot groups before)
    (second : Derives registry context .content after) :
    Within registry context descriptor filled slot groups (before ++ after) := by
  cases first with
  | body body => exact .body (body.bodyContent second)
  | slot body named declared unfilled content =>
    rw [List.append_assoc, List.cons_append]
    exact .slot body named declared unfilled (content.content_append second)
  | group around opened content =>
    rw [List.append_assoc, List.cons_append]
    exact .group around opened (content.content_append second)

/-- A group that is closed is content of what it stands in. -/
theorem closeGroup {enclosure : Enclosure} {closing : Lexeme}
    (within : Within registry context descriptor filled slot (enclosure :: groups) before)
    (closed : closing.token.closes? = some enclosure) :
    Within registry context descriptor filled slot groups (before ++ [closing]) := by
  cases within with
  | group around opened content =>
    rw [List.append_assoc, List.cons_append]
    exact around.content_append (.content_group opened content closed)

/-- A slot that is closed is filled. -/
theorem closeSlot {name : String} {enclosure : Enclosure} {closing : Lexeme}
    (within : Within registry context descriptor filled (some (name, enclosure)) [] before)
    (closed : closing.token.closes? = some enclosure) :
    Within registry context descriptor (name :: filled) none [] (before ++ [closing]) := by
  cases within with
  | slot body named declared unfilled content =>
    rw [List.append_assoc, List.cons_append]
    exact .body (body.bodySlot named declared unfilled content closed)

/-- Where neither a slot nor a group is open, a whole body has been read. -/
theorem derives_body (within : Within registry context descriptor filled none [] before) :
    Derives registry context (.body descriptor filled) before := by
  cases within with
  | body body => exact body

end Within

/-- The lexemes of a document up to a place in it, by the outlines of the directives that are open
there, innermost first. -/
inductive Begun (registry : Registry) (context : Context) : List Outline → List Lexeme → Prop
  | outside {before : List Lexeme} (document : Derives registry context .document before) :
      Begun registry context [] before
  | inside {outline : Outline} {outer : List Outline} {before inner : List Lexeme}
      {opening : Lexeme} (around : Begun registry context outer before)
      (named : opening.token.names? = some .bracket)
      (registered : registry.get? opening.name = some outline.descriptor)
      (allowed : outline.descriptor.allows context = true)
      (within : Within registry context outline.descriptor outline.filled outline.slot
        outline.groups inner) :
      Begun registry context (outline :: outer) (before ++ opening :: inner)

namespace Begun

variable {registry : Registry} {context : Context} {outline changed : Outline}
  {outer outlines : List Outline} {before : List Lexeme}

/-- A directive may follow at any place. -/
theorem directive_append {part : List Lexeme} (begun : Begun registry context outlines before)
    (directive : Derives registry context .directive part) :
    Begun registry context outlines (before ++ part) := by
  cases begun with
  | outside document => exact .outside (document.documentDirective directive)
  | inside around named registered allowed within =>
    rw [List.append_assoc, List.cons_append]
    exact .inside around named registered allowed
      (within.content_append (.content_directive directive))

/-- A lexeme that takes the body of the innermost directive from one place to another does so for the
whole document. -/
theorem extend {lexeme : Lexeme} (begun : Begun registry context (outline :: outer) before)
    (descriptor : changed.descriptor = outline.descriptor)
    (within : ∀ inner, Within registry context outline.descriptor outline.filled outline.slot
        outline.groups inner →
      Within registry context outline.descriptor changed.filled changed.slot changed.groups
        (inner ++ [lexeme])) :
    Begun registry context (changed :: outer) (before ++ [lexeme]) := by
  cases begun with
  | inside around named registered allowed inner =>
    rw [List.append_assoc, List.cons_append]
    rw [← descriptor] at registered allowed within inner
    exact .inside around named registered allowed (within _ inner)

end Begun

namespace Reader

variable {scope : ReaderScope} {reader next : Reader}

/-- Every step keeps what is behind the reader within the grammar. -/
theorem Step.begun {lexeme : Lexeme} {before : List Lexeme}
    (begun : Begun scope.registry scope.context reader.outlines before)
    (step : Step scope reader lexeme next) :
    Begun scope.registry scope.context next.outlines (before ++ [lexeme]) := by
  cases step with
  | prose outside unnamed =>
    rw [outlines, outside] at begun
    cases begun with
    | outside document =>
      have hnone : reader.outlines = [] := outlines_eq_nil_iff.mpr outside
      exact hnone ▸ .outside (document.documentText unnamed)
  | directive named registered allowed noSlot =>
    exact .inside begun named registered allowed (.body .emptyBody)
  | @slot frame outer enclosure inside named opens unfilled =>
    rw [outlines, inside] at begun
    rw [OpenDirective.opensSlot_eq, Bool.and_eq_true, Bool.and_eq_true, List.isEmpty_iff,
      Option.isNone_iff_eq_none] at opens
    obtain ⟨⟨ungrouped, unfilling⟩, declared⟩ := opens
    have hfree := (frame.lookup_filled_eq_none_iff lexeme.name).mp unfilled
    refine begun.extend rfl fun inner within => ?_
    rw [ungrouped, unfilling] at within
    have hgroups : frame.groups = [] := ungrouped
    simp only [OpenDirective.outline, hgroups]
    exact .slot within.derives_body named declared hfree .emptyContent
  | plain inside plain =>
    rw [outlines, inside] at begun
    rw [outlines, List.map_cons, OpenDirective.outline_add]
    exact begun.extend rfl fun inner within => within.content_append (.content_text plain)
  | @group frame outer enclosure inside grouped =>
    rw [outlines, inside] at begun
    refine begun.extend (by simp [OpenDirective.outline]) fun inner within => ?_
    have hslot : (frame.add (.source lexeme.start lexeme.text)).outline.slot =
        frame.outline.slot := by rw [OpenDirective.outline_add]
    simp only [OpenDirective.outline, OpenDirective.add_filled] at hslot ⊢
    rw [hslot]
    exact .group within grouped .emptyContent
  | closeGroup inside closing grouped =>
    rw [outlines, inside] at begun
    rw [outlines, List.map_cons, OpenDirective.outline_add]
    refine begun.extend rfl fun inner within => ?_
    simp only [OpenDirective.outline, grouped] at within
    exact within.closeGroup closing
  | closeSlot inside closing ungrouped filling =>
    rw [outlines, inside] at begun
    refine begun.extend rfl fun inner within => ?_
    simp only [OpenDirective.outline, ungrouped, filling, Option.map_some] at within ⊢
    exact within.closeSlot closing
  | @closeDirective frame outer directive inside closing ungrouped unfilling built =>
    rw [outlines, inside, List.map_cons] at begun
    rw [outlines_place]
    cases begun with
    | inside around named registered allowed within =>
      simp only [OpenDirective.outline, ungrouped, unfilling, Option.map_none] at within
      have required : ∀ slot ∈ frame.outline.descriptor.requiredSlots,
          slot.name ∈ frame.outline.filled := by
        rw [← frame.missingSlot?_eq_none_iff]
        cases hmissing : frame.missingSlot? with
        | none => rfl
        | some slot => simp [OpenDirective.build, hmissing] at built
      rw [List.append_assoc, List.cons_append]
      exact around.directive_append
        (.directive named registered allowed within.derives_body required closing)

/-- What has been read of a document is the start of a document of the grammar. -/
theorem Walk.begun {lexemes : List Lexeme} (walk : Walk scope .initial lexemes next) :
    Begun scope.registry scope.context next.outlines lexemes :=
  walk.invariant (fun lexemes reader => Begun scope.registry scope.context reader.outlines lexemes)
    (.outside .emptyDocument) fun _ _ _ _ _ begun step => step.begun begun

end Reader
end Courseware
