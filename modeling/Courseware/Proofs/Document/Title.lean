import Courseware.Markdown.Gfm
import Courseware.Proofs.Document.Sections
import Courseware.Proofs.Markup.Recognition
import Courseware.Proofs.Source.Pieces

/-!
# The title of a document

The title of a document is meant to be its first heading of depth one. In slides it is, wherever the
heading stands. On pages and worksheets a heading of depth one begins a section once there is one,
so a document whose first heading of depth one comes after a section has no title there;
`DocumentTree.ofParsed_title_iff` says that this is the only case.
-/

namespace Courseware

namespace Event

/-- The title of a heading of depth one. -/
def topHeading? : Event → Option Text
  | heading 1 title => some title
  | _ => none

/-- The events before the first heading of depth one. -/
def beforeTop (events : List Event) : List Event :=
  events.takeWhile fun event => event.topHeading?.isNone

theorem topHeading?_of_ne_one {depth : Nat} (h : depth ≠ 1) (title : Text) :
    (heading depth title).topHeading? = none := by
  unfold topHeading?
  split
  · next heq => exact absurd (Event.heading.inj heq).1 h
  · rfl

theorem topHeading?_of_inside {event : Event} (h : event.begins? = none) :
    event.topHeading? = none := by
  cases event with
  | heading depth title =>
    have hdepth := two_lt_of_inside h
    exact topHeading?_of_ne_one (by omega) title
  | thematicBreak => rfl
  | prose text => rfl
  | directive offset directive => rfl

/-- The title of a page is the first heading of depth one exactly when there is none, or no section
begins before it. -/
theorem title?_eq_findSome?_iff (events : List Event) :
    title? events = events.findSome? topHeading? ↔
      (∀ event ∈ events, event.topHeading? = none) ∨
        ∀ event ∈ beforeTop events, event.begins? = none := by
  induction events with
  | nil => exact ⟨fun _ => .inr (fun _ h => nomatch h), fun _ => rfl⟩
  | cons event rest ih =>
    cases hbegins : event.begins? with
    | none =>
      have htop := topHeading?_of_inside hbegins
      have hbefore : beforeTop (event :: rest) = event :: beforeTop rest :=
        List.takeWhile_cons_of_pos (by rw [htop]; rfl)
      rw [title?_of_inside hbegins, List.findSome?_cons_of_isNone (by rw [htop]; rfl), ih, hbefore,
        List.forall_mem_cons, List.forall_mem_cons]
      simp only [htop, hbegins, true_and]
    | some name =>
      obtain ⟨depth, rfl, hdepth⟩ := exists_of_begins?_eq_some hbegins
      by_cases hone : depth = 1
      · subst hone
        exact ⟨fun _ => .inr (fun _ h => nomatch h), fun _ => rfl⟩
      · have htop := topHeading?_of_ne_one hone name
        have hbefore : beforeTop (heading depth name :: rest) =
            heading depth name :: beforeTop rest :=
          List.takeWhile_cons_of_pos (by rw [htop]; rfl)
        -- The section begins before any title, so there must be none later.
        rw [title?, if_neg hone, if_pos hdepth,
          List.findSome?_cons_of_isNone (by rw [htop]; rfl), hbefore, List.forall_mem_cons,
          List.forall_mem_cons, eq_comm, List.findSome?_eq_none_iff]
        simp only [htop, hbegins, true_and, reduceCtorEq, false_and, or_false]

end Event

/-! ## Slides -/

namespace SlideReader

variable {reader : SlideReader}

@[simp]
theorem endSlide_deckTitle (reader : SlideReader) :
    reader.endSlide.deckTitle = reader.deckTitle := by
  unfold endSlide
  split <;> rfl

@[simp]
theorem addMarkdown_deckTitle (reader : SlideReader) (text : Text) :
    (reader.addMarkdown text).deckTitle = reader.deckTitle := by
  unfold addMarkdown
  split <;> rfl

/-- A heading of depth one is the title of the deck if there is none yet. -/
theorem addHeading_deckTitle (reader : SlideReader) (depth : Nat) (title : Text) :
    (reader.addHeading depth title).deckTitle =
      reader.deckTitle.or (Event.heading depth title).topHeading? := by
  -- Whether the heading becomes the title of the slide or a line does not matter for the deck.
  have hslide : ∀ reader : SlideReader,
      (if reader.title.isNone && reader.blocks.isEmpty then { reader with title := some title }
        else reader.addMarkdown (Section.headingText depth title)).deckTitle = reader.deckTitle := by
    intro reader
    split
    · rfl
    · exact addMarkdown_deckTitle _ _
  refine (hslide _).trans ?_
  by_cases hone : depth = 1
  · subst hone
    cases hdeck : reader.deckTitle <;> simp [hdeck, Event.topHeading?]
  · rw [Event.topHeading?_of_ne_one hone, Option.or_none]
    simp [hone]

/-- An event gives the deck its title if it is a heading of depth one and there is no title yet. -/
theorem read_deckTitle (reader : SlideReader) (event : Event) :
    (reader.read event).deckTitle = reader.deckTitle.or event.topHeading? := by
  cases event with
  | heading depth title => exact reader.addHeading_deckTitle depth title
  | thematicBreak => exact (endSlide_deckTitle reader).trans (Option.or_none).symm
  | prose text => exact (addMarkdown_deckTitle reader text).trans (Option.or_none).symm
  | directive offset directive => cases directive <;> exact (Option.or_none).symm

theorem foldl_read_deckTitle (reader : SlideReader) (events : List Event) :
    (events.foldl read reader).deckTitle =
      reader.deckTitle.or (events.findSome? Event.topHeading?) := by
  induction events generalizing reader with
  | nil => exact (Option.or_none).symm
  | cons event rest ih =>
    rw [List.foldl_cons, ih, read_deckTitle, Option.or_assoc, List.findSome?_cons]
    cases event.topHeading? <;> rfl

end SlideReader

/-- The title of slides is their first heading of depth one. -/
theorem SlideDeck.title_ofEvents (events : List Event) :
    (ofEvents events).title = events.findSome? Event.topHeading? := by
  rw [ofEvents]
  exact (SlideReader.endSlide_deckTitle _).trans (SlideReader.foldl_read_deckTitle .initial events)

namespace DocumentTree

variable {dialect : Markdown.Dialect} {parsed : ParsedDocument} {context : Context} {events : List Event}
  {tree : DocumentTree}

/-- The title of a tree that is made of events. -/
theorem title_of_ofEvents (built : ofEvents parsed context events = .ok tree) :
    tree.title = if context = .slides then events.findSome? Event.topHeading? else Event.title? events := by
  rcases ofEvents_cases built with ⟨hslides, rfl⟩ | ⟨hpage, document, haccepted, hmade⟩
  · rw [if_pos hslides]
    exact SlideDeck.title_ofEvents _
  · rw [if_neg hpage, ← SectionedDocument.title_of_ofEvents haccepted]
    rcases hmade with rfl | rfl <;> rfl

/-- What the title of a document is, in any dialect of Markdown. In slides it is the first heading of depth
one, and on pages and worksheets the first heading that would begin a section, if its depth is one. So it
is the first heading of depth one, and absent when there is none, exactly in slides, in documents without
such a heading, and where no section begins before it. -/
theorem ofParsed_title_iff (built : ofParsed dialect parsed context = .ok tree) :
    ∃ events, Event.ofDocument dialect parsed = .ok events ∧
      (tree.title = if context = .slides then events.findSome? Event.topHeading? else Event.title? events) ∧
      (tree.title = events.findSome? Event.topHeading? ↔
        context = .slides ∨ (∀ event ∈ events, event.topHeading? = none) ∨
          ∀ event ∈ Event.beforeTop events, event.begins? = none) := by
  obtain ⟨events, told, made⟩ := exists_of_bind_eq_ok built
  have htitle := title_of_ofEvents made
  refine ⟨events, told, htitle, ?_⟩
  rw [htitle]
  split
  · next hslides => simp only [hslides, true_or]
  · next hpage => simp only [hpage, false_or, Event.title?_eq_findSome?_iff]

/-- A heading of depth one after a section. -/
def lateTitle : Text := "## A\n\n# T".toList

/-- The document with such a heading. -/
def lateTitled (context : Context) : ParsedDocument :=
  ⟨"d", context, ⟨.pair 0xE000, lateTitle.map .letter⟩, [.prose 0 lateTitle]⟩

theorem ofSource_lateTitle (context : Context) :
    ParsedDocument.ofSource "d" context lateTitle .standard = .ok (lateTitled context) := by
  have extracted : Extraction.ofSource lateTitle = .ok ⟨.pair 0xE000, lateTitle.map .letter⟩ :=
    Extraction.ofSource_of_isDelimiter (by decide) (by decide) (by decide)
  rw [ParsedDocument.ofSource_of_extraction extracted]
  cbv

theorem ofDocument_lateTitled (context : Context) :
    Event.ofDocument .gfm (lateTitled context) = .ok [.heading 2 ['A'], .heading 1 ['T']] := by
  cbv

/-- In slides the heading is the title all the same. -/
theorem ofParsed_title_iff_late :
    ∃ tree, ParsedDocument.ofSource "d" .slides lateTitle .standard = .ok (lateTitled .slides) ∧
      ofParsed .gfm (lateTitled .slides) .slides = .ok tree ∧ tree.title = some ['T'] := by
  have built : ofParsed .gfm (lateTitled .slides) .slides =
      .ok (slideDeck (.ofEvents [.heading 2 ['A'], .heading 1 ['T']])) := by
    rw [ofParsed, ofDocument_lateTitled]
    rfl
  obtain ⟨events, told, htitle, _⟩ := ofParsed_title_iff built
  obtain rfl := Except.ok.inj ((ofDocument_lateTitled .slides).symm.trans told)
  exact ⟨_, ofSource_lateTitle .slides, built, htitle⟩

/-- The title is not the first heading of depth one in general: on a page that has a section before
it there is no title. -/
theorem ofParsed_misses_title :
    ¬∀ (parsed : ParsedDocument) (context : Context) (events : List Event) (tree : DocumentTree),
      Event.ofDocument .gfm parsed = .ok events → ofParsed .gfm parsed context = .ok tree →
        tree.title = events.findSome? Event.topHeading? := by
  intro first
  have built : ofParsed .gfm (lateTitled .page) .page =
      .ok (page ⟨none, none, [.info ['A'] [], .info ['T'] []]⟩) := by
    rw [ofParsed, ofDocument_lateTitled]
    rfl
  exact absurd (first _ _ _ _ (ofDocument_lateTitled .page) built) (by decide)

end DocumentTree
end Courseware
