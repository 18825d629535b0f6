import Courseware.Document.Slides
import Courseware.Proofs.Text.Parts
import Mathlib.Data.List.Forall2
import Mathlib.Data.List.SplitBy

/-!
# The slides of a deck

Slides are the groups of events between thematic breaks, and empty groups make none. What a slide
shows of its group is said here without a reader: its title, if the first thing shown is a heading,
then the rest in order, and the notes for the presenter apart. Prose and headings are lines of
Markdown, and a run of them is one block; `SlideBlock.Shows` says of a block which events it is made of,
and `Event.runs` divides what is shown into runs that are as long as can be.

Markdown is joined line by line, so while a slide is read the runs are only known up to the last
event. `SlideReader.Drafts` is what the reader holds of the group so far: every event keeps it, and
a thematic break turns it into a slide. That no two blocks of Markdown are adjacent is what makes the
runs maximal in the end.
-/

namespace Courseware

namespace Event

/-- The line of Markdown that an event is: prose as it is, and a heading with its number signs. -/
def markdown? : Event → Option Text
  | heading depth title => some (Section.headingText depth title)
  | prose text => some text
  | _ => none

/-- The content of a note for the presenter. -/
def presenterNote? : Event → Option Text
  | directive _ (.presenterNote content) => some content
  | _ => none

/-- What a slide shows: everything but notes for the presenter. -/
def shown (group : List Event) : List Event :=
  group.filter fun event => event.presenterNote?.isNone

/-- The title of a slide is its first heading, unless something else is shown before it. -/
def slideTitle? (group : List Event) : Option Text :=
  match shown group with
  | heading _ title :: _ => some title
  | _ => none

/-- What a slide shows below its title. -/
def slideBody (group : List Event) : List Event :=
  match shown group with
  | heading _ _ :: rest => rest
  | rest => rest

/-- The maximal runs of lines of Markdown. Every other event is a run of its own. -/
def runs (events : List Event) : List (List Event) :=
  events.splitBy fun first second => first.markdown?.isSome && second.markdown?.isSome

/-- The events between thematic breaks, where there are any. -/
def slideGroups (events : List Event) : List (List Event) :=
  (events.splitOn thematicBreak).filter fun group => !group.isEmpty

end Event

namespace SlideBlock

/-- Whether a block is Markdown. -/
def isMarkdown : SlideBlock → Bool
  | markdown _ => true
  | note _ | task _ => false

/-- Two blocks are not both Markdown. -/
def Apart (first second : SlideBlock) : Prop := (first.isMarkdown && second.isMarkdown) = false

/-- Which run of events a block shows: lines of Markdown with an empty line between them, one note,
or one task. -/
inductive Shows : List Event → SlideBlock → Prop
  | markdown {run : List Event} (full : run ≠ []) (lines : ∀ event ∈ run, event.markdown? ≠ none) :
      Shows run (markdown (Text.join ['\n', '\n'] (run.filterMap Event.markdown?)))
  | note (offset : Nat) (content : Text) :
      Shows [.directive offset (.note content)] (note content)
  | task (offset : Nat) (content : Task) :
      Shows [.directive offset (.task content)] (task content)

end SlideBlock

/-- What a slide shows of its group of events. -/
structure Slide.Shows (group : List Event) (slide : Slide) : Prop where
  title : slide.title = Event.slideTitle? group
  blocks : List.Forall₂ SlideBlock.Shows (Event.runs (Event.slideBody group)) slide.blocks
  presenterNotes : slide.presenterNotes = group.filterMap Event.presenterNote?
  apart : slide.blocks.IsChain SlideBlock.Apart
  full : slide.title ≠ none ∨ slide.blocks ≠ [] ∨ slide.presenterNotes ≠ []

/-! ## One event further -/

namespace Event

variable {group : List Event} {event : Event}

theorem shown_concat_of_note {content : Text} (h : event.presenterNote? = some content) :
    shown (group ++ [event]) = shown group := by
  simp [shown, List.filter_append, h]

theorem shown_concat_of_none (h : event.presenterNote? = none) :
    shown (group ++ [event]) = shown group ++ [event] := by
  simp [shown, List.filter_append, h]

/-- The first thing that is shown is the title if it is a heading. -/
theorem slideTitle?_concat_heading (hshown : shown group = []) (depth : Nat) (title : Text) :
    slideTitle? (group ++ [heading depth title]) = some title ∧
      slideBody (group ++ [heading depth title]) = [] := by
  have hgroup := @shown_concat_of_none group (heading depth title) rfl
  rw [hshown] at hgroup
  rw [slideTitle?, slideBody, hgroup]
  exact ⟨rfl, rfl⟩

/-- Anything else that is shown stands below the title, if there is one. -/
theorem slideTitle?_concat (hnote : event.presenterNote? = none)
    (h : shown group ≠ [] ∨ ∀ depth title, event ≠ heading depth title) :
    slideTitle? (group ++ [event]) = slideTitle? group ∧
      slideBody (group ++ [event]) = slideBody group ++ [event] := by
  rw [slideTitle?, slideBody, slideTitle?, slideBody, shown_concat_of_none hnote]
  cases hshown : shown group with
  | cons first rest => cases first <;> exact ⟨rfl, rfl⟩
  | nil =>
    cases event with
    | heading depth title =>
      exact absurd (h.resolve_left (not_not_intro hshown) depth title) (not_not_intro rfl)
    | thematicBreak => exact ⟨rfl, rfl⟩
    | prose text => exact ⟨rfl, rfl⟩
    | directive offset content => exact ⟨rfl, rfl⟩

/-- A slide without title and without anything below it shows nothing. -/
theorem shown_eq_nil (htitle : slideTitle? group = none) (hbody : slideBody group = []) :
    shown group = [] := by
  rw [slideTitle?] at htitle
  rw [slideBody] at hbody
  cases hshown : shown group with
  | nil => rfl
  | cons first rest =>
    rw [hshown] at htitle hbody
    cases first with
    | heading depth title => exact nomatch htitle
    | thematicBreak => exact nomatch hbody
    | prose text => exact nomatch hbody
    | directive offset content => exact nomatch hbody

/-- Every event is shown or is a note for the presenter. -/
theorem eq_nil_of_shown (hshown : shown group = [])
    (hnotes : group.filterMap presenterNote? = []) : group = [] := by
  cases group with
  | nil => rfl
  | cons event rest =>
    have hnote := List.filterMap_eq_nil_iff.mp hnotes event List.mem_cons_self
    have hhidden := List.filter_eq_nil_iff.mp hshown event List.mem_cons_self
    rw [hnote] at hhidden
    exact absurd rfl hhidden

end Event

namespace SlideBlock

variable {run : List Event} {block : SlideBlock}

theorem Shows.ne_nil (shows : Shows run block) : run ≠ [] := by
  cases shows with
  | markdown full lines => exact full
  | note offset content => exact List.cons_ne_nil _ _
  | task offset content => exact List.cons_ne_nil _ _

/-- A block is Markdown exactly when its events are lines of Markdown. -/
theorem Shows.isSome_markdown? (shows : Shows run block) {event : Event} (h : event ∈ run) :
    event.markdown?.isSome = block.isMarkdown := by
  cases shows with
  | markdown full lines => exact Option.isSome_iff_ne_none.mpr (lines event h)
  | note offset content =>
    obtain rfl := List.mem_singleton.mp h
    rfl
  | task offset content =>
    obtain rfl := List.mem_singleton.mp h
    rfl

theorem Shows.runs_eq (shows : Shows run block) : Event.runs run = [run] := by
  cases shows with
  | note offset content => rfl
  | task offset content => rfl
  | markdown full lines =>
    have hlines : ∀ event ∈ run, event.markdown?.isSome = true := fun event hevent =>
      Option.isSome_iff_ne_none.mpr (lines event hevent)
    apply List.splitBy_of_isChain full
    apply List.Pairwise.isChain
    apply List.pairwise_of_forall_mem_list
    intro first hfirst second hsecond
    rw [hlines first hfirst, hlines second hsecond]
    rfl

/-- Runs that are shown by blocks no two of which are adjacent Markdown are maximal. -/
theorem runs_flatten {parts : List (List Event)} {blocks : List SlideBlock}
    (shows : List.Forall₂ Shows parts blocks) (apart : blocks.IsChain Apart) :
    Event.runs parts.flatten = parts := by
  induction shows with
  | nil => rfl
  | @cons run block parts blocks hrun hparts ih =>
    have hrest := ih apart.tail
    have hends : ∀ last ∈ run.getLast?, ∀ next ∈ parts.flatten.head?,
        (last.markdown?.isSome && next.markdown?.isSome) = false := by
      intro last hlast next hnext
      cases hparts with
      | nil => exact nomatch hnext
      | @cons second other parts blocks hsecond _ =>
        have hfull := hsecond.ne_nil
        rw [List.flatten_cons, List.head?_append_of_ne_nil _ hfull] at hnext
        rw [hrun.isSome_markdown? (List.mem_of_mem_getLast? hlast),
          hsecond.isSome_markdown? (List.mem_of_mem_head? hnext)]
        exact (List.isChain_cons_cons.mp apart).1
    rw [List.flatten_cons, Event.runs, List.splitBy_append hends, ← Event.runs, ← Event.runs,
      hrun.runs_eq, hrest]
    rfl

end SlideBlock

/-! ## While a slide is read -/

namespace SlideBlock

variable {latest : List SlideBlock} {events : List Event} {event : Event}

/-- Which events some blocks show, run by run. The blocks are given latest first. -/
def Lists (latest : List SlideBlock) (events : List Event) : Prop :=
  latest.IsChain Apart ∧
    ∃ parts, parts.reverse.flatten = events ∧ List.Forall₂ Shows parts latest

theorem Lists.eq_nil_iff (lists : Lists latest events) : latest = [] ↔ events = [] := by
  obtain ⟨_, parts, rfl, shows⟩ := lists
  cases shows with
  | nil => exact iff_of_true rfl rfl
  | @cons run block parts blocks hrun _ =>
    have hfull := hrun.ne_nil
    exact iff_of_false (List.cons_ne_nil _ _) (by simp [hfull])

/-- A block that is not adjacent to Markdown, or is none, may come next. -/
theorem Lists.cons {block : SlideBlock} (lists : Lists latest events)
    (shows : Shows [event] block) (apart : ∀ before ∈ latest.head?, Apart block before) :
    Lists (block :: latest) (events ++ [event]) := by
  obtain ⟨hchain, parts, rfl, hparts⟩ := lists
  refine ⟨List.isChain_cons.mpr ⟨apart, hchain⟩, [event] :: parts, ?_, .cons shows hparts⟩
  simp

/-- A line after Markdown goes on with the run. -/
theorem Lists.goOn {before text : Text} (lists : Lists (markdown before :: latest) events)
    (h : event.markdown? = some text) :
    Lists (markdown (before ++ '\n' :: '\n' :: text) :: latest) (events ++ [event]) := by
  obtain ⟨hchain, parts, rfl, hparts⟩ := lists
  cases hparts with
  | @cons run _ parts _ hrun hparts =>
    cases hrun with
    | @markdown _ full lines =>
      have htexts : run.filterMap Event.markdown? ≠ [] := by
        obtain ⟨first, others, rfl⟩ := List.exists_cons_of_ne_nil full
        obtain ⟨line, hfirst⟩ := Option.ne_none_iff_exists'.mp (lines first List.mem_cons_self)
        rw [List.filterMap_cons_some hfirst]
        exact List.cons_ne_nil _ _
      have hjoined : Text.join ['\n', '\n'] (run.filterMap Event.markdown?) ++
          '\n' :: '\n' :: text =
            Text.join ['\n', '\n'] ((run ++ [event]).filterMap Event.markdown?) := by
        rw [List.filterMap_append, List.filterMap_cons_some h, List.filterMap_nil,
          Text.join_concat htexts]
        rfl
      have hlines : ∀ other ∈ run ++ [event], other.markdown? ≠ none := by
        refine List.forall_mem_append.mpr ⟨lines, fun other hother => ?_⟩
        rw [List.mem_singleton.mp hother, h]
        exact Option.some_ne_none _
      obtain ⟨hfirst, hrest⟩ := List.isChain_cons.mp hchain
      rw [hjoined]
      refine ⟨List.isChain_cons.mpr ⟨hfirst, hrest⟩, (run ++ [event]) :: parts, ?_, .cons ?_ hparts⟩
      · simp
      · exact .markdown (List.append_ne_nil_of_left_ne_nil full _) hlines

/-- A line of Markdown goes on with the run before it, or begins one. -/
theorem Lists.addMarkdown {reader : SlideReader} {text : Text}
    (lists : Lists reader.blocks events) (h : event.markdown? = some text) :
    Lists (reader.addMarkdown text).blocks (events ++ [event]) := by
  have hbegins : Shows [event] (.markdown text) := by
    have hline : ∀ other ∈ [event], other.markdown? ≠ none := by
      intro other hother
      rw [List.mem_singleton.mp hother, h]
      exact Option.some_ne_none _
    have hshows := Shows.markdown (List.cons_ne_nil event []) hline
    rwa [List.filterMap_cons_some h, List.filterMap_nil, Text.join,
      List.intercalate_singleton] at hshows
  obtain ⟨deckTitle, slides, title, blocks, notes⟩ := reader
  cases blocks with
  | nil =>
    apply lists.cons hbegins
    exact fun before hbefore => absurd hbefore (Option.not_mem_none before)
  | cons before rest =>
    cases before with
    | markdown before => exact lists.goOn h
    | note content =>
      apply lists.cons hbegins
      intro before hbefore
      obtain rfl := Option.some.inj hbefore
      rfl
    | task content =>
      apply lists.cons hbegins
      intro before hbefore
      obtain rfl := Option.some.inj hbefore
      rfl

/-- A block that is no Markdown may come anywhere. -/
theorem Lists.addBlock {block : SlideBlock} (lists : Lists latest events)
    (shows : Shows [event] block) (h : block.isMarkdown = false) :
    Lists (block :: latest) (events ++ [event]) := by
  apply lists.cons shows
  intro before _
  rw [Apart, h, Bool.false_and]

end SlideBlock

namespace SlideReader

variable {reader : SlideReader} {group : List Event} {event : Event}

/-- What a reader holds of the events since the last thematic break. -/
structure Drafts (reader : SlideReader) (group : List Event) : Prop where
  title : reader.title = Event.slideTitle? group
  blocks : SlideBlock.Lists reader.blocks (Event.slideBody group)
  notes : reader.notes.reverse = group.filterMap Event.presenterNote?

@[simp]
theorem addMarkdown_title (reader : SlideReader) (text : Text) :
    (reader.addMarkdown text).title = reader.title := by
  rw [addMarkdown]
  split <;> rfl

@[simp]
theorem addMarkdown_notes (reader : SlideReader) (text : Text) :
    (reader.addMarkdown text).notes = reader.notes := by
  rw [addMarkdown]
  split <;> rfl

@[simp]
theorem addMarkdown_slides (reader : SlideReader) (text : Text) :
    (reader.addMarkdown text).slides = reader.slides := by
  rw [addMarkdown]
  split <;> rfl

/-- Nothing is shown yet exactly when there is no title and no block. -/
theorem Drafts.shown_eq_nil_iff (drafts : Drafts reader group) :
    reader.title = none ∧ reader.blocks = [] ↔ Event.shown group = [] := by
  rw [drafts.title, drafts.blocks.eq_nil_iff]
  constructor
  · exact fun h => Event.shown_eq_nil h.1 h.2
  · intro h
    rw [Event.slideTitle?, Event.slideBody, h]
    exact ⟨rfl, rfl⟩

theorem filterMap_concat_of_none (hnote : event.presenterNote? = none) :
    (group ++ [event]).filterMap Event.presenterNote? = group.filterMap Event.presenterNote? := by
  rw [List.filterMap_append, List.filterMap_cons_none hnote, List.filterMap_nil, List.append_nil]

/-- A line that is shown below the title. -/
theorem Drafts.addMarkdown {text : Text} (drafts : Drafts reader group)
    (hline : event.markdown? = some text) (hnote : event.presenterNote? = none)
    (h : Event.shown group ≠ [] ∨ ∀ depth title, event ≠ .heading depth title) :
    Drafts (reader.addMarkdown text) (group ++ [event]) := by
  obtain ⟨htitle, hbody⟩ := Event.slideTitle?_concat hnote h
  constructor
  case title => rw [addMarkdown_title, drafts.title, htitle]
  case blocks =>
    rw [hbody]
    exact drafts.blocks.addMarkdown hline
  case notes => rw [addMarkdown_notes, drafts.notes, filterMap_concat_of_none hnote]

/-- A note or a task is shown below the title. -/
theorem Drafts.addBlock {block : SlideBlock} (drafts : Drafts reader group)
    (shows : SlideBlock.Shows [event] block) (hblock : block.isMarkdown = false)
    (hnote : event.presenterNote? = none) (h : ∀ depth title, event ≠ .heading depth title) :
    Drafts { reader with blocks := block :: reader.blocks } (group ++ [event]) := by
  obtain ⟨htitle, hbody⟩ := Event.slideTitle?_concat hnote (.inr h)
  constructor
  case title => rw [htitle, ← drafts.title]
  case blocks =>
    rw [hbody]
    exact drafts.blocks.addBlock shows hblock
  case notes => rw [filterMap_concat_of_none hnote, ← drafts.notes]

/-- A heading is the title of a slide of which nothing is shown yet, and else a line. -/
theorem Drafts.addHeading (drafts : Drafts reader group) (depth : Nat) (title : Text) :
    Drafts (reader.addHeading depth title) (group ++ [.heading depth title]) := by
  -- The title of the deck does not matter for the slide.
  have hslide : ∀ reader : SlideReader, Drafts reader group →
      Drafts (if reader.title.isNone && reader.blocks.isEmpty then
          { reader with title := some title }
        else reader.addMarkdown (Section.headingText depth title))
        (group ++ [.heading depth title]) := by
    intro reader drafts
    by_cases hempty : (reader.title.isNone && reader.blocks.isEmpty) = true
    · rw [if_pos hempty]
      rw [Bool.and_eq_true, Option.isNone_iff_eq_none, List.isEmpty_iff] at hempty
      have hshown := drafts.shown_eq_nil_iff.mp hempty
      obtain ⟨htitle, hbody⟩ := Event.slideTitle?_concat_heading hshown depth title
      constructor
      case title => exact htitle.symm
      case blocks =>
        show SlideBlock.Lists reader.blocks _
        rw [hbody, hempty.2]
        exact ⟨.nil, [], rfl, .nil⟩
      case notes => rw [filterMap_concat_of_none rfl, ← drafts.notes]
    · rw [if_neg hempty]
      rw [Bool.and_eq_true, Option.isNone_iff_eq_none, List.isEmpty_iff,
        drafts.shown_eq_nil_iff] at hempty
      exact drafts.addMarkdown rfl rfl (.inl hempty)
  apply hslide
  by_cases hdeck : (depth = 1 && reader.deckTitle.isNone) = true
  · rw [if_pos hdeck]
    exact ⟨drafts.title, drafts.blocks, drafts.notes⟩
  · rw [if_neg hdeck]
    exact drafts

/-- Every event but a thematic break goes on with the slide. -/
theorem Drafts.read (drafts : Drafts reader group) (hbreak : event ≠ .thematicBreak) :
    Drafts (reader.read event) (group ++ [event]) := by
  cases event with
  | heading depth title => exact drafts.addHeading depth title
  | thematicBreak => exact absurd rfl hbreak
  | prose text => exact drafts.addMarkdown rfl rfl (.inr fun _ _ => nofun)
  | directive offset directive =>
    cases directive with
    | note content => exact drafts.addBlock (.note offset content) rfl rfl fun _ _ => nofun
    | task task => exact drafts.addBlock (.task offset task) rfl rfl fun _ _ => nofun
    | presenterNote content =>
      have hshown := @Event.shown_concat_of_note group
        (.directive offset (.presenterNote content)) content rfl
      constructor
      case title =>
        rw [Event.slideTitle?, hshown]
        exact drafts.title
      case blocks =>
        rw [Event.slideBody, hshown]
        exact drafts.blocks
      case notes =>
        rw [List.filterMap_append, ← drafts.notes]
        exact List.reverse_cons

/-- Within a slide no other slide is ended. -/
theorem read_slides (reader : SlideReader) (hbreak : event ≠ .thematicBreak) :
    (reader.read event).slides = reader.slides := by
  cases event with
  | heading depth title =>
    rw [SlideReader.read, SlideReader.addHeading]
    by_cases hdeck : (depth = 1 && reader.deckTitle.isNone) = true
    · simp only [if_pos hdeck]
      split
      · rfl
      · exact addMarkdown_slides _ _
    · simp only [if_neg hdeck]
      split
      · rfl
      · exact addMarkdown_slides _ _
  | thematicBreak => exact absurd rfl hbreak
  | prose text => exact addMarkdown_slides _ _
  | directive offset directive => cases directive <;> rfl

/-- Ending a slide makes one of the group, unless it is empty. -/
theorem Drafts.endSlide (drafts : Drafts reader group) :
    Drafts reader.endSlide [] ∧ ∃ made, reader.endSlide.slides.reverse =
      reader.slides.reverse ++ made ∧
      List.Forall₂ Slide.Shows ([group].filter fun group => !group.isEmpty) made := by
  have hempty : (reader.title.isNone && reader.blocks.isEmpty && reader.notes.isEmpty) = true ↔
      group = [] := by
    rw [Bool.and_eq_true, Bool.and_eq_true, Option.isNone_iff_eq_none, List.isEmpty_iff,
      List.isEmpty_iff, drafts.shown_eq_nil_iff, ← @List.reverse_eq_nil_iff _ reader.notes,
      drafts.notes]
    constructor
    · exact fun h => Event.eq_nil_of_shown h.1 h.2
    · rintro rfl
      exact ⟨rfl, rfl⟩
  rw [SlideReader.endSlide]
  by_cases hnone : group = []
  · rw [if_pos (hempty.mpr hnone), hnone]
    rw [hnone] at drafts
    exact ⟨drafts, [], (List.append_nil _).symm, .nil⟩
  · have hfull := (not_congr hempty).mpr hnone
    have hgroup : ([group].filter fun group => !group.isEmpty) = [group] := by
      simp [hnone]
    rw [if_neg hfull, hgroup]
    refine ⟨⟨rfl, ⟨.nil, [], rfl, .nil⟩, rfl⟩, [_], List.reverse_cons, .cons ?_ .nil⟩
    obtain ⟨apart, parts, hparts, shows⟩ := drafts.blocks
    have hchain : reader.blocks.reverse.IsChain SlideBlock.Apart := by
      rw [List.isChain_reverse]
      refine apart.imp fun first second h => ?_
      show (second.isMarkdown && first.isMarkdown) = false
      rw [Bool.and_comm]
      exact h
    have hshows := List.forall₂_reverse_iff.mpr shows
    constructor
    case title => exact drafts.title
    case blocks =>
      rw [← hparts, SlideBlock.runs_flatten hshows hchain]
      exact hshows
    case presenterNotes => exact drafts.notes
    case apart => exact hchain
    case full =>
      rw [Bool.and_eq_true, Bool.and_eq_true, Option.isNone_iff_eq_none, List.isEmpty_iff,
        List.isEmpty_iff] at hfull
      by_contra hslide
      simp only [ne_eq, not_or, not_not, List.reverse_eq_nil_iff] at hslide
      exact hfull ⟨⟨hslide.1, hslide.2.1⟩, hslide.2.2⟩

/-- Reading on in a slide makes slides of the groups of what is read, the first of which goes on with
the group that has been begun. -/
theorem Drafts.foldl_read (drafts : Drafts reader group) (events : List Event) :
    ∃ made, (events.foldl SlideReader.read reader).endSlide.slides.reverse =
      reader.slides.reverse ++ made ∧
      List.Forall₂ Slide.Shows (((events.splitOn .thematicBreak).modifyHead (group ++ ·)).filter
        fun group => !group.isEmpty) made := by
  induction events generalizing reader group with
  | nil =>
    obtain ⟨_, hmade⟩ := drafts.endSlide
    rw [List.splitOn_nil, List.modifyHead_cons, List.append_nil]
    exact hmade
  | cons event rest ih =>
    rw [List.foldl_cons, List.splitOn_cons_eq_if_modifyHead]
    by_cases hbreak : event = .thematicBreak
    · obtain ⟨hempty, ended, hended, hgroup⟩ := drafts.endSlide
      obtain ⟨made, hmade, hgroups⟩ := ih hempty
      rw [hbreak, if_pos (beq_self_eq_true _)]
      refine ⟨ended ++ made, ?_, ?_⟩
      · rw [← List.append_assoc, ← hended]
        exact hmade
      · rw [List.modifyHead_cons, List.append_nil, ← List.singleton_append, List.filter_append]
        apply List.rel_append hgroup
        obtain ⟨first, others, hsplit⟩ :=
          List.exists_cons_of_ne_nil (List.splitOn_ne_nil Event.thematicBreak rest)
        rw [hsplit] at hgroups ⊢
        exact hgroups
    · obtain ⟨made, hmade, hgroups⟩ := ih (drafts.read hbreak)
      rw [read_slides reader hbreak] at hmade
      refine ⟨made, hmade, ?_⟩
      rw [if_neg (by simpa using hbreak), List.modifyHead_modifyHead]
      have happend : (fun others => group ++ event :: others) = (group ++ [event] ++ ·) := by
        funext others
        rw [List.append_assoc, List.singleton_append]
      show List.Forall₂ _ (((rest.splitOn _).modifyHead fun others => group ++ event :: others).filter
        _) _
      rw [happend]
      exact hgroups

end SlideReader

/-- The slides of a deck are the groups of events between thematic breaks, one for each group that is
not empty and in their order. A slide has the first heading as its title, if nothing else is shown
before it, and its notes for the presenter. Its blocks show the rest, one for each note and task and
one for each maximal run of prose and headings, so that no two blocks of Markdown are adjacent. No slide
is empty. -/
theorem SlideDeck.ofEvents_partitions (events : List Event) :
    List.Forall₂ Slide.Shows (Event.slideGroups events) (ofEvents events).slides := by
  have initial : SlideReader.Drafts .initial [] := ⟨rfl, ⟨.nil, [], rfl, .nil⟩, rfl⟩
  obtain ⟨made, hmade, hgroups⟩ := initial.foldl_read events
  rw [SlideDeck.ofEvents]
  show List.Forall₂ _ _ (List.reverse _)
  rw [hmade, Event.slideGroups]
  obtain ⟨first, others, hsplit⟩ :=
    List.exists_cons_of_ne_nil (List.splitOn_ne_nil Event.thematicBreak events)
  rw [hsplit] at hgroups ⊢
  exact hgroups

/-- A note for the presenter does not part the lines around it. -/
example : (SlideDeck.ofEvents [.heading 1 ['T'], .prose ['p'],
      .directive 5 (.presenterNote ['n']), .heading 3 ['h'], .thematicBreak, .thematicBreak,
      .directive 20 (.note ['m'])]).slides =
    [⟨some ['T'], [.markdown "p\n\n### h".toList], [['n']]⟩, ⟨none, [.note ['m']], []⟩] := by
  decide

end Courseware
