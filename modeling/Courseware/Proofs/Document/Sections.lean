import Courseware.Document.Compile
import Courseware.Proofs.Except
import Mathlib.Data.List.Forall2

/-!
# The sections of a document

A document is read event by event, and a heading may end one section and begin another. Here the
same document is given without a reader. `Event.withoutTitle` leaves out the heading that is the
title, and `Event.sections` divides the other events at the headings that begin sections. Each
category is what its own events make, and the directives before any section make one more if there
are tasks among them; `SectionedDocument.categories_of_ofEvents` shows that these are the categories
that are read. What happens inside a category can then be proved of a section alone, and
`SectionedDocument.Divides` says of a document what is proved of its parts.
-/

namespace Courseware

namespace Event

/-- The title of the section that an event begins. -/
def begins? : Event → Option Text
  | heading depth title => if depth ≤ 2 then some title else none
  | _ => none

/-- The events up to the next section. -/
def untilSection (events : List Event) : List Event :=
  events.takeWhile fun event => event.begins?.isNone

/-- The sections that headings begin, each with its title and the events up to the next section. -/
def sections : List Event → List (Text × List Event)
  | [] => []
  | event :: rest =>
    match event.begins? with
    | some title => (title, untilSection rest) :: sections rest
    | none => sections rest

/-- What is left of the events of a document after its title. The title is a heading of depth one
before any section; a document without title keeps all its sections. -/
def afterTitle : List Event → List Event
  | [] => []
  | heading depth title :: rest =>
    if depth = 1 then rest
    else if depth ≤ 2 then heading depth title :: rest
    else afterTitle rest
  | _ :: rest => afterTitle rest

/-- The title of a document. The first heading that would begin a section is one if its depth is
one. -/
def title? : List Event → Option Text
  | [] => none
  | heading depth title :: rest =>
    if depth = 1 then some title
    else if depth ≤ 2 then none
    else title? rest
  | _ :: rest => title? rest

/-- The events of a document but for its title. -/
def withoutTitle : List Event → List Event
  | [] => []
  | heading depth title :: rest =>
    if depth = 1 then rest
    else if depth ≤ 2 then heading depth title :: rest
    else heading depth title :: withoutTitle rest
  | event :: rest => event :: withoutTitle rest

/-- What stands before the first section of a document. -/
def preamble (events : List Event) : List Event := untilSection (withoutTitle events)

/-- The sections of a document. -/
def passages (events : List Event) : List (Text × List Event) := sections (withoutTitle events)

/-- Whether an event is a directive. -/
def isDirective : Event → Bool
  | directive .. => true
  | _ => false

/-- No event is a note for the presenter. -/
def Clear (events : List Event) : Prop :=
  ∀ offset content, directive offset (.presenterNote content) ∉ events

/-- The task that an event is. -/
def task? : Event → Option Task
  | directive _ (.task task) => some task
  | _ => none

variable {event : Event}

theorem untilSection_of_begins {title : Text} (h : event.begins? = some title) (rest : List Event) :
    untilSection (event :: rest) = [] :=
  List.takeWhile_cons_of_neg (by simp [h])

theorem untilSection_of_inside (h : event.begins? = none) (rest : List Event) :
    untilSection (event :: rest) = event :: untilSection rest :=
  List.takeWhile_cons_of_pos (by simp [h])

theorem sections_of_begins {title : Text} (h : event.begins? = some title) (rest : List Event) :
    sections (event :: rest) = (title, untilSection rest) :: sections rest := by
  rw [sections, h]

theorem sections_of_inside (h : event.begins? = none) (rest : List Event) :
    sections (event :: rest) = sections rest := by
  rw [sections, h]

theorem two_lt_of_inside {depth : Nat} {title : Text} (h : (heading depth title).begins? = none) :
    2 < depth := by
  by_cases hdepth : depth ≤ 2
  · rw [begins?, if_pos hdepth] at h
    exact nomatch h
  · exact Nat.lt_of_not_le hdepth

theorem exists_of_begins?_eq_some {title : Text} (h : event.begins? = some title) :
    ∃ depth, event = heading depth title ∧ depth ≤ 2 := by
  cases event with
  | heading depth name =>
    rw [begins?] at h
    split at h
    · next hdepth =>
      obtain rfl := Option.some.inj h
      exact ⟨depth, rfl, hdepth⟩
    · exact nomatch h
  | thematicBreak => exact nomatch h
  | prose text => exact nomatch h
  | directive offset directive => exact nomatch h

/-- The title is looked for past whatever begins no section. -/
theorem title?_of_inside (h : event.begins? = none) (rest : List Event) :
    title? (event :: rest) = title? rest := by
  cases event with
  | heading depth title =>
    have hdepth := two_lt_of_inside h
    rw [title?, if_neg (by omega), if_neg (by omega)]
  | thematicBreak => rfl
  | prose text => rfl
  | directive offset directive => rfl

theorem withoutTitle_of_inside (h : event.begins? = none) (rest : List Event) :
    withoutTitle (event :: rest) = event :: withoutTitle rest := by
  cases event with
  | heading depth title =>
    have hdepth := two_lt_of_inside h
    rw [withoutTitle, if_neg (by omega), if_neg (by omega)]
  | thematicBreak => rfl
  | prose text => rfl
  | directive offset directive => rfl

/-- Nothing before the title begins a section. -/
theorem sections_afterTitle (events : List Event) :
    sections (afterTitle events) = passages events := by
  unfold passages
  induction events with
  | nil => rfl
  | cons event rest ih =>
    cases event with
    | heading depth title =>
      rw [afterTitle, withoutTitle]
      split
      · rfl
      · split
        · rfl
        · next hdepth =>
          have hinside : (heading depth title).begins? = none := if_neg hdepth
          rw [ih, sections_of_inside hinside]
    | thematicBreak => exact ih
    | prose text => exact ih
    | directive offset directive => exact ih

theorem Clear.head {rest : List Event} (clear : Clear (event :: rest)) (offset : Nat)
    (content : Text) : event ≠ directive offset (.presenterNote content) := by
  rintro rfl
  exact clear offset content List.mem_cons_self

theorem Clear.tail {rest : List Event} (clear : Clear (event :: rest)) : Clear rest :=
  fun offset content h => clear offset content (List.mem_cons_of_mem event h)

theorem Clear.directives {events : List Event} (clear : Clear events) :
    Clear (events.filter isDirective) :=
  fun offset content h => clear offset content (List.mem_of_mem_filter h)

/-- There is one section for each event that begins one. -/
theorem map_fst_sections (events : List Event) :
    (sections events).map Prod.fst = events.filterMap begins? := by
  induction events with
  | nil => rfl
  | cons event rest ih =>
    cases h : event.begins? with
    | none => rw [sections_of_inside h, List.filterMap_cons_none h, ih]
    | some title => rw [sections_of_begins h, List.filterMap_cons_some h, List.map_cons, ih]

theorem mem_of_mem_untilSection {events : List Event} (h : event ∈ untilSection events) :
    event ∈ events :=
  (List.takeWhile_sublist _).mem h

theorem mem_of_mem_sections {events : List Event} {passage : Text × List Event}
    (hpassage : passage ∈ sections events) (h : event ∈ passage.2) : event ∈ events := by
  induction events with
  | nil => exact nomatch hpassage
  | cons first rest ih =>
    cases hbegins : first.begins? with
    | none =>
      rw [sections_of_inside hbegins] at hpassage
      exact List.mem_cons_of_mem first (ih hpassage)
    | some title =>
      rw [sections_of_begins hbegins] at hpassage
      rcases List.mem_cons.mp hpassage with rfl | hlater
      · exact List.mem_cons_of_mem first (mem_of_mem_untilSection h)
      · exact List.mem_cons_of_mem first (ih hlater)

theorem mem_of_mem_withoutTitle {events : List Event} (h : event ∈ withoutTitle events) :
    event ∈ events := by
  induction events with
  | nil => exact nomatch h
  | cons first rest ih =>
    cases first with
    | heading depth title =>
      rw [withoutTitle] at h
      split at h
      · exact List.mem_cons_of_mem _ h
      · split at h
        · exact h
        · exact List.mem_cons.mpr ((List.mem_cons.mp h).imp_right ih)
    | thematicBreak => exact List.mem_cons.mpr ((List.mem_cons.mp h).imp_right ih)
    | prose text => exact List.mem_cons.mpr ((List.mem_cons.mp h).imp_right ih)
    | directive offset directive => exact List.mem_cons.mpr ((List.mem_cons.mp h).imp_right ih)

end Event

namespace Section

/-- What an event inside a section does to it. Headings that begin a section are not inside one, and
no section takes a note for the presenter. -/
def read (draft : Section) : Event → Section
  | .heading depth title => draft.addHeading depth title
  | .thematicBreak => draft.addProse ['-', '-', '-']
  | .prose text => draft.addProse text
  | .directive _ (.task task) => draft.addTask task
  | .directive _ (.note content) => draft.addNote content
  | .directive _ (.presenterNote _) => draft

/-- The category that a heading and the events after it make. -/
def categoryOf (passage : Text × List Event) : Category :=
  (passage.2.foldl read (begin passage.1)).category

/-- The category of a section in which there is a task. -/
def category? (draft : Section) : Option Category :=
  if draft.hasTasks then some draft.category else none

/-- The category of what stands before any section: only directives are read there. -/
def categoryBefore? (preamble : List Event) : Option Category :=
  ((preamble.filter Event.isDirective).foldl read .implicit).category?

@[simp]
theorem flushProse_title (draft : Section) : draft.flushProse.title = draft.title := by
  unfold flushProse
  split <;> rfl

@[simp]
theorem closeSet_title (draft : Section) : draft.closeSet.title = draft.title := by
  unfold closeSet
  split <;> rfl

@[simp]
theorem addTask_title (draft : Section) (task : Task) :
    (draft.addTask task).title = draft.title := by
  unfold addTask
  simp only
  split
  · split <;> rfl
  · exact closeSet_title _

@[simp]
theorem addNote_title (draft : Section) (content : Text) :
    (draft.addNote content).title = draft.title := by
  rw [addNote]
  exact (closeSet_title _).trans (flushProse_title _)

@[simp]
theorem category_title (draft : Section) : draft.category.title = draft.title := by
  unfold category
  split <;> rfl

/-- Reading on in a section does not change what it is: its title stays. -/
theorem read_title (draft : Section) (event : Event) : (draft.read event).title = draft.title := by
  cases event with
  | heading depth title => exact (closeSet_title _).trans (flushProse_title _)
  | thematicBreak => rfl
  | prose text => rfl
  | directive offset directive =>
    cases directive with
    | task task => exact addTask_title draft task
    | note content => exact addNote_title draft content
    | presenterNote content => rfl

theorem foldl_read_title (draft : Section) (events : List Event) :
    (events.foldl read draft).title = draft.title := by
  induction events generalizing draft with
  | nil => rfl
  | cons event rest ih => rw [List.foldl_cons, ih, read_title]

theorem title_of_categoryBefore? {preamble : List Event} {category : Category}
    (h : category ∈ categoryBefore? preamble) : category.title = [] := by
  unfold categoryBefore? category? at h
  split at h
  · obtain rfl := Option.some.inj h
    rw [category_title, foldl_read_title]
    rfl
  · exact nomatch h

end Section

namespace SectionReader

variable {reader next : SectionReader} {events : List Event}

/-- The categories of the document when reading stops at a reader, first one first. -/
theorem finish_categories (reader : SectionReader) :
    reader.finish.categories = reader.endSection.categories.reverse := rfl

@[simp]
theorem endSection_title (reader : SectionReader) : reader.endSection.title = reader.title := by
  unfold endSection
  split
  · rfl
  · split <;> rfl

/-- What reading an event inside a section does: a heading that begins a section ends this one, and
every other event is read by the section itself. -/
theorem read_of_current {draft : Section} {event : Event} (inside : reader.current = some draft)
    (h : reader.read event = .ok next) :
    (∃ title, event.begins? = some title ∧ next.current = some (.begin title) ∧
      next.categories = draft.category :: reader.categories ∧ next.title = reader.title) ∨
    (event.begins? = none ∧ next.current = some (draft.read event) ∧
      next.categories = reader.categories ∧ next.title = reader.title) := by
  cases event with
  | heading depth title =>
    obtain rfl := Except.ok.inj h
    have hnotTitle : ¬(depth = 1 && reader.title.isNone && reader.current.isNone) = true := by
      simp [inside]
    rw [addHeading, if_neg hnotTitle, Event.begins?]
    by_cases hdepth : depth ≤ 2
    · left
      rw [if_pos hdepth, if_pos hdepth, endSection, inside]
      exact ⟨title, rfl, rfl, rfl, rfl⟩
    · right
      rw [if_neg hdepth, if_neg hdepth, inside]
      exact ⟨rfl, rfl, rfl, rfl⟩
  | thematicBreak =>
    obtain rfl := Except.ok.inj h
    rw [addProse, inside]
    exact .inr ⟨rfl, rfl, rfl, rfl⟩
  | prose text =>
    obtain rfl := Except.ok.inj h
    rw [addProse, inside]
    exact .inr ⟨rfl, rfl, rfl, rfl⟩
  | directive offset directive =>
    cases directive with
    | presenterNote content => exact nomatch h
    | note content =>
      obtain rfl := Except.ok.inj h
      rw [addToSection, inside]
      exact .inr ⟨rfl, rfl, rfl, rfl⟩
    | task task =>
      obtain rfl := Except.ok.inj h
      rw [addToSection, inside]
      exact .inr ⟨rfl, rfl, rfl, rfl⟩

/-- Reading on from inside a section: the section takes the events up to the next one, and from
there on every section is made of its own events. -/
theorem categories_of_current {draft : Section} (inside : reader.current = some draft)
    (h : events.foldlM read reader = .ok next) :
    next.finish.categories = reader.categories.reverse ++
      ((Event.untilSection events).foldl Section.read draft).category ::
        (Event.sections events).map Section.categoryOf := by
  induction events generalizing reader draft with
  | nil =>
    obtain rfl := Except.ok.inj h
    rw [finish_categories, endSection, inside]
    exact List.reverse_cons
  | cons event rest ih =>
    obtain ⟨after, hread, h⟩ := foldlM_cons_eq_ok_iff.mp h
    rcases read_of_current inside hread with
      ⟨title, hbegins, hcurrent, hcategories, _⟩ | ⟨hbegins, hcurrent, hcategories, _⟩
    · rw [ih hcurrent h, hcategories, Event.untilSection_of_begins hbegins,
        Event.sections_of_begins hbegins, List.reverse_cons, List.append_assoc]
      rfl
    · rw [ih hcurrent h, hcategories, Event.untilSection_of_inside hbegins,
        Event.sections_of_inside hbegins, List.foldl_cons]

/-- What is left to be divided into sections: a reader that has no title yet takes one first. -/
def others (reader : SectionReader) (events : List Event) : List Event :=
  if reader.title.isNone then Event.withoutTitle events else events

/-- What reading an event before any section does. A heading that begins a section ends the
introduction, unless it is the title. Of all other events only directives are put into the section
that needs no heading. -/
theorem read_of_outside {event : Event} (outside : reader.current = none)
    (h : reader.read event = .ok next) :
    (∃ depth title, event = .heading depth title ∧ depth ≤ 2 ∧ (reader.title = none → depth ≠ 1) ∧
      next = { reader.endSection with current := some (.begin title) }) ∨
    (∃ title, event = .heading 1 title ∧ reader.title = none ∧
      next = { reader with title := some title }) ∨
    (event.begins? = none ∧ next =
      { reader with
        intro := next.intro
        implicit := if event.isDirective then reader.implicit.read event else reader.implicit }) := by
  cases event with
  | heading depth title =>
    obtain rfl := Except.ok.inj h
    by_cases htitle : (depth = 1 && reader.title.isNone && reader.current.isNone) = true
    · right; left
      rw [addHeading, if_pos htitle]
      simp only [Bool.and_eq_true, decide_eq_true_eq, Option.isNone_iff_eq_none] at htitle
      obtain ⟨⟨rfl, huntitled⟩, _⟩ := htitle
      exact ⟨title, rfl, huntitled, rfl⟩
    · rw [addHeading, if_neg htitle]
      simp only [outside, Option.isNone_none, Bool.and_true, Bool.and_eq_true, decide_eq_true_eq,
        Option.isNone_iff_eq_none, not_and] at htitle
      by_cases hdepth : depth ≤ 2
      · left
        rw [if_pos hdepth]
        exact ⟨depth, title, rfl, hdepth, fun huntitled hone => htitle hone huntitled, rfl⟩
      · right; right
        rw [if_neg hdepth, outside]
        exact ⟨if_neg hdepth, rfl⟩
  | thematicBreak =>
    obtain rfl := Except.ok.inj h
    rw [addProse, outside]
    exact .inr (.inr ⟨rfl, rfl⟩)
  | prose text =>
    obtain rfl := Except.ok.inj h
    rw [addProse, outside]
    exact .inr (.inr ⟨rfl, rfl⟩)
  | directive offset directive =>
    cases directive with
    | presenterNote content => exact nomatch h
    | note content =>
      obtain rfl := Except.ok.inj h
      rw [addToSection, outside]
      exact .inr (.inr ⟨rfl, rfl⟩)
    | task task =>
      obtain rfl := Except.ok.inj h
      rw [addToSection, outside]
      exact .inr (.inr ⟨rfl, rfl⟩)

/-- A heading that begins a section is not left out. -/
theorem others_of_begins {depth : Nat} {title : Text} (hdepth : depth ≤ 2)
    (kept : reader.title = none → depth ≠ 1) (rest : List Event) :
    reader.others (.heading depth title :: rest) = .heading depth title :: rest := by
  unfold others
  split
  · next huntitled =>
    rw [Event.withoutTitle, if_neg (kept (Option.isNone_iff_eq_none.mp huntitled)), if_pos hdepth]
  · rfl

/-- Once there is a title nothing is left out. -/
theorem others_of_isSome {title : Text} (titled : reader.title = some title) (rest : List Event) :
    reader.others rest = rest := by
  rw [others, titled]
  rfl

/-- An event that begins no section is not left out. -/
theorem others_of_inside {event : Event} (h : event.begins? = none) (rest : List Event) :
    reader.others (event :: rest) = event :: reader.others rest := by
  unfold others
  split
  · exact Event.withoutTitle_of_inside h rest
  · rfl

/-- Before any section, ending what is read makes a category of the directives if there are tasks
among them. -/
theorem endSection_of_outside (outside : reader.current = none) (empty : reader.categories = []) :
    reader.endSection.categories.reverse = reader.implicit.category?.toList := by
  unfold endSection Section.category?
  rw [outside]
  simp only
  split
  · rw [empty]
    rfl
  · rw [empty]
    rfl

/-- Reading on from before any section: the directives up to the first section make a category if
there are tasks among them, and then every section is made of its own events. -/
theorem categories_of_outside (outside : reader.current = none) (empty : reader.categories = [])
    (h : events.foldlM read reader = .ok next) :
    next.finish.categories =
      (((Event.untilSection (reader.others events)).filter Event.isDirective).foldl Section.read
        reader.implicit).category?.toList ++
      (Event.sections (reader.others events)).map Section.categoryOf := by
  induction events generalizing reader with
  | nil =>
    obtain rfl := Except.ok.inj h
    have hothers : reader.others [] = [] := by
      unfold others
      split <;> rfl
    rw [finish_categories, endSection_of_outside outside empty, hothers]
    exact (List.append_nil _).symm
  | cons event rest ih =>
    obtain ⟨after, hread, h⟩ := foldlM_cons_eq_ok_iff.mp h
    rcases read_of_outside outside hread with
      ⟨depth, title, rfl, hdepth, kept, rfl⟩ | ⟨title, rfl, huntitled, rfl⟩ | ⟨hbegins, hafter⟩
    · have hbegins : (Event.heading depth title).begins? = some title := if_pos hdepth
      rw [categories_of_current rfl h, endSection_of_outside outside empty,
        others_of_begins hdepth kept, Event.untilSection_of_begins hbegins,
        Event.sections_of_begins hbegins]
      rfl
    · have hothers : reader.others (.heading 1 title :: rest) = rest := by
        rw [others, huntitled]
        rfl
      have htitled : ({ reader with title := some title } : SectionReader).current = none := outside
      rw [ih htitled empty h, hothers, others_of_isSome rfl]
    · have hothers : reader.others (event :: rest) = event :: after.others rest := by
        rw [others_of_inside hbegins, hafter]
        rfl
      rw [hothers, Event.untilSection_of_inside hbegins, Event.sections_of_inside hbegins,
        ih (by rw [hafter, outside]) (by rw [hafter, empty]) h]
      by_cases hdirective : event.isDirective
      · rw [List.filter_cons_of_pos hdirective, List.foldl_cons, hafter, if_pos hdirective]
      · rw [List.filter_cons_of_neg hdirective, hafter, if_neg hdirective]

/-- Nothing that has been read is a note for the presenter. -/
theorem clear_of_foldlM (h : events.foldlM read reader = .ok next) : Event.Clear events := by
  induction events generalizing reader with
  | nil => exact fun _ _ => List.not_mem_nil
  | cons event rest ih =>
    obtain ⟨after, hread, hrest⟩ := foldlM_cons_eq_ok_iff.mp h
    intro offset content hmem
    rcases List.mem_cons.mp hmem with rfl | hlater
    · exact nomatch hread
    · exact ih hrest offset content hlater

/-! ### The title -/

/-- While a section is read there is no new title. -/
theorem title_of_current {draft : Section} (inside : reader.current = some draft)
    (h : events.foldlM read reader = .ok next) : next.title = reader.title := by
  induction events generalizing reader draft with
  | nil =>
    obtain rfl := Except.ok.inj h
    rfl
  | cons event rest ih =>
    obtain ⟨after, hread, h⟩ := foldlM_cons_eq_ok_iff.mp h
    rcases read_of_current inside hread with ⟨_, _, hcurrent, _, htitle⟩ | ⟨_, hcurrent, _, htitle⟩
    · rw [ih hcurrent h, htitle]
    · rw [ih hcurrent h, htitle]

/-- Reading on from before any section takes the title of the events if there is none yet. -/
theorem title_of_outside (outside : reader.current = none)
    (h : events.foldlM read reader = .ok next) :
    next.title = reader.title.or (Event.title? events) := by
  induction events generalizing reader with
  | nil =>
    obtain rfl := Except.ok.inj h
    exact (Option.or_none).symm
  | cons event rest ih =>
    obtain ⟨after, hread, h⟩ := foldlM_cons_eq_ok_iff.mp h
    rcases read_of_outside outside hread with
      ⟨depth, title, rfl, hdepth, kept, rfl⟩ | ⟨title, rfl, huntitled, rfl⟩ | ⟨hbegins, hafter⟩
    · rw [title_of_current rfl h]
      show reader.endSection.title = _
      rw [endSection_title]
      cases htitle : reader.title with
      | none => rw [Option.none_or, Event.title?, if_neg (kept htitle), if_pos hdepth]
      | some first => rfl
    · have htitled : ({ reader with title := some title } : SectionReader).current = none := outside
      rw [ih htitled h, huntitled]
      rfl
    · rw [ih (by rw [hafter, outside]) h, Event.title?_of_inside hbegins, hafter]

end SectionReader

namespace SectionedDocument

variable {events : List Event} {document : SectionedDocument}

/-- The title of a document is that of its events. -/
theorem title_of_ofEvents (accepted : ofEvents events = .ok document) :
    document.title = Event.title? events := by
  obtain ⟨reader, hread, hfinish⟩ := exists_of_bind_eq_ok accepted
  obtain rfl := Except.ok.inj hfinish
  have htitle := SectionReader.title_of_outside rfl hread
  rw [← SectionReader.endSection_title] at htitle
  exact htitle

/-- The categories of a document are those of its sections, after one of the directives before them
if there are tasks among these. -/
theorem categories_eq_of_ofEvents (accepted : ofEvents events = .ok document) :
    document.categories = (Section.categoryBefore? (Event.preamble events)).toList ++
      (Event.passages events).map Section.categoryOf := by
  obtain ⟨reader, hread, hfinish⟩ := exists_of_bind_eq_ok accepted
  obtain rfl := Except.ok.inj hfinish
  exact SectionReader.categories_of_outside rfl rfl hread

/-- The categories of a document are those of its sections, after at most one category without title
for tasks before any of them. -/
theorem categories_of_ofEvents (accepted : ofEvents events = .ok document) :
    ∃ preamble : List Category, preamble.length ≤ 1 ∧
      (∀ category ∈ preamble, category.title = []) ∧
      document.categories = preamble ++
        (Event.sections (Event.afterTitle events)).map Section.categoryOf := by
  refine ⟨(Section.categoryBefore? (Event.preamble events)).toList, ?_, ?_, ?_⟩
  · exact Option.length_toList_le
  · intro category hcategory
    exact Section.title_of_categoryBefore? (Option.mem_toList.mp hcategory)
  · rw [Event.sections_afterTitle]
    exact categories_eq_of_ofEvents accepted

/-- No note for the presenter is among events that make a document. -/
theorem clear_of_ofEvents (accepted : ofEvents events = .ok document) :
    Event.Clear events := by
  obtain ⟨reader, hread, _⟩ := exists_of_bind_eq_ok accepted
  exact SectionReader.clear_of_foldlM hread

/-! ## Documents part by part -/

/-- A document is divided like its events. There may be a category for what stands before any
section, of which `Opens` holds, and there is one category for each section, in order, of which
`Makes` holds. -/
def Divides (document : SectionedDocument) (events : List Event)
    (Opens : List Event → Option Category → Prop) (Makes : Text × List Event → Category → Prop) :
    Prop :=
  ∃ first categories, document.categories = Option.toList first ++ categories ∧
    Opens (Event.preamble events) first ∧
    List.Forall₂ Makes (Event.passages events) categories

/-- What holds of what is read before any section and in each section holds of the document. -/
theorem divides_of_ofEvents {Opens : List Event → Option Category → Prop}
    {Makes : Text × List Event → Category → Prop} (accepted : ofEvents events = .ok document)
    (opens : Event.Clear (Event.preamble events) →
      Opens (Event.preamble events) (Section.categoryBefore? (Event.preamble events)))
    (makes : ∀ passage ∈ Event.passages events, Event.Clear passage.2 →
      Makes passage (Section.categoryOf passage)) : document.Divides events Opens Makes := by
  have clear := clear_of_ofEvents accepted
  refine ⟨_, _, categories_eq_of_ofEvents accepted, opens ?_, ?_⟩
  · intro offset content hmem
    exact clear offset content (Event.mem_of_mem_withoutTitle (Event.mem_of_mem_untilSection hmem))
  · rw [List.forall₂_map_right_iff, List.forall₂_same]
    intro passage hpassage
    refine makes passage hpassage fun offset content hmem => ?_
    exact clear offset content
      (Event.mem_of_mem_withoutTitle (Event.mem_of_mem_sections hpassage hmem))

/-- Where there are as many categories as sections, there is none for what stands before them. -/
theorem Divides.forall₂ {Opens : List Event → Option Category → Prop}
    {Makes : Text × List Event → Category → Prop} (divides : document.Divides events Opens Makes)
    (h : document.categories.length = (Event.passages events).length) :
    List.Forall₂ Makes (Event.passages events) document.categories := by
  obtain ⟨first, categories, hcategories, _, hmakes⟩ := divides
  rw [hcategories] at h ⊢
  cases first with
  | none => exact hmakes
  | some category =>
    rw [hmakes.length_eq] at h
    exact absurd h (Nat.succ_ne_self _)

end SectionedDocument

/-- A tree is made of events, in sections unless it is one of slides. -/
theorem DocumentTree.ofEvents_cases {parsed : ParsedDocument} {context : Context} {events : List Event}
    {tree : DocumentTree} (built : ofEvents parsed context events = .ok tree) :
    (context = .slides ∧ tree = slideDeck (.ofEvents events)) ∨
    (context ≠ .slides ∧ ∃ document, SectionedDocument.ofEvents events = .ok document ∧
      (tree = page document ∨ tree = worksheet document)) := by
  cases context with
  | slides =>
    obtain rfl := Except.ok.inj built
    exact .inl ⟨rfl, rfl⟩
  | page =>
    simp only [ofEvents] at built
    split at built
    · next document haccepted =>
      obtain rfl := Except.ok.inj built
      exact .inr ⟨nofun, document, haccepted, .inl rfl⟩
    · exact nomatch built
  | worksheet =>
    simp only [ofEvents] at built
    split at built
    · next document haccepted =>
      obtain rfl := Except.ok.inj built
      exact .inr ⟨nofun, document, haccepted, .inr rfl⟩
    · exact nomatch built

end Courseware
