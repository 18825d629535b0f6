import Courseware.Proofs.Document.Entry
import Courseware.Proofs.Document.Sections

/-!
# The order of a section

What a section holds can be read back from its items. This module compares what is read back with the
events of the section, and says exactly when the two come in the same order.

Prose that follows tasks waits until it is known whether it introduces further tasks. If none follow,
it becomes information, and it is placed before the task set after which it was written, because the
set is still open then. So the order of a section is kept unless prose after a task is followed by a
heading, a note or the end; `Event.strandsProse` looks for such prose.
-/

namespace Courseware

/-! ## Reading a section back -/

/-- The entries of a task set: its introduction, then its tasks. -/
def TaskSet.entries (set : TaskSet) : List Entry :=
  set.intro.toList.map .prose ++ set.tasks.map .task

/-- The entries of an item. -/
def Item.entries : Item → List Entry
  | info _ text => [.prose text]
  | taskSet set => set.entries
  | note content => [.note content]

/-- A task that is put into a set comes last. -/
theorem TaskSet.entries_append_task (set : TaskSet) (task : Task) :
    entries { set with tasks := set.tasks ++ [task] } = set.entries ++ [.task task] := by
  rw [entries, entries, List.map_append, List.append_assoc]
  rfl

namespace Event

/-- What is met in a section when an event is. Headings are kept as titles, and no section holds notes
for the presenter. -/
def entry? : Event → Option Entry
  | heading .. => none
  | thematicBreak => some (.prose ['-', '-', '-'])
  | prose text => some (.prose text)
  | directive _ (.task task) => some (.task task)
  | directive _ (.note content) => some (.note content)
  | directive _ (.presenterNote _) => none

/-- Whether there is prose, waiting or at the start of the events, that introduces no task: a heading,
a note or the end comes first. -/
def leavesProse (waiting : Bool) : List Event → Bool
  | [] => waiting
  | heading .. :: _ => waiting
  | thematicBreak :: rest => leavesProse true rest
  | prose _ :: rest => leavesProse true rest
  | directive _ (.task _) :: _ => false
  | directive _ (.note _) :: _ => waiting
  | directive _ (.presenterNote _) :: rest => leavesProse waiting rest

/-- Whether prose that introduces no task follows a task. -/
def strandsProse : List Event → Bool
  | [] => false
  | directive _ (.task _) :: rest => leavesProse false rest || strandsProse rest
  | _ :: rest => strandsProse rest

end Event

namespace Section

/-- What has been read of a section, as it will be placed among its items if a task follows. -/
def entries (draft : Section) : List Entry :=
  draft.items.reverse.flatMap Item.entries ++ draft.openSet.toList.flatMap TaskSet.entries ++
    draft.waiting.reverse.map .prose

/-- Whether prose waits that follows the tasks of an open set. -/
def strandsProse (draft : Section) : Bool := draft.openSet.isSome && !draft.waiting.isEmpty

/-- A section has read some entries. Whether prose was moved on the way is recorded, and an open task
set has tasks, so prose that is placed before it does move. -/
structure Follows (draft : Section) (moved : Bool) (read : List Entry) : Prop where
  agree : Entry.Agree moved draft.entries read
  filled : ∀ set ∈ draft.openSet, 0 < Entry.marks set.entries

variable {draft : Section} {moved : Bool} {read : List Entry}

/-- The section as it is when waiting prose is made information and the open set is closed. -/
def settled (draft : Section) : Section := draft.flushProse.closeSet

theorem settled_waiting (draft : Section) : draft.settled.waiting = [] := by
  unfold settled closeSet flushProse
  split <;> split <;> simp_all

theorem settled_openSet (draft : Section) : draft.settled.openSet = none := by
  unfold settled closeSet
  split
  · assumption
  · rfl

/-- The prose that waits, as one text. -/
def paragraph (waiting : List Text) : List Entry :=
  if waiting.isEmpty then [] else [.prose (paragraphs waiting)]

theorem joined_paragraph (waiting : List Text) :
    Entry.joined (paragraph waiting) = Entry.joined (waiting.reverse.map .prose) := by
  cases waiting with
  | nil => rfl
  | cons latest earlier => exact (Entry.joined_map_prose (by simp)).symm

/-- A section that has been settled has all it has read among its items, with the prose that waited
before the tasks of the open set. -/
theorem settled_entries (draft : Section) :
    draft.settled.entries = draft.items.reverse.flatMap Item.entries ++
      paragraph draft.waiting ++ draft.openSet.toList.flatMap TaskSet.entries := by
  rw [entries, settled_waiting, settled_openSet]
  obtain ⟨kind, title, items, text, waiting, subtitle, openSet, hasTasks⟩ := draft
  cases waiting <;> cases openSet <;>
    simp [settled, flushProse, closeSet, paragraph, Item.entries]

/-! ### What each event does -/

namespace Follows

/-- Settling places waiting prose before the open set, so it moves prose exactly when there is such a
set and such prose. -/
theorem settled (follows : Follows draft moved read) :
    Follows draft.settled (moved || draft.strandsProse) read := by
  obtain ⟨agree, filled⟩ := follows
  refine ⟨?_, by simp [settled_openSet]⟩
  have hwaiting := agree.congr (Entry.joined_append_congr rfl (joined_paragraph draft.waiting))
  rw [settled_entries]
  by_cases hempty : draft.waiting.isEmpty
  · rw [paragraph, if_pos hempty, List.append_nil] at hwaiting ⊢
    rwa [strandsProse, hempty, Bool.not_true, Bool.and_false, Bool.or_false]
  · rw [paragraph, if_neg hempty] at hwaiting ⊢
    rw [Bool.not_eq_true] at hempty
    rw [strandsProse, hempty, Bool.not_false, Bool.and_true]
    cases hset : draft.openSet with
    | none =>
      rw [hset, Option.toList_none, List.flatMap_nil, List.append_nil] at hwaiting
      rwa [Option.isSome_none, Bool.or_false, Option.toList_none, List.flatMap_nil, List.append_nil]
    | some set =>
      have hmarks : 0 < Entry.marks ([set].flatMap TaskSet.entries) := by
        rw [List.flatMap_singleton]
        exact filled set hset
      rw [hset] at hwaiting
      rw [Option.isSome_some, Bool.or_true]
      exact hwaiting.move hmarks

/-- A heading settles the section. -/
theorem addHeading (follows : Follows draft moved read) (depth : Nat) (title : Text) :
    Follows (draft.addHeading depth title) (moved || draft.strandsProse) read :=
  ⟨follows.settled.agree, follows.settled.filled⟩

/-- Prose is read after all that was read before it. -/
theorem addProse (follows : Follows draft moved read) (text : Text) :
    Follows (draft.addProse text) moved (read ++ [.prose text]) := by
  refine ⟨?_, follows.filled⟩
  have hentries : (draft.addProse text).entries = draft.entries ++ [.prose text] := by
    simp [Section.entries, Section.addProse]
  rw [hentries]
  exact follows.agree.append _

/-- A note settles the section and comes after it. -/
theorem addNote (follows : Follows draft moved read) (content : Text) :
    Follows (draft.addNote content) (moved || draft.strandsProse) (read ++ [.note content]) := by
  refine ⟨?_, follows.settled.filled⟩
  have hentries : (draft.addNote content).entries = draft.settled.entries ++ [.note content] := by
    show (Item.note content :: draft.settled.items).reverse.flatMap Item.entries ++
      draft.settled.openSet.toList.flatMap TaskSet.entries ++
        draft.settled.waiting.reverse.map .prose = _
    rw [Section.entries, settled_waiting, settled_openSet]
    simp [Item.entries]
  rw [hentries]
  exact follows.settled.agree.append _

/-- A task comes after all that was read before it: prose that waits introduces it. -/
theorem addTask (follows : Follows draft moved read) (task : Task) :
    Follows (draft.addTask task) moved (read ++ [.task task]) := by
  have hnext := follows.agree.append [.task task]
  obtain ⟨kind, title, items, text, waiting, subtitle, openSet, hasTasks⟩ := draft
  cases waiting with
  | nil =>
    cases openSet with
    | some set =>
      refine ⟨hnext.congr (congrArg Entry.joined ?_), ?_⟩
      · simp [Section.entries, Section.addTask, TaskSet.entries_append_task]
      · rintro _ ⟨⟩
        rw [TaskSet.entries_append_task]
        exact Entry.marks_append_task _ _
    | none =>
      refine ⟨hnext.congr (congrArg Entry.joined ?_), ?_⟩
      · simp [Section.entries, Section.addTask, TaskSet.entries]
      · rintro _ ⟨⟩
        exact Entry.marks_append_task [] task
  | cons latest earlier =>
    refine ⟨hnext.congr ?_, ?_⟩
    · have hentries : (Section.addTask ⟨kind, title, items, text, latest :: earlier, subtitle, openSet,
          hasTasks⟩ task).entries = items.reverse.flatMap Item.entries ++
            openSet.toList.flatMap TaskSet.entries ++ paragraph (latest :: earlier) ++
              [.task task] := by
        cases openSet <;>
          simp [Section.entries, Section.addTask, closeSet, paragraph, Item.entries, TaskSet.entries]
      rw [hentries]
      exact Entry.joined_append_congr
        (Entry.joined_append_congr rfl (joined_paragraph (latest :: earlier))) rfl
    · cases openSet <;> rintro _ ⟨⟩ <;>
        exact Entry.marks_append_task [.prose (paragraphs (latest :: earlier))] task

end Follows

/-! ### Whole sections -/

theorem addTask_openSet (draft : Section) (task : Task) :
    (draft.addTask task).openSet.isSome = true := by
  unfold addTask
  simp only
  split
  · split <;> rfl
  · rfl

theorem addTask_waiting (draft : Section) (task : Task) : (draft.addTask task).waiting = [] := by
  obtain ⟨kind, title, items, text, waiting, subtitle, openSet, hasTasks⟩ := draft
  cases waiting <;> cases openSet <;> rfl

/-- A section that has read some entries and reads events to its end has read their entries too. Prose is
moved on the way where it waits behind an open task set and introduces no task, and where the events
themselves strand prose. -/
theorem Follows.foldl_read (follows : Follows draft moved read) (events : List Event) :
    Follows (events.foldl Section.read draft).settled
      (moved || (draft.openSet.isSome && Event.leavesProse (!draft.waiting.isEmpty) events) ||
        Event.strandsProse events)
      (read ++ events.filterMap Event.entry?) := by
  induction events generalizing draft moved read with
  | nil =>
    rw [List.filterMap_nil, List.append_nil, Event.strandsProse, Bool.or_false]
    exact follows.settled
  | cons event rest ih =>
    cases event with
    | heading depth title =>
      have hrest := ih (follows.addHeading depth title)
      have hclosed : (draft.addHeading depth title).openSet = none := settled_openSet draft
      rw [hclosed, Option.isSome_none, Bool.false_and, Bool.or_false] at hrest
      exact hrest
    | thematicBreak =>
      have hrest := ih (follows.addProse ['-', '-', '-'])
      rw [List.append_assoc] at hrest
      exact hrest
    | prose text =>
      have hrest := ih (follows.addProse text)
      rw [List.append_assoc] at hrest
      exact hrest
    | directive offset directive =>
      cases directive with
      | presenterNote content => exact ih follows
      | note content =>
        have hrest := ih (follows.addNote content)
        have hclosed : (draft.addNote content).openSet = none := settled_openSet draft
        rw [hclosed, Option.isSome_none, Bool.false_and, Bool.or_false, List.append_assoc] at hrest
        exact hrest
      | task task =>
        have hrest := ih (follows.addTask task)
        rw [addTask_openSet, addTask_waiting, Bool.true_and, List.append_assoc,
          Bool.or_assoc] at hrest
        simp only [Event.leavesProse, Bool.and_false, Bool.or_false]
        exact hrest

/-- A section with tasks reads like its events exactly when they strand no prose. -/
theorem joined_entries_categoryOf {passage : Text × List Event} {kind : CategoryKind} {title : Text}
    {items : List Item} (h : categoryOf passage = .tasks kind title items) :
    Entry.joined (items.flatMap Item.entries) =
        Entry.joined (passage.2.filterMap Event.entry?) ↔
      Event.strandsProse passage.2 = false := by
  have begun : Follows (.begin passage.1) false [] := ⟨⟨rfl, rfl⟩, by simp [Section.begin]⟩
  have follows := begun.foldl_read passage.2
  have hitems : items.flatMap Item.entries =
      (passage.2.foldl Section.read (.begin passage.1)).settled.entries := by
    rw [categoryOf, category] at h
    split at h
    · cases h
      rw [Section.entries, settled_waiting, settled_openSet]
      simp [Section.settled]
    · exact nomatch h
  rw [hitems]
  exact follows.agree.joined_eq_iff

end Section

namespace SectionedDocument

/-- When the order of a document is kept. The categories of a document are those of its sections, after
at most one category without title for tasks before any heading; and a section with tasks, read back
item by item, gives its prose, breaks, tasks and notes in the order of the document exactly when no
prose after a task is followed by a heading, a note or the end of the section before any further
task. -/
theorem ofEvents_keeps_order_iff {events : List Event} {document : SectionedDocument}
    (accepted : ofEvents events = .ok document) :
    (∃ preamble : List Category, preamble.length ≤ 1 ∧
      (∀ category ∈ preamble, category.title = []) ∧
      document.categories = preamble ++
        (Event.sections (Event.afterTitle events)).map Section.categoryOf) ∧
    ∀ passage ∈ Event.sections (Event.afterTitle events), ∀ kind title items,
      Section.categoryOf passage = .tasks kind title items →
        (Entry.joined (items.flatMap Item.entries) =
            Entry.joined (passage.2.filterMap Event.entry?) ↔
          Event.strandsProse passage.2 = false) :=
  ⟨categories_of_ofEvents accepted, fun _ _ _ _ _ h => Section.joined_entries_categoryOf h⟩

/-- Prose before a task introduces it, so a section of the two keeps its order. -/
theorem ofEvents_keeps_order_iff_introduced :
    ∃ document, ofEvents [.heading 2 ['A'], .prose ['p'],
        .directive 7 (.task (.text ['d'] none none))] = .ok document ∧
      Entry.joined (([.taskSet ⟨none, some ['p'], [.text ['d'] none none]⟩] :
          List Item).flatMap Item.entries) =
        Entry.joined (([.prose ['p'], .directive 7 (.task (.text ['d'] none none))] :
          List Event).filterMap Event.entry?) := by
  have accepted : ofEvents [.heading 2 ['A'], .prose ['p'],
      .directive 7 (.task (.text ['d'] none none))] =
        .ok ⟨none, none, [.tasks .core ['A']
          [.taskSet ⟨none, some ['p'], [.text ['d'] none none]⟩]]⟩ := rfl
  have order := (ofEvents_keeps_order_iff accepted).2 (['A'], [.prose ['p'],
    .directive 7 (.task (.text ['d'] none none))]) (by decide) .core ['A'] _ rfl
  exact ⟨_, accepted, order.mpr rfl⟩

/-- The order of a document is not kept in general: prose at the end of a section is placed before the
task that it follows. -/
theorem ofEvents_moves_prose :
    ¬∀ (events : List Event) (document : SectionedDocument), ofEvents events = .ok document →
      ∀ passage ∈ Event.sections (Event.afterTitle events), ∀ kind title items,
        Section.categoryOf passage = .tasks kind title items →
          Entry.joined (items.flatMap Item.entries) =
            Entry.joined (passage.2.filterMap Event.entry?) := by
  intro kept
  have accepted : ofEvents [.heading 2 ['A'], .directive 6 (.task (.text ['d'] none none)),
      .prose ['p']] = .ok ⟨none, none, [.tasks .core ['A']
        [.info ['A'] ['p'], .taskSet ⟨none, none, [.text ['d'] none none]⟩]]⟩ := rfl
  have moved := kept _ _ accepted (['A'], [.directive 6 (.task (.text ['d'] none none)),
    .prose ['p']]) (by decide) .core ['A'] _ rfl
  exact absurd moved (by decide)

end SectionedDocument
end Courseware
