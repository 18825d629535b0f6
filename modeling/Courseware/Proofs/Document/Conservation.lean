import Courseware.Proofs.Document.Order
import Mathlib.Algebra.BigOperators.Group.Multiset.Basic
import Mathlib.Algebra.Order.Group.Multiset
import Mathlib.Tactic.Abel

/-!
# No text is lost

Whatever a document in sections is made of is found in it again: prose, breaks and notes as pieces of its
texts or as notes of their own, and tasks in its task sets. Nothing is found twice, and nothing else is
found but some headings, written as text.

Texts are joined when they are put into a document, and what they were joined of cannot be seen from the
outcome. So `Holds` relates a document, a category or an item to the entries that it may have been made
of. While a section is read its text is kept twice, once as a whole and once divided among items;
`Section.Carries` accounts for both, since only the end of the section decides which of the two is used.
-/

namespace Courseware

/-! ## Reading a document back -/

namespace Entry

/-- The text of prose or of a note. -/
def text? : Entry → Option Text
  | prose text | note text => some text
  | task _ => none

/-- The content of a note. -/
def note? : Entry → Option Text
  | note content => some content
  | prose _ | task _ => none

/-- The task that an entry is. -/
def task? : Entry → Option Task
  | task content => some content
  | prose _ | note _ => none

/-- Pieces of prose. -/
def pieces (texts : List Text) : Multiset Entry := (texts.map prose : List Entry)

/-- Entries that are `held` by a document that has `read` some. Texts are all kept, with some of the
`lines` that headings are written as; a note that is held as such has been read as one; and the tasks are
the same. -/
structure Kept (held read : Multiset Entry) (lines : Multiset Text) : Prop where
  texts : ∃ added ≤ lines, held.filterMap text? = read.filterMap text? + added
  notes : held.filterMap note? ≤ read.filterMap note?
  tasks : held.filterMap task? = read.filterMap task?

end Entry

/-- Paragraphs that are written as one text, unless there are none. -/
def introduction? (texts : List Text) : Option Text :=
  if texts.isEmpty then none else some (Text.join ['\n', '\n'] texts)

/-- Parts that hold entries hold these together. -/
def Collects {α : Type} (Holds : α → Multiset Entry → Prop) (parts : List α)
    (held : Multiset Entry) : Prop :=
  ∃ shares : Multiset (Multiset Entry), Multiset.Rel Holds parts shares ∧ shares.sum = held

/-- What an item has been made of. -/
inductive Item.Holds : Item → Multiset Entry → Prop
  | info (title : Text) {texts : List Text} (full : texts ≠ []) :
      Holds (info title (Text.join ['\n', '\n'] texts)) (Entry.pieces texts)
  | taskSet (title : Option Text) (texts : List Text) (tasks : List Task) :
      Holds (taskSet ⟨title, introduction? texts, tasks⟩)
        (Entry.pieces texts + (tasks.map Entry.task : List Entry))
  | note (content : Text) : Holds (note content) {Entry.note content}

/-- What a category has been made of. In one that is information all of it has become text. -/
inductive Category.Holds : Category → Multiset Entry → Prop
  | info (title : Text) (texts : List Text) :
      Holds (info title (Text.join ['\n', '\n'] texts)) (Entry.pieces texts)
  | tasks (kind : CategoryKind) (title : Text) {items : List Item} {held : Multiset Entry}
      (collected : Collects Item.Holds items held) : Holds (tasks kind title items) held

/-- What a document in categories has been made of. -/
def SectionedDocument.Holds (document : SectionedDocument) (held : Multiset Entry) : Prop :=
  ∃ texts collected, document.intro = introduction? texts ∧
    Collects Category.Holds document.categories collected ∧ held = Entry.pieces texts + collected

namespace Event

/-- The entries that events are met as. -/
def entries (events : List Event) : Multiset Entry := (events.filterMap entry? : List Entry)

/-- What a heading inside a section is as text. -/
def subheading? : Event → Option Text
  | heading depth title => if depth ≤ 2 then none else some (Section.headingText depth title)
  | _ => none

/-- The headings inside sections as texts. -/
def subheadings (events : List Event) : Multiset Text := (events.filterMap subheading? : List Text)

theorem entries_cons (event : Event) (rest : List Event) :
    entries (event :: rest) = (event.entry?.toList : Multiset Entry) + entries rest := by
  cases h : event.entry? with
  | none => simp [entries, h]
  | some entry => simp [entries, h]

theorem subheadings_cons (event : Event) (rest : List Event) :
    subheadings (event :: rest) = (event.subheading?.toList : Multiset Text) + subheadings rest := by
  cases h : event.subheading? with
  | none => simp [subheadings, h]
  | some line => simp [subheadings, h]

end Event

/-! ## Adding up -/

section
variable {α : Type} {Holds : α → Multiset Entry → Prop} {parts : List α} {part : α}
  {held share : Multiset Entry}

theorem collects_nil : Collects Holds [] 0 := ⟨0, Multiset.Rel.zero, Multiset.sum_zero⟩

theorem Collects.cons (first : Holds part share) (rest : Collects Holds parts held) :
    Collects Holds (part :: parts) (share + held) := by
  obtain ⟨shares, hrel, rfl⟩ := rest
  exact ⟨share ::ₘ shares, Multiset.Rel.cons first hrel, Multiset.sum_cons share shares⟩

/-- The order of the parts does not matter. -/
theorem Collects.perm {others : List α} (collected : Collects Holds parts held)
    (h : parts.Perm others) : Collects Holds others held := by
  obtain ⟨shares, hrel, hsum⟩ := collected
  rw [Multiset.coe_eq_coe.mpr h] at hrel
  exact ⟨shares, hrel, hsum⟩

theorem Collects.of_cons (collected : Collects Holds (part :: parts) held) :
    ∃ first rest, Holds part first ∧ Collects Holds parts rest ∧ held = first + rest := by
  obtain ⟨shares, hrel, rfl⟩ := collected
  rw [← Multiset.cons_coe, Multiset.rel_cons_left] at hrel
  obtain ⟨first, others, hfirst, hothers, rfl⟩ := hrel
  exact ⟨first, others.sum, hfirst, ⟨others, hothers, rfl⟩, Multiset.sum_cons first others⟩

end

namespace Entry

variable {held held' read read' : Multiset Entry} {lines lines' : Multiset Text} {texts : List Text}

@[simp]
theorem filterMap_text?_pieces : (pieces texts).filterMap text? = texts := by
  simp [pieces, List.filterMap_map, Function.comp_def, text?]

@[simp]
theorem filterMap_note?_pieces : (pieces texts).filterMap note? = 0 := by
  simp [pieces, List.filterMap_map, Function.comp_def, note?]

@[simp]
theorem filterMap_task?_pieces : (pieces texts).filterMap task? = 0 := by
  simp [pieces, List.filterMap_map, Function.comp_def, task?]

@[simp]
theorem pieces_reverse : pieces texts.reverse = pieces texts := by
  rw [pieces, pieces, List.map_reverse, Multiset.coe_reverse]

theorem pieces_append (more : List Text) : pieces (texts ++ more) = pieces texts + pieces more := by
  rw [pieces, List.map_append, ← Multiset.coe_add]
  rfl

theorem pieces_cons (text : Text) : pieces (text :: texts) = prose text ::ₘ pieces texts := rfl

namespace Kept

theorem refl (read : Multiset Entry) (lines : Multiset Text) : Kept read read lines :=
  ⟨⟨0, Multiset.zero_le lines, (add_zero _).symm⟩, le_refl _, rfl⟩

/-- What is kept by two parts is kept by both together. -/
theorem add (first : Kept held read lines) (second : Kept held' read' lines') :
    Kept (held + held') (read + read') (lines + lines') := by
  obtain ⟨added, hle, htexts⟩ := first.texts
  obtain ⟨added', hle', htexts'⟩ := second.texts
  constructor
  case texts =>
    refine ⟨added + added', add_le_add hle hle', ?_⟩
    rw [Multiset.filterMap_add, Multiset.filterMap_add, htexts, htexts']
    abel
  case notes =>
    rw [Multiset.filterMap_add, Multiset.filterMap_add]
    exact add_le_add first.notes second.notes
  case tasks =>
    rw [Multiset.filterMap_add, Multiset.filterMap_add, first.tasks, second.tasks]

/-- Where there are no tasks, all can be kept as text. -/
theorem of_texts (whole : (texts : Multiset Text) = read.filterMap text? + lines)
    (none : read.filterMap task? = 0) : Kept (pieces texts) read lines := by
  constructor
  case texts => exact ⟨lines, le_refl _, by rw [filterMap_text?_pieces, whole]⟩
  case notes =>
    rw [filterMap_note?_pieces]
    exact Multiset.zero_le _
  case tasks => rw [filterMap_task?_pieces, none]

end Kept
end Entry

/-! ## Sections -/

namespace Section

variable {draft : Section} {read : Multiset Entry} {lines : Multiset Text}

/-- The items of a section, with the task set that is open. -/
def shelf (draft : Section) : List Item := draft.openSet.toList.map .taskSet ++ draft.items

/-- A section accounts twice for the entries that it has read and the headings in it: with its text,
where headings are lines and tasks are missing, and with its items and the prose that waits. -/
structure Carries (draft : Section) (read : Multiset Entry) (lines : Multiset Text) : Prop where
  text : (draft.text : Multiset Text) = read.filterMap Entry.text? + lines
  items : ∃ stored, Collects Item.Holds draft.shelf stored ∧
    stored + Entry.pieces draft.waiting = read
  tasks : draft.hasTasks = false → read.filterMap Entry.task? = 0

theorem holds_paragraphs {waiting : List Text} (title : Text) (full : waiting ≠ []) :
    (Item.info title (paragraphs waiting)).Holds (Entry.pieces waiting) := by
  rw [← Entry.pieces_reverse]
  exact .info title fun empty => full (List.reverse_eq_nil_iff.mp empty)

theorem shelf_closeSet (draft : Section) : draft.closeSet.shelf = draft.shelf := by
  unfold closeSet
  split
  · rfl
  · next set hset =>
    rw [shelf, shelf, hset]
    rfl

theorem items_closeSet (draft : Section) : draft.closeSet.items = draft.shelf := by
  have hclosed : draft.closeSet.openSet = none := by
    unfold closeSet
    split
    · assumption
    · rfl
  rw [← shelf_closeSet, shelf, hclosed]
  rfl

theorem addTask_text (draft : Section) (task : Task) : (draft.addTask task).text = draft.text := by
  obtain ⟨kind, title, items, text, waiting, subtitle, openSet, hasTasks⟩ := draft
  cases waiting <;> cases openSet <;> rfl

theorem addTask_hasTasks (draft : Section) (task : Task) :
    (draft.addTask task).hasTasks = true := by
  obtain ⟨kind, title, items, text, waiting, subtitle, openSet, hasTasks⟩ := draft
  cases waiting <;> cases openSet <;> rfl

namespace Carries

theorem begin (title : Text) : (Section.begin title).Carries 0 0 :=
  ⟨rfl, ⟨0, collects_nil, rfl⟩, fun _ => rfl⟩

theorem implicit : Section.implicit.Carries 0 0 :=
  ⟨rfl, ⟨0, collects_nil, rfl⟩, fun _ => rfl⟩

/-- Prose that waits becomes an item. -/
theorem flushProse (carries : draft.Carries read lines) : draft.flushProse.Carries read lines := by
  unfold Section.flushProse
  split
  · exact carries
  · next waiting full =>
    obtain ⟨stored, hstored, hread⟩ := carries.items
    refine ⟨carries.text, ⟨Entry.pieces draft.waiting + stored, ?_, ?_⟩, carries.tasks⟩
    · exact (hstored.cons (holds_paragraphs (draft.subtitle.getD draft.title) full)).perm
        List.perm_middle.symm
    · rw [← hread, add_comm stored]
      exact add_zero _

theorem closeSet (carries : draft.Carries read lines) : draft.closeSet.Carries read lines := by
  obtain ⟨stored, hstored, hread⟩ := carries.items
  have hitems : Collects Item.Holds draft.closeSet.shelf stored := by
    rw [shelf_closeSet]
    exact hstored
  unfold Section.closeSet at hitems ⊢
  split at hitems
  · exact carries
  · exact ⟨carries.text, ⟨stored, hitems, hread⟩, carries.tasks⟩

theorem settled (carries : draft.Carries read lines) : draft.settled.Carries read lines :=
  carries.flushProse.closeSet

/-- A heading is text only. -/
theorem addHeading (carries : draft.Carries read lines) (depth : Nat) (title : Text) :
    (draft.addHeading depth title).Carries read (headingText depth title ::ₘ lines) := by
  obtain ⟨text, items, tasks⟩ := carries.settled
  refine ⟨?_, items, tasks⟩
  show (headingText depth title ::ₘ (draft.settled.text : Multiset Text)) = _
  rw [text, Multiset.add_cons]

theorem addProse (carries : draft.Carries read lines) (text : Text) :
    (draft.addProse text).Carries (.prose text ::ₘ read) lines := by
  obtain ⟨htext, ⟨stored, hstored, hread⟩, htasks⟩ := carries
  constructor
  case text =>
    rw [Multiset.filterMap_cons_some Entry.text? (.prose text) read rfl, Multiset.cons_add, ← htext]
    rfl
  case items =>
    refine ⟨stored, hstored, ?_⟩
    rw [Section.addProse, Entry.pieces_cons, Multiset.add_cons, hread]
  case tasks =>
    rw [Multiset.filterMap_cons_none (.prose text) read rfl]
    exact htasks

/-- A note is an item, besides its text. -/
theorem addNote (carries : draft.Carries read lines) (content : Text) :
    (draft.addNote content).Carries (.note content ::ₘ read) lines := by
  obtain ⟨htext, ⟨stored, hstored, hread⟩, htasks⟩ := carries.settled
  constructor
  case text =>
    rw [Multiset.filterMap_cons_some Entry.text? (.note content) read rfl, Multiset.cons_add, ← htext]
    rfl
  case items =>
    refine ⟨{.note content} + stored, ?_, ?_⟩
    · exact (hstored.cons (.note content)).perm List.perm_middle.symm
    · rw [← hread, add_assoc, Multiset.singleton_add]
      rfl
  case tasks =>
    rw [Multiset.filterMap_cons_none (.note content) read rfl]
    exact htasks

/-- A task that is put into the open set. -/
theorem holds_append_task {set : TaskSet} {held : Multiset Entry}
    (holds : (Item.taskSet set).Holds held) (task : Task) :
    (Item.taskSet { set with tasks := set.tasks ++ [task] }).Holds (.task task ::ₘ held) := by
  cases holds with
  | taskSet title texts tasks =>
    have hlonger := Item.Holds.taskSet title texts (tasks ++ [task])
    rw [List.map_append, ← Multiset.coe_add, ← add_assoc, add_comm] at hlonger
    exact hlonger

/-- A new set for a task, introduced by the prose that waits. -/
theorem holds_singleton (title : Option Text) (texts : List Text) (task : Task) :
    (Item.taskSet ⟨title, introduction? texts, [task]⟩).Holds
      (.task task ::ₘ Entry.pieces texts) := by
  have hset := Item.Holds.taskSet title texts [task]
  rw [add_comm] at hset
  exact hset

/-- A task is put into a set: the open one, or a new one that takes the prose that waits. -/
theorem collects_addTask {stored : Multiset Entry} (h : Collects Item.Holds draft.shelf stored)
    (task : Task) : Collects Item.Holds (draft.addTask task).shelf
      (.task task ::ₘ (stored + Entry.pieces draft.waiting)) := by
  have hempty : Entry.pieces [] = 0 := rfl
  unfold Section.addTask
  simp only
  split
  · next hwaiting =>
    rw [hwaiting, hempty, add_zero]
    split
    · next set hset =>
      rw [shelf, hset] at h
      obtain ⟨held, rest, hheld, hrest, rfl⟩ := h.of_cons
      rw [← Multiset.cons_add]
      exact hrest.cons (holds_append_task hheld task)
    · next hset =>
      rw [shelf, hset] at h
      rw [← zero_add stored, ← Multiset.cons_add]
      exact h.cons (holds_singleton draft.subtitle [] task)
  · next full =>
    have hintro : introduction? draft.waiting.reverse = some (paragraphs draft.waiting) :=
      if_neg fun empty => full (List.reverse_eq_nil_iff.mp (List.isEmpty_iff.mp empty))
    have hset : ∀ title, (Item.taskSet ⟨title, some (paragraphs draft.waiting), [task]⟩).Holds
        (.task task ::ₘ Entry.pieces draft.waiting) := by
      intro title
      rw [← hintro, ← Entry.pieces_reverse]
      exact holds_singleton title draft.waiting.reverse task
    rw [add_comm, ← Multiset.cons_add, shelf, items_closeSet]
    exact h.cons (hset _)

theorem addTask (carries : draft.Carries read lines) (task : Task) :
    (draft.addTask task).Carries (.task task ::ₘ read) lines := by
  constructor
  case text =>
    rw [addTask_text, Multiset.filterMap_cons_none (.task task) read rfl]
    exact carries.text
  case items =>
    obtain ⟨stored, hstored, hread⟩ := carries.items
    refine ⟨_, collects_addTask hstored task, ?_⟩
    rw [addTask_waiting, hread]
    exact add_zero _
  case tasks =>
    rw [addTask_hasTasks]
    exact fun none => nomatch none

/-- Of a section that has been read to its end, either its items are kept or its text. -/
theorem exists_holds_category (carries : draft.Carries read lines) :
    ∃ held, draft.category.Holds held ∧ Entry.Kept held read lines := by
  unfold category
  by_cases htasks : draft.hasTasks
  · rw [if_pos htasks]
    obtain ⟨stored, hstored, hread⟩ := carries.settled.items
    have hall : stored = read := by
      rw [← hread, settled_waiting]
      exact (add_zero stored).symm
    rw [shelf, settled_openSet, hall] at hstored
    exact ⟨read, .tasks _ _ (hstored.perm (List.reverse_perm _).symm), .refl read lines⟩
  · rw [if_neg htasks]
    refine ⟨_, .info draft.title draft.text.reverse, ?_⟩
    rw [Entry.pieces_reverse]
    exact .of_texts carries.text (carries.tasks (Bool.eq_false_iff.mpr htasks))

end Carries
end Section

/-! ## Documents -/

namespace SectionReader

variable {reader next : SectionReader} {read : Multiset Entry} {lines : Multiset Text}

/-- The introduction and the categories of a reader account for entries and headings. -/
def Settles (reader : SectionReader) (read : Multiset Entry) (lines : Multiset Text) : Prop :=
  ∃ collected, Collects Category.Holds reader.categories collected ∧
    Entry.Kept (Entry.pieces reader.intro + collected) read lines

/-- The section that is being read. -/
def inside (reader : SectionReader) : Section := reader.current.getD reader.implicit

/-- A reader accounts for the entries and the headings that it has read: what belongs to the section that
is being read is carried there, and all else has been settled. -/
def Carries (reader : SectionReader) (read : Multiset Entry) (lines : Multiset Text) : Prop :=
  ∃ past here pastLines hereLines, reader.Settles past pastLines ∧
    reader.inside.Carries here hereLines ∧ read = past + here ∧ lines = pastLines + hereLines

theorem Settles.consIntro (settles : reader.Settles read lines) {texts : List Text}
    {entries : Multiset Entry} {more : Multiset Text}
    (kept : Entry.Kept (Entry.pieces texts) entries more) :
    Settles { reader with intro := texts ++ reader.intro } (read + entries) (lines + more) := by
  obtain ⟨collected, hcollected, hkept⟩ := settles
  refine ⟨collected, hcollected, ?_⟩
  have hboth := kept.add hkept
  rw [← add_assoc, ← Entry.pieces_append, add_comm entries, add_comm more] at hboth
  exact hboth

theorem Settles.consCategory (settles : reader.Settles read lines) {category : Category}
    {held entries : Multiset Entry} {more : Multiset Text} (holds : category.Holds held)
    (kept : Entry.Kept held entries more) :
    Settles { reader with categories := category :: reader.categories } (read + entries)
      (lines + more) := by
  obtain ⟨collected, hcollected, hkept⟩ := settles
  refine ⟨held + collected, hcollected.cons holds, ?_⟩
  have hboth := hkept.add kept
  rw [add_assoc, add_comm collected] at hboth
  exact hboth

namespace Carries

theorem initial : SectionReader.initial.Carries 0 0 :=
  ⟨0, 0, 0, 0, ⟨0, collects_nil, .refl 0 0⟩, .implicit, rfl, rfl⟩

/-- The section is settled when it ends. -/
theorem endSection (carries : reader.Carries read lines) : reader.endSection.Settles read lines := by
  obtain ⟨past, here, pastLines, hereLines, settles, hsection, rfl, rfl⟩ := carries
  obtain ⟨held, hheld, hkept⟩ := hsection.exists_holds_category
  unfold SectionReader.endSection
  split
  · next draft hcurrent =>
    rw [inside, hcurrent] at hheld
    exact settles.consCategory hheld hkept
  · next hcurrent =>
    rw [inside, hcurrent] at hheld hsection
    split
    · exact settles.consCategory hheld hkept
    · next htasks =>
      exact settles.consIntro
        (.of_texts hsection.text (hsection.tasks (Bool.eq_false_iff.mpr htasks)))

/-- Adding an entry to the section that is being read. -/
theorem addToSection (carries : reader.Carries read lines) {add : Section → Section} {entry : Entry}
    (h : ∀ draft here hereLines, Section.Carries draft here hereLines →
      (add draft).Carries (entry ::ₘ here) hereLines) :
    (reader.addToSection add).Carries (read + {entry}) lines := by
  obtain ⟨past, here, pastLines, hereLines, settles, hsection, rfl, rfl⟩ := carries
  refine ⟨past, entry ::ₘ here, pastLines, hereLines, ?_, ?_, ?_, rfl⟩
  · unfold SectionReader.addToSection
    split <;> exact settles
  · unfold SectionReader.addToSection
    split
    · next draft hcurrent =>
      rw [inside, hcurrent] at hsection
      exact h draft here hereLines hsection
    · next hcurrent =>
      rw [inside, hcurrent] at hsection
      rw [inside, hcurrent]
      exact h reader.implicit here hereLines hsection
  · rw [add_assoc, add_comm here, Multiset.singleton_add]

/-- Adding to the introduction. -/
theorem consIntro (carries : reader.Carries read lines) {text : Text} {entries : Multiset Entry}
    {more : Multiset Text} (kept : Entry.Kept (Entry.pieces [text]) entries more) :
    Carries { reader with intro := text :: reader.intro } (read + entries) (lines + more) := by
  obtain ⟨past, here, pastLines, hereLines, settles, hsection, rfl, rfl⟩ := carries
  exact ⟨_, here, _, hereLines, settles.consIntro kept, hsection, add_right_comm _ _ _,
    add_right_comm _ _ _⟩

theorem addProse (carries : reader.Carries read lines) (text : Text) :
    (reader.addProse text).Carries (read + {.prose text}) lines := by
  unfold SectionReader.addProse
  split
  · next draft hcurrent =>
    have hsection : (reader.addToSection fun draft => draft.addProse text).Carries
        (read + {.prose text}) lines :=
      carries.addToSection fun draft here hereLines hcarries => hcarries.addProse text
    rw [SectionReader.addToSection, hcurrent] at hsection
    exact hsection
  · have hintro := carries.consIntro (.refl (Entry.pieces [text]) 0)
    rw [add_zero] at hintro
    exact hintro

/-- A heading is a line of text, unless it is the title or begins a section. -/
theorem addHeading (carries : reader.Carries read lines) (depth : Nat) (title : Text) :
    (reader.addHeading depth title).Carries read
      (lines + ((Event.heading depth title).subheading?.toList : Multiset Text)) := by
  by_cases hdepth : depth ≤ 2
  · have hnone : (Event.heading depth title).subheading? = none := if_pos hdepth
    have hzero : lines + ((none : Option Text).toList : Multiset Text) = lines := add_zero lines
    rw [hnone, hzero]
    unfold SectionReader.addHeading
    split
    · exact carries
    · exact ⟨read, 0, lines, 0, carries.endSection, .begin title, (add_zero read).symm,
        (add_zero lines).symm⟩
  · have hline : (Event.heading depth title).subheading? = some (Section.headingText depth title) :=
      if_neg hdepth
    have htitle : ¬(depth = 1 && reader.title.isNone && reader.current.isNone) = true := by
      intro h
      simp only [Bool.and_eq_true, decide_eq_true_eq] at h
      omega
    rw [hline, SectionReader.addHeading, if_neg htitle, if_neg hdepth]
    split
    · next draft hcurrent =>
      obtain ⟨past, here, pastLines, hereLines, settles, hsection, rfl, rfl⟩ := carries
      rw [inside, hcurrent] at hsection
      refine ⟨past, here, pastLines, _, settles, hsection.addHeading depth title, rfl, ?_⟩
      rw [add_assoc, add_comm hereLines]
      rfl
    · have hkept : Entry.Kept (Entry.pieces [Section.headingText depth title]) 0
          {Section.headingText depth title} := .of_texts (zero_add _).symm rfl
      have hintro := carries.consIntro hkept
      rw [add_zero] at hintro
      exact hintro

/-- What one event adds. -/
theorem read_event (carries : reader.Carries read lines) {event : Event}
    (h : reader.read event = .ok next) :
    next.Carries (read + (event.entry?.toList : Multiset Entry))
      (lines + (event.subheading?.toList : Multiset Text)) := by
  have hzero : lines + (0 : Multiset Text) = lines := add_zero lines
  cases event with
  | heading depth title =>
    obtain rfl := Except.ok.inj h
    have hheading := carries.addHeading depth title
    rw [← add_zero read] at hheading
    exact hheading
  | thematicBreak =>
    obtain rfl := Except.ok.inj h
    rw [← hzero] at carries
    exact carries.addProse ['-', '-', '-']
  | prose text =>
    obtain rfl := Except.ok.inj h
    rw [← hzero] at carries
    exact carries.addProse text
  | directive offset content =>
    cases content with
    | presenterNote content => exact nomatch h
    | note content =>
      obtain rfl := Except.ok.inj h
      rw [← hzero] at carries
      exact carries.addToSection fun draft here hereLines hcarries => hcarries.addNote content
    | task task =>
      obtain rfl := Except.ok.inj h
      rw [← hzero] at carries
      exact carries.addToSection fun draft here hereLines hcarries => hcarries.addTask task

/-- What events add one after the other. -/
theorem foldlM_read {events : List Event} (carries : reader.Carries read lines)
    (h : events.foldlM SectionReader.read reader = .ok next) :
    next.Carries (read + Event.entries events) (lines + Event.subheadings events) := by
  induction events generalizing reader read lines with
  | nil =>
    obtain rfl := Except.ok.inj h
    rw [← add_zero read, ← add_zero lines] at carries
    exact carries
  | cons event rest ih =>
    obtain ⟨middle, hevent, hrest⟩ := foldlM_cons_eq_ok_iff.mp h
    rw [Event.entries_cons, Event.subheadings_cons, ← add_assoc, ← add_assoc]
    exact ih (carries.read_event hevent) hrest

end Carries

/-- A document holds what its reader has settled in the end. -/
theorem Carries.exists_holds_finish (carries : reader.Carries read lines) :
    ∃ held, reader.finish.Holds held ∧ Entry.Kept held read lines := by
  obtain ⟨collected, hcollected, hkept⟩ := carries.endSection
  refine ⟨_, ⟨reader.endSection.intro.reverse, collected, ?_, ?_, rfl⟩, ?_⟩
  · show (if reader.endSection.intro.isEmpty then none
      else some (Section.paragraphs reader.endSection.intro)) = _
    rw [introduction?, List.isEmpty_reverse]
    rfl
  · exact hcollected.perm (List.reverse_perm _).symm
  · rw [Entry.pieces_reverse]
    exact hkept

end SectionReader

namespace SectionedDocument

/-- A document that is made of events holds all their texts and tasks. There is a way to read back what it
was made of, its texts piece by piece, such that the texts of prose and notes are those of the events with
a line for each break, and besides them only headings inside sections, no more often than there are such
headings. Whatever is held as a note was one, and the tasks are those of the events. -/
theorem ofEvents_loses_no_text {events : List Event} {document : SectionedDocument}
    (accepted : ofEvents events = .ok document) :
    ∃ held : Multiset Entry, document.Holds held ∧
      (∃ added ≤ Event.subheadings events,
        held.filterMap Entry.text? = (Event.entries events).filterMap Entry.text? + added) ∧
      held.filterMap Entry.note? ≤ (Event.entries events).filterMap Entry.note? ∧
      held.filterMap Entry.task? = (Event.entries events).filterMap Entry.task? := by
  obtain ⟨reader, hread, hfinish⟩ := exists_of_bind_eq_ok accepted
  obtain rfl := Except.ok.inj hfinish
  have carries := SectionReader.Carries.initial.foldlM_read hread
  rw [zero_add, zero_add] at carries
  obtain ⟨held, hholds, hkept⟩ := carries.exists_holds_finish
  exact ⟨held, hholds, hkept.texts, hkept.notes, hkept.tasks⟩

/-- An introduction with a heading and a note, a section without tasks, and one with a task. -/
def mixedEvents : List Event :=
  [.heading 3 ['a'], .prose ['p'], .directive 8 (.note ['n']),
    .heading 2 ['A'], .prose ['q'], .heading 3 ['b'], .thematicBreak,
    .heading 2 ['B'], .heading 3 ['c'], .prose ['r'], .directive 60 (.task (.text ['d'] none none)),
    .prose ['s']]

/-- Two of the three headings inside these sections are text: the third one is in a section with a task,
where it is a title. -/
theorem ofEvents_loses_no_text_mixed :
    ∃ document held, ofEvents mixedEvents = .ok document ∧
      document.intro = some "### a\n\np\n\nn".toList ∧ document.Holds held ∧
      (∃ added ≤ ({"### a".toList, "### b".toList, "### c".toList} : Multiset Text),
        held.filterMap Entry.text? =
          ({['p'], ['n'], ['q'], ['-', '-', '-'], ['r'], ['s']} : Multiset Text) + added) ∧
      held.filterMap Entry.task? = {.text ['d'] none none} := by
  have accepted : ofEvents mixedEvents = .ok ⟨none, some "### a\n\np\n\nn".toList,
      [.info ['A'] "q\n\n### b\n\n---".toList,
        .tasks .core ['B'] [.info ['B'] ['s'], .taskSet ⟨some ['c'], some ['r'],
          [.text ['d'] none none]⟩]]⟩ := by
    decide
  obtain ⟨held, hholds, htexts, _, htasks⟩ := ofEvents_loses_no_text accepted
  exact ⟨_, held, accepted, rfl, hholds, htexts, htasks⟩

end SectionedDocument
end Courseware
