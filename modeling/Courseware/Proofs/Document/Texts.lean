import Courseware.Proofs.Document.Sections
import Courseware.Proofs.Markup.Restoring

/-!
# The texts of a document tree

A tree is built of the texts of events. On the way into it they are copied, joined with empty lines between
them, or written behind number signs as headings, and none of this brings in a sentinel. So if no event
holds one, no text of the tree does, as `SectionedDocument.absent_of_ofEvents` and
`SlideDeck.absent_of_ofEvents` show.
-/

namespace Courseware

/-! ## All texts -/

/-- The texts of an event. -/
def Event.texts : Event → List Text
  | heading _ title => [title]
  | thematicBreak => []
  | prose text => [text]
  | directive _ content => content.texts

/-- The texts of a task set. -/
def TaskSet.texts (set : TaskSet) : List Text :=
  set.title.toList ++ set.intro.toList ++ set.tasks.flatMap Task.texts

/-- The texts of an item. -/
def Item.texts : Item → List Text
  | info title text => [title, text]
  | taskSet set => set.texts
  | note content => [content]

/-- The texts of a category. -/
def Category.texts : Category → List Text
  | info title text => [title, text]
  | tasks _ title items => title :: items.flatMap Item.texts

/-- The texts of a document in categories. -/
def SectionedDocument.texts (document : SectionedDocument) : List Text :=
  document.title.toList ++ document.intro.toList ++ document.categories.flatMap Category.texts

/-- The texts of a block of a slide. -/
def SlideBlock.texts : SlideBlock → List Text
  | markdown text => [text]
  | note content => [content]
  | task content => content.texts

/-- The texts of a slide. -/
def Slide.texts (slide : Slide) : List Text :=
  slide.title.toList ++ slide.blocks.flatMap SlideBlock.texts ++ slide.presenterNotes

/-- The texts of a slide deck. -/
def SlideDeck.texts (deck : SlideDeck) : List Text :=
  deck.title.toList ++ deck.slides.flatMap Slide.texts

/-- The texts of a document. -/
def DocumentTree.texts : DocumentTree → List Text
  | page document | worksheet document => document.texts
  | slideDeck deck => deck.texts

/-! ## Sections -/

variable {sentinels : Sentinels} {text title : Text}

theorem TaskSet.absent_texts_iff {set : TaskSet} :
    sentinels.Absent set.texts ↔ sentinels.Absent set.title.toList ∧
      sentinels.Absent set.intro.toList ∧ ∀ task ∈ set.tasks, sentinels.Absent task.texts := by
  simp only [texts, Sentinels.absent_append_iff, Sentinels.absent_flatMap_iff, and_assoc]

namespace Section

/-- The texts of a section that is being read. -/
def texts (draft : Section) : List Text :=
  draft.title :: (draft.items.flatMap Item.texts ++ draft.text ++ draft.waiting ++
    draft.subtitle.toList ++ draft.openSet.toList.flatMap TaskSet.texts)

theorem absent_texts_iff {draft : Section} :
    sentinels.Absent draft.texts ↔ sentinels.Intact 0 draft.title ∧
      (∀ item ∈ draft.items, sentinels.Absent item.texts) ∧ sentinels.Absent draft.text ∧
      sentinels.Absent draft.waiting ∧ sentinels.Absent draft.subtitle.toList ∧
      ∀ set ∈ draft.openSet, sentinels.Absent set.texts := by
  simp only [texts, Sentinels.absent_cons_iff, Sentinels.absent_append_iff,
    Sentinels.absent_flatMap_iff, Option.mem_toList, Option.mem_def, and_assoc]

theorem intact_paragraphs (reserved : sentinels.Reserved) {parts : List Text}
    (absent : sentinels.Absent parts) : sentinels.Intact 0 (paragraphs parts) := by
  have hfeed : sentinels.Intact 0 ['\n'] := reserved.intact_singleton (by decide)
  exact (hfeed.append hfeed).join (Sentinels.absent_reverse_iff.mpr absent)

theorem intact_headingText (reserved : sentinels.Reserved) (depth : Nat)
    (intact : sentinels.Intact 0 title) : sentinels.Intact 0 (headingText depth title) := by
  apply Sentinels.Intact.append
  · apply Sentinels.Intact.of_isOutside reserved
    intro letter hletter
    obtain rfl := List.eq_of_mem_replicate hletter
    decide
  · exact (reserved.intact_singleton (by decide)).append intact

variable {draft : Section}

theorem absent_begin (intact : sentinels.Intact 0 title) : sentinels.Absent (begin title).texts := by
  simpa [texts, begin] using intact

theorem absent_implicit : sentinels.Absent implicit.texts := by
  simpa [texts, implicit] using Sentinels.Intact.nil

theorem absent_flushProse (reserved : sentinels.Reserved) (absent : sentinels.Absent draft.texts) :
    sentinels.Absent draft.flushProse.texts := by
  unfold flushProse
  split
  · exact absent
  · next waiting hwaiting =>
    obtain ⟨htitle, hitems, htext, hwaits, hsubtitle, hset⟩ := absent_texts_iff.mp absent
    have hheading : sentinels.Intact 0 (draft.subtitle.getD draft.title) := by
      cases hcase : draft.subtitle with
      | none => exact htitle
      | some subtitle =>
        apply hsubtitle
        rw [hcase]
        exact List.mem_singleton_self _
    refine absent_texts_iff.mpr ⟨htitle, ?_, htext, Sentinels.absent_nil, Sentinels.absent_nil, hset⟩
    rw [List.forall_mem_cons]
    refine ⟨?_, hitems⟩
    rw [Item.texts, Sentinels.absent_cons_iff, Sentinels.absent_cons_iff]
    exact ⟨hheading, intact_paragraphs reserved hwaits, Sentinels.absent_nil⟩

theorem absent_closeSet (absent : sentinels.Absent draft.texts) :
    sentinels.Absent draft.closeSet.texts := by
  unfold closeSet
  split
  · exact absent
  · next set hset =>
    obtain ⟨htitle, hitems, htext, hwaits, hsubtitle, hopen⟩ := absent_texts_iff.mp absent
    exact absent_texts_iff.mpr ⟨htitle, List.forall_mem_cons.mpr ⟨hopen set hset, hitems⟩, htext,
      hwaits, hsubtitle, nofun⟩

theorem absent_addHeading (reserved : sentinels.Reserved) (absent : sentinels.Absent draft.texts)
    (depth : Nat) (intact : sentinels.Intact 0 title) :
    sentinels.Absent (draft.addHeading depth title).texts := by
  obtain ⟨htitle, hitems, htext, hwaits, _, hset⟩ :=
    absent_texts_iff.mp (absent_closeSet (absent_flushProse reserved absent))
  refine absent_texts_iff.mpr ⟨htitle, hitems, ?_, hwaits, ?_, hset⟩
  · exact Sentinels.absent_cons_iff.mpr ⟨intact_headingText reserved depth intact, htext⟩
  · exact Sentinels.absent_cons_iff.mpr ⟨intact, Sentinels.absent_nil⟩

theorem absent_addProse (absent : sentinels.Absent draft.texts) (intact : sentinels.Intact 0 text) :
    sentinels.Absent (draft.addProse text).texts := by
  obtain ⟨htitle, hitems, htext, hwaits, hsubtitle, hset⟩ := absent_texts_iff.mp absent
  exact absent_texts_iff.mpr ⟨htitle, hitems, Sentinels.absent_cons_iff.mpr ⟨intact, htext⟩,
    Sentinels.absent_cons_iff.mpr ⟨intact, hwaits⟩, hsubtitle, hset⟩

theorem absent_addTask (reserved : sentinels.Reserved) (absent : sentinels.Absent draft.texts)
    {task : Task} (h : sentinels.Absent task.texts) :
    sentinels.Absent (draft.addTask task).texts := by
  obtain ⟨htitle, hitems, htext, hwaits, hsubtitle, hset⟩ := absent_texts_iff.mp absent
  have hclosed := absent_closeSet
    (show sentinels.Absent (texts { draft with hasTasks := true }) from absent)
  unfold addTask
  simp only
  split
  · split
    · next set hopen =>
      obtain ⟨hsetTitle, hintro, htasks⟩ := TaskSet.absent_texts_iff.mp (hset set hopen)
      refine absent_texts_iff.mpr ⟨htitle, hitems, htext, hwaits, hsubtitle, ?_⟩
      rintro other ⟨⟩
      refine TaskSet.absent_texts_iff.mpr ⟨hsetTitle, hintro, ?_⟩
      rw [List.forall_mem_append, List.forall_mem_singleton]
      exact ⟨htasks, h⟩
    · refine absent_texts_iff.mpr ⟨htitle, hitems, htext, hwaits, Sentinels.absent_nil, ?_⟩
      rintro other ⟨⟩
      exact TaskSet.absent_texts_iff.mpr
        ⟨hsubtitle, Sentinels.absent_nil, List.forall_mem_singleton.mpr h⟩
  · obtain ⟨htitle, hitems, htext, _, hsubtitle, _⟩ := absent_texts_iff.mp hclosed
    refine absent_texts_iff.mpr ⟨htitle, hitems, htext, Sentinels.absent_nil, Sentinels.absent_nil, ?_⟩
    rintro other ⟨⟩
    refine TaskSet.absent_texts_iff.mpr ⟨hsubtitle, ?_, List.forall_mem_singleton.mpr h⟩
    exact Sentinels.absent_cons_iff.mpr ⟨intact_paragraphs reserved hwaits, Sentinels.absent_nil⟩

theorem absent_addNote (reserved : sentinels.Reserved) (absent : sentinels.Absent draft.texts)
    (intact : sentinels.Intact 0 text) : sentinels.Absent (draft.addNote text).texts := by
  obtain ⟨htitle, hitems, htext, hwaits, hsubtitle, hset⟩ :=
    absent_texts_iff.mp (absent_closeSet (absent_flushProse reserved absent))
  have hnote : sentinels.Absent (Item.note text).texts :=
    Sentinels.absent_cons_iff.mpr ⟨intact, Sentinels.absent_nil⟩
  exact absent_texts_iff.mpr ⟨htitle, List.forall_mem_cons.mpr ⟨hnote, hitems⟩,
    Sentinels.absent_cons_iff.mpr ⟨intact, htext⟩, hwaits, hsubtitle, hset⟩

/-- The category of a section has no other texts than the section. -/
theorem absent_category (reserved : sentinels.Reserved) (absent : sentinels.Absent draft.texts) :
    sentinels.Absent draft.category.texts := by
  obtain ⟨htitle, _, htext, _⟩ := absent_texts_iff.mp absent
  obtain ⟨_, hitems, _⟩ :=
    absent_texts_iff.mp (absent_closeSet (absent_flushProse reserved absent))
  unfold category
  split
  · rw [Category.texts, Sentinels.absent_cons_iff, Sentinels.absent_flatMap_iff]
    exact ⟨htitle, fun item hitem => hitems item (List.mem_reverse.mp hitem)⟩
  · rw [Category.texts, Sentinels.absent_cons_iff, Sentinels.absent_cons_iff]
    exact ⟨htitle, intact_paragraphs reserved htext, Sentinels.absent_nil⟩

end Section

/-! ## Documents in sections -/

namespace SectionReader

/-- The texts of a document that is being read. -/
def texts (reader : SectionReader) : List Text :=
  reader.title.toList ++ reader.intro ++ reader.categories.flatMap Category.texts ++
    reader.implicit.texts ++ reader.current.toList.flatMap Section.texts

variable {reader next : SectionReader}

theorem absent_texts_iff :
    sentinels.Absent reader.texts ↔ sentinels.Absent reader.title.toList ∧
      sentinels.Absent reader.intro ∧
      (∀ category ∈ reader.categories, sentinels.Absent category.texts) ∧
      sentinels.Absent reader.implicit.texts ∧
      ∀ draft ∈ reader.current, sentinels.Absent draft.texts := by
  simp only [texts, Sentinels.absent_append_iff, Sentinels.absent_flatMap_iff, Option.mem_toList,
    Option.mem_def, and_assoc]

theorem absent_initial : sentinels.Absent initial.texts :=
  absent_texts_iff.mpr ⟨Sentinels.absent_nil, Sentinels.absent_nil, nofun, Section.absent_implicit,
    nofun⟩

theorem absent_endSection (reserved : sentinels.Reserved) (absent : sentinels.Absent reader.texts) :
    sentinels.Absent reader.endSection.texts := by
  obtain ⟨htitle, hintro, hcategories, himplicit, hcurrent⟩ := absent_texts_iff.mp absent
  unfold endSection
  split
  · next draft hdraft =>
    refine absent_texts_iff.mpr ⟨htitle, hintro, ?_, himplicit, nofun⟩
    exact List.forall_mem_cons.mpr
      ⟨Section.absent_category reserved (hcurrent draft hdraft), hcategories⟩
  · split
    · refine absent_texts_iff.mpr ⟨htitle, hintro, ?_, Section.absent_implicit, hcurrent⟩
      exact List.forall_mem_cons.mpr ⟨Section.absent_category reserved himplicit, hcategories⟩
    · refine absent_texts_iff.mpr ⟨htitle, ?_, hcategories, Section.absent_implicit, hcurrent⟩
      exact Sentinels.absent_append_iff.mpr
        ⟨(Section.absent_texts_iff.mp himplicit).2.2.1, hintro⟩

theorem absent_addProse (absent : sentinels.Absent reader.texts)
    (intact : sentinels.Intact 0 text) : sentinels.Absent (reader.addProse text).texts := by
  obtain ⟨htitle, hintro, hcategories, himplicit, hcurrent⟩ := absent_texts_iff.mp absent
  unfold addProse
  split
  · next draft hdraft =>
    refine absent_texts_iff.mpr ⟨htitle, hintro, hcategories, himplicit, ?_⟩
    rintro other ⟨⟩
    exact Section.absent_addProse (hcurrent draft hdraft) intact
  · exact absent_texts_iff.mpr ⟨htitle, Sentinels.absent_cons_iff.mpr ⟨intact, hintro⟩, hcategories,
      himplicit, hcurrent⟩

theorem absent_addToSection (absent : sentinels.Absent reader.texts) {add : Section → Section}
    (h : ∀ draft : Section, sentinels.Absent draft.texts → sentinels.Absent (add draft).texts) :
    sentinels.Absent (reader.addToSection add).texts := by
  obtain ⟨htitle, hintro, hcategories, himplicit, hcurrent⟩ := absent_texts_iff.mp absent
  unfold addToSection
  split
  · next draft hdraft =>
    refine absent_texts_iff.mpr ⟨htitle, hintro, hcategories, himplicit, ?_⟩
    rintro other ⟨⟩
    exact h draft (hcurrent draft hdraft)
  · exact absent_texts_iff.mpr ⟨htitle, hintro, hcategories, h _ himplicit, hcurrent⟩

theorem absent_addHeading (reserved : sentinels.Reserved) (absent : sentinels.Absent reader.texts)
    (depth : Nat) (intact : sentinels.Intact 0 title) :
    sentinels.Absent (reader.addHeading depth title).texts := by
  obtain ⟨htitle, hintro, hcategories, himplicit, hcurrent⟩ := absent_texts_iff.mp absent
  unfold addHeading
  split
  · exact absent_texts_iff.mpr ⟨Sentinels.absent_cons_iff.mpr ⟨intact, Sentinels.absent_nil⟩, hintro,
      hcategories, himplicit, hcurrent⟩
  · split
    · obtain ⟨htitle, hintro, hcategories, himplicit, _⟩ :=
        absent_texts_iff.mp (absent_endSection reserved absent)
      refine absent_texts_iff.mpr ⟨htitle, hintro, hcategories, himplicit, ?_⟩
      rintro draft ⟨⟩
      exact Section.absent_begin intact
    · split
      · next draft hdraft =>
        refine absent_texts_iff.mpr ⟨htitle, hintro, hcategories, himplicit, ?_⟩
        rintro other ⟨⟩
        exact Section.absent_addHeading reserved (hcurrent draft hdraft) depth intact
      · refine absent_texts_iff.mpr ⟨htitle, ?_, hcategories, himplicit, hcurrent⟩
        exact Sentinels.absent_cons_iff.mpr
          ⟨Section.intact_headingText reserved depth intact, hintro⟩

/-- An event brings in no other texts than its own. -/
theorem absent_read (reserved : sentinels.Reserved) (absent : sentinels.Absent reader.texts)
    {event : Event} (h : sentinels.Absent event.texts) (step : reader.read event = .ok next) :
    sentinels.Absent next.texts := by
  unfold read at step
  split at step
  · obtain rfl := Except.ok.inj step
    exact absent_addHeading reserved absent _ (Sentinels.absent_cons_iff.mp h).1
  · obtain rfl := Except.ok.inj step
    have hhyphen : sentinels.Intact 0 ['-'] := reserved.intact_singleton (by decide)
    exact absent_addProse absent (hhyphen.append (hhyphen.append hhyphen))
  · obtain rfl := Except.ok.inj step
    exact absent_addProse absent (Sentinels.absent_cons_iff.mp h).1
  · obtain rfl := Except.ok.inj step
    exact absent_addToSection absent fun draft hdraft => Section.absent_addTask reserved hdraft h
  · obtain rfl := Except.ok.inj step
    exact absent_addToSection absent fun draft hdraft =>
      Section.absent_addNote reserved hdraft (Sentinels.absent_cons_iff.mp h).1
  · exact nomatch step

/-- A run of events brings in no other texts than theirs. -/
theorem absent_foldlM (reserved : sentinels.Reserved) {events : List Event}
    (absent : sentinels.Absent reader.texts) (h : ∀ event ∈ events, sentinels.Absent event.texts)
    (run : events.foldlM read reader = .ok next) : sentinels.Absent next.texts := by
  induction events generalizing reader with
  | nil =>
    obtain rfl := Except.ok.inj run
    exact absent
  | cons event rest ih =>
    obtain ⟨hevent, hrest⟩ := List.forall_mem_cons.mp h
    obtain ⟨middle, step, others⟩ := foldlM_cons_eq_ok_iff.mp run
    exact ih (absent_read reserved absent hevent step) hrest others

theorem absent_finish (reserved : sentinels.Reserved) (absent : sentinels.Absent reader.texts) :
    sentinels.Absent reader.finish.texts := by
  obtain ⟨htitle, hintro, hcategories, _⟩ :=
    absent_texts_iff.mp (absent_endSection reserved absent)
  simp only [finish, SectionedDocument.texts, Sentinels.absent_append_iff,
    Sentinels.absent_flatMap_iff, List.mem_reverse]
  refine ⟨⟨htitle, ?_⟩, hcategories⟩
  split
  · exact Sentinels.absent_nil
  · exact Sentinels.absent_cons_iff.mpr
      ⟨Section.intact_paragraphs reserved hintro, Sentinels.absent_nil⟩

end SectionReader

theorem SectionedDocument.absent_of_ofEvents (reserved : sentinels.Reserved) {events : List Event}
    (h : ∀ event ∈ events, sentinels.Absent event.texts) {document : SectionedDocument}
    (made : ofEvents events = .ok document) : sentinels.Absent document.texts := by
  obtain ⟨reader, run, finished⟩ := exists_of_bind_eq_ok made
  obtain rfl := Except.ok.inj finished
  exact SectionReader.absent_finish reserved
    (SectionReader.absent_foldlM reserved SectionReader.absent_initial h run)

/-! ## Slide decks -/

namespace SlideReader

/-- The texts of a slide deck that is being read. -/
def texts (reader : SlideReader) : List Text :=
  reader.deckTitle.toList ++ reader.slides.flatMap Slide.texts ++ reader.title.toList ++
    reader.blocks.flatMap SlideBlock.texts ++ reader.notes

variable {reader : SlideReader}

theorem absent_texts_iff :
    sentinels.Absent reader.texts ↔ sentinels.Absent reader.deckTitle.toList ∧
      (∀ slide ∈ reader.slides, sentinels.Absent slide.texts) ∧
      sentinels.Absent reader.title.toList ∧
      (∀ block ∈ reader.blocks, sentinels.Absent block.texts) ∧ sentinels.Absent reader.notes := by
  simp only [texts, Sentinels.absent_append_iff, Sentinels.absent_flatMap_iff, and_assoc]

theorem absent_endSlide (absent : sentinels.Absent reader.texts) :
    sentinels.Absent reader.endSlide.texts := by
  obtain ⟨hdeck, hslides, htitle, hblocks, hnotes⟩ := absent_texts_iff.mp absent
  unfold endSlide
  split
  · exact absent
  · refine absent_texts_iff.mpr ⟨hdeck, ?_, Sentinels.absent_nil, nofun, Sentinels.absent_nil⟩
    rw [List.forall_mem_cons]
    refine ⟨?_, hslides⟩
    simp only [Slide.texts, Sentinels.absent_append_iff, Sentinels.absent_flatMap_iff,
      Sentinels.absent_reverse_iff, List.mem_reverse]
    exact ⟨⟨htitle, hblocks⟩, hnotes⟩

theorem absent_addMarkdown (reserved : sentinels.Reserved) (absent : sentinels.Absent reader.texts)
    (intact : sentinels.Intact 0 text) : sentinels.Absent (reader.addMarkdown text).texts := by
  obtain ⟨hdeck, hslides, htitle, hblocks, hnotes⟩ := absent_texts_iff.mp absent
  have hmarkdown : ∀ {written : Text}, sentinels.Intact 0 written →
      sentinels.Absent (SlideBlock.markdown written).texts := fun h =>
    Sentinels.absent_cons_iff.mpr ⟨h, Sentinels.absent_nil⟩
  unfold addMarkdown
  split
  · next before rest hbefore =>
    rw [hbefore, List.forall_mem_cons] at hblocks
    obtain ⟨hfirst, hrest⟩ := hblocks
    have hfeed : sentinels.Intact 0 ['\n'] := reserved.intact_singleton (by decide)
    have hjoined := (Sentinels.absent_cons_iff.mp hfirst).1.append
      (hfeed.append (hfeed.append intact))
    exact absent_texts_iff.mpr ⟨hdeck, hslides, htitle,
      List.forall_mem_cons.mpr ⟨hmarkdown hjoined, hrest⟩, hnotes⟩
  · exact absent_texts_iff.mpr ⟨hdeck, hslides, htitle,
      List.forall_mem_cons.mpr ⟨hmarkdown intact, hblocks⟩, hnotes⟩

theorem absent_addHeading (reserved : sentinels.Reserved) (absent : sentinels.Absent reader.texts)
    (depth : Nat) (intact : sentinels.Intact 0 title) :
    sentinels.Absent (reader.addHeading depth title).texts := by
  have htitled : sentinels.Absent (some title).toList :=
    Sentinels.absent_cons_iff.mpr ⟨intact, Sentinels.absent_nil⟩
  have titles : ∀ reader : SlideReader, sentinels.Absent reader.texts →
      sentinels.Absent (if reader.title.isNone && reader.blocks.isEmpty then
        { reader with title := some title }
      else reader.addMarkdown (Section.headingText depth title)).texts := by
    intro reader absent
    split
    · obtain ⟨hdeck, hslides, _, others⟩ := absent_texts_iff.mp absent
      exact absent_texts_iff.mpr ⟨hdeck, hslides, htitled, others⟩
    · exact absent_addMarkdown reserved absent (Section.intact_headingText reserved depth intact)
  apply titles
  split
  · obtain ⟨_, others⟩ := absent_texts_iff.mp absent
    exact absent_texts_iff.mpr ⟨htitled, others⟩
  · exact absent

theorem absent_read (reserved : sentinels.Reserved) (absent : sentinels.Absent reader.texts)
    {event : Event} (h : sentinels.Absent event.texts) :
    sentinels.Absent (reader.read event).texts := by
  obtain ⟨hdeck, hslides, htitle, hblocks, hnotes⟩ := absent_texts_iff.mp absent
  unfold read
  split
  · exact absent_addHeading reserved absent _ (Sentinels.absent_cons_iff.mp h).1
  · exact absent_endSlide absent
  · exact absent_addMarkdown reserved absent (Sentinels.absent_cons_iff.mp h).1
  · exact absent_texts_iff.mpr ⟨hdeck, hslides, htitle,
      List.forall_mem_cons.mpr ⟨h, hblocks⟩, hnotes⟩
  · exact absent_texts_iff.mpr ⟨hdeck, hslides, htitle,
      List.forall_mem_cons.mpr ⟨h, hblocks⟩, hnotes⟩
  · exact absent_texts_iff.mpr ⟨hdeck, hslides, htitle, hblocks,
      Sentinels.absent_cons_iff.mpr ⟨(Sentinels.absent_cons_iff.mp h).1, hnotes⟩⟩

end SlideReader

theorem SlideDeck.absent_of_ofEvents (reserved : sentinels.Reserved) {events : List Event}
    (h : ∀ event ∈ events, sentinels.Absent event.texts) :
    sentinels.Absent (ofEvents events).texts := by
  have run : ∀ reader : SlideReader, sentinels.Absent reader.texts →
      sentinels.Absent (events.foldl SlideReader.read reader).texts := by
    induction events with
    | nil => exact fun reader absent => absent
    | cons event rest ih =>
      intro reader absent
      obtain ⟨hevent, hrest⟩ := List.forall_mem_cons.mp h
      exact ih hrest _ (SlideReader.absent_read reserved absent hevent)
  obtain ⟨hdeck, hslides, _⟩ :=
    SlideReader.absent_texts_iff.mp (SlideReader.absent_endSlide (run .initial Sentinels.absent_nil))
  rw [ofEvents, texts, Sentinels.absent_append_iff, Sentinels.absent_flatMap_iff]
  exact ⟨hdeck, fun slide hslide => hslides slide (List.mem_reverse.mp hslide)⟩

/-- A tree has no sentinel when the events that it is made of have none. -/
theorem DocumentTree.absent_of_ofEvents {parsed : ParsedDocument} {context : Context}
    {events : List Event} {tree : DocumentTree} (reserved : sentinels.Reserved)
    (h : ∀ event ∈ events, sentinels.Absent event.texts)
    (made : ofEvents parsed context events = .ok tree) : sentinels.Absent tree.texts := by
  rcases ofEvents_cases made with ⟨_, rfl⟩ | ⟨_, document, hdocument, rfl | rfl⟩
  · exact SlideDeck.absent_of_ofEvents reserved h
  · exact SectionedDocument.absent_of_ofEvents reserved h hdocument
  · exact SectionedDocument.absent_of_ofEvents reserved h hdocument

end Courseware
