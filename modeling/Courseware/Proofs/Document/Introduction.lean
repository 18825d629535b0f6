import Courseware.Proofs.Document.Shape

/-!
# The introduction of a document

What stands before the first section of a document is its introduction, unless it is a task. Prose,
breaks and sub-headings are put there as they are read. Notes are not: they wait with the tasks,
since a note among tasks belongs to their category, and when the introduction ends without a task
they are put behind all the rest. So the introduction is in the order of the document exactly when
nothing but notes comes after a note, which is `SectionedDocument.ofEvents_orders_introduction_iff`.

Once a section has begun, nothing is added to the introduction any more. What is proved by induction
is therefore a statement about a reader that stands before any section.
-/

namespace Courseware

namespace Event

/-- What stands before the first section in the order in which the introduction has it: notes come
last. Among tasks they are no part of it. -/
def introduced (preamble : List Event) : List Event :=
  preamble.filter (fun event => !event.isDirective) ++
    if preamble.any fun event => event.task?.isSome then [] else preamble.filter isDirective

/-- What satisfies a condition is last already exactly when nothing else comes after any of it. -/
theorem filter_append_filter_eq_iff {α : Type} (last : α → Bool) (items : List α) :
    items.filter (fun item => !last item) ++ items.filter last = items ↔
      items.Pairwise fun first later => last first = true → last later = true := by
  constructor
  · intro h
    have hearly : ∀ item ∈ items.filter fun item => !last item, ¬last item = true := by
      intro item hitem
      simpa using (List.mem_filter.mp hitem).2
    have hlate : ∀ item ∈ items.filter last, last item = true := fun item hitem =>
      (List.mem_filter.mp hitem).2
    rw [← h, List.pairwise_append]
    refine ⟨?_, ?_, ?_⟩
    · exact List.pairwise_of_forall_mem_list fun first hfirst _ _ h => absurd h (hearly first hfirst)
    · exact List.pairwise_of_forall_mem_list fun _ _ later hlater _ => hlate later hlater
    · exact fun _ _ later hlater _ => hlate later hlater
  · intro h
    induction items with
    | nil => rfl
    | cons item rest ih =>
      obtain ⟨hlater, hrest⟩ := List.pairwise_cons.mp h
      by_cases hitem : last item = true
      · have hall : ∀ other ∈ rest, last other = true := fun other hother =>
          hlater other hother hitem
        rw [List.filter_cons_of_neg (by simp [hitem]), List.filter_cons_of_pos hitem,
          List.filter_eq_nil_iff.mpr (by simpa using hall), List.filter_eq_self.mpr hall]
        rfl
      · rw [List.filter_cons_of_pos (by simp [hitem]), List.filter_cons_of_neg hitem,
          List.cons_append, ih hrest]

variable {preamble : List Event}

/-- Without tasks only the order is changed. -/
theorem introduced_of_taskless (taskless : ∀ event ∈ preamble, event.task? = none) :
    introduced preamble =
      preamble.filter (fun event => !event.isDirective) ++ preamble.filter isDirective := by
  have hnone : (preamble.any fun event => event.task?.isSome) = false := by
    refine List.any_eq_false.mpr fun event hevent => ?_
    rw [taskless event hevent]
    exact Bool.false_ne_true
  rw [introduced, hnone, if_neg Bool.false_ne_true]

/-- Without tasks and without notes for the presenter every event is a paragraph. -/
theorem paragraph?_ne_none {event : Event} (taskless : event.task? = none)
    (clear : ∀ offset content, event ≠ directive offset (.presenterNote content)) :
    event.paragraph? ≠ none := by
  cases event with
  | heading depth title => exact Option.some_ne_none _
  | thematicBreak => exact Option.some_ne_none _
  | prose text => exact Option.some_ne_none _
  | directive offset content =>
    cases content with
    | note content => exact Option.some_ne_none _
    | task task => exact nomatch taskless
    | presenterNote content => exact absurd rfl (clear offset content)

end Event

/-- The texts that a section leaves to the introduction: all that it has, unless there are tasks in
it. -/
def Section.remarks (draft : Section) : List Text := if draft.hasTasks then [] else draft.text

namespace SectionReader

variable {reader next : SectionReader} {events : List Event}

/-- The introduction of the document when reading stops at a reader. -/
theorem finish_intro (reader : SectionReader) :
    reader.finish.intro = introduction? reader.endSection.intro.reverse := by
  show (if reader.endSection.intro.isEmpty then none else _) = _
  rw [introduction?, List.isEmpty_reverse]
  rfl

/-! ### What a step does to the introduction -/

theorem endSection_intro_of_current {draft : Section} (inside : reader.current = some draft) :
    reader.endSection.intro = reader.intro := by
  rw [endSection, inside]

theorem endSection_intro_of_outside (outside : reader.current = none) :
    reader.endSection.intro = reader.implicit.remarks ++ reader.intro := by
  rw [endSection, outside, Section.remarks]
  by_cases htasks : reader.implicit.hasTasks = true
  · simp only [if_pos htasks, List.nil_append]
  · simp only [if_neg htasks]

/-- Inside a section nothing is added. -/
theorem read_intro_of_current {draft : Section} {event : Event}
    (inside : reader.current = some draft) (h : reader.read event = .ok next) :
    next.intro = reader.intro := by
  cases event with
  | heading depth title =>
    obtain rfl := Except.ok.inj h
    have hnotTitle : ¬(depth = 1 && reader.title.isNone && reader.current.isNone) = true := by
      simp [inside]
    rw [addHeading, if_neg hnotTitle]
    by_cases hdepth : depth ≤ 2
    · rw [if_pos hdepth]
      exact endSection_intro_of_current inside
    · rw [if_neg hdepth, inside]
  | thematicBreak =>
    obtain rfl := Except.ok.inj h
    rw [addProse, inside]
  | prose text =>
    obtain rfl := Except.ok.inj h
    rw [addProse, inside]
  | directive offset directive =>
    cases directive with
    | presenterNote content => simp [read] at h
    | note content =>
      obtain rfl := Except.ok.inj h
      rw [addToSection, inside]
    | task task =>
      obtain rfl := Except.ok.inj h
      rw [addToSection, inside]

/-- Before any section everything is added but directives. -/
theorem read_intro_of_outside {event : Event} (outside : reader.current = none)
    (hbegins : event.begins? = none) (h : reader.read event = .ok next) :
    next.intro = (if event.isDirective then [] else event.paragraph?.toList) ++ reader.intro := by
  cases event with
  | heading depth title =>
    obtain rfl := Except.ok.inj h
    have hdepth := Event.two_lt_of_inside hbegins
    have hnotTitle : ¬(depth = 1 && reader.title.isNone && reader.current.isNone) = true := by
      have hne : depth ≠ 1 := by omega
      simp [hne]
    rw [addHeading, if_neg hnotTitle, if_neg (by omega), outside]
    rfl
  | thematicBreak =>
    obtain rfl := Except.ok.inj h
    rw [addProse, outside]
    rfl
  | prose text =>
    obtain rfl := Except.ok.inj h
    rw [addProse, outside]
    rfl
  | directive offset directive =>
    cases directive with
    | presenterNote content => simp [read] at h
    | note content =>
      obtain rfl := Except.ok.inj h
      rw [addToSection, outside]
      rfl
    | task task =>
      obtain rfl := Except.ok.inj h
      rw [addToSection, outside]
      rfl

/-! ### What a run does to the introduction -/

theorem intro_of_current {draft : Section} (inside : reader.current = some draft)
    (h : events.foldlM read reader = .ok next) : next.endSection.intro = reader.intro := by
  induction events generalizing reader draft with
  | nil =>
    obtain rfl := Except.ok.inj h
    exact endSection_intro_of_current inside
  | cons event rest ih =>
    obtain ⟨after, hread, h⟩ := foldlM_cons_eq_ok_iff.mp h
    have hintro := read_intro_of_current inside hread
    rcases read_of_current inside hread with ⟨_, _, hcurrent, _⟩ | ⟨_, hcurrent, _⟩
    · rw [ih hcurrent h, hintro]
    · rw [ih hcurrent h, hintro]

/-- Reading on from before any section: all that comes up to the first section is added but for the
directives, and what these leave is put behind it. -/
theorem intro_of_outside (outside : reader.current = none)
    (h : events.foldlM read reader = .ok next) :
    next.endSection.intro =
      (((Event.untilSection (reader.others events)).filter Event.isDirective).foldl Section.read
        reader.implicit).remarks ++
      (((Event.untilSection (reader.others events)).filter fun event =>
        !event.isDirective).filterMap Event.paragraph?).reverse ++ reader.intro := by
  induction events generalizing reader with
  | nil =>
    obtain rfl := Except.ok.inj h
    have hothers : reader.others [] = [] := by
      rw [others]
      exact ite_self _
    rw [hothers, endSection_intro_of_outside outside]
    exact congrArg (· ++ reader.intro) (List.append_nil _).symm
  | cons event rest ih =>
    obtain ⟨after, hread, h⟩ := foldlM_cons_eq_ok_iff.mp h
    rcases read_of_outside outside hread with
      ⟨depth, title, rfl, hdepth, kept, rfl⟩ | ⟨title, rfl, huntitled, rfl⟩ | ⟨hbegins, hafter⟩
    · have hbegins : (Event.heading depth title).begins? = some title := if_pos hdepth
      rw [intro_of_current rfl h, others_of_begins hdepth kept,
        Event.untilSection_of_begins hbegins]
      show reader.endSection.intro = _
      rw [endSection_intro_of_outside outside]
      exact congrArg (· ++ reader.intro) (List.append_nil _).symm
    · have hothers : reader.others (.heading 1 title :: rest) = rest := by
        rw [others, huntitled]
        rfl
      have htitled : ({ reader with title := some title } : SectionReader).current = none := outside
      rw [ih htitled h, hothers, others_of_isSome rfl]
    · have hintro := read_intro_of_outside outside hbegins hread
      have hothers : reader.others (event :: rest) = event :: after.others rest := by
        rw [others_of_inside hbegins, hafter]
        rfl
      have himplicit : after.implicit =
          if event.isDirective then reader.implicit.read event else reader.implicit := by
        rw [hafter]
      rw [hothers, Event.untilSection_of_inside hbegins, ih (by rw [hafter, outside]) h, hintro,
        himplicit]
      by_cases hdirective : event.isDirective = true
      · rw [List.filter_cons_of_pos hdirective, List.filter_cons_of_neg (by simp [hdirective]),
          if_pos hdirective, if_pos hdirective]
        rfl
      · rw [List.filter_cons_of_neg hdirective, List.filter_cons_of_pos (by simp [hdirective]),
          if_neg hdirective, if_neg hdirective]
        cases hparagraph : event.paragraph? <;> simp [hparagraph]

end SectionReader

namespace Section

/-- What the directives before any section leave to the introduction: the contents of the notes, when
there is no task among them. -/
theorem remarks_directives (preamble : List Event) :
    ((preamble.filter Event.isDirective).foldl read implicit).remarks =
      ((if preamble.any fun event => event.task?.isSome then []
        else preamble.filter Event.isDirective).filterMap Event.paragraph?).reverse := by
  obtain ⟨_, htext, _⟩ := implicit.foldl_read_outline (preamble.filter Event.isDirective)
  have htasks : ((preamble.filter Event.isDirective).foldl read implicit).hasTasks =
      preamble.any fun event => event.task?.isSome := by
    have hsome := isSome_categoryBefore? preamble
    rw [categoryBefore?, category?] at hsome
    rw [← hsome]
    split
    · next h => exact h
    · next h => exact Bool.eq_false_iff.mpr h
  rw [remarks, htasks, htext]
  split
  · rfl
  · exact List.append_nil _

end Section

namespace SectionedDocument

variable {events : List Event} {document : SectionedDocument}

/-- The introduction of a document has the paragraphs of what stands before the first section, notes
last. -/
theorem intro_of_ofEvents (accepted : ofEvents events = .ok document) :
    document.intro = introduction?
      ((Event.introduced (Event.preamble events)).filterMap Event.paragraph?) := by
  obtain ⟨reader, hread, hfinish⟩ := exists_of_bind_eq_ok accepted
  obtain rfl := Except.ok.inj hfinish
  have hintro := SectionReader.intro_of_outside rfl hread
  have hothers : SectionReader.initial.others events = Event.withoutTitle events := rfl
  rw [SectionReader.finish_intro, hintro, hothers]
  show introduction? (List.reverse (_ ++ _ ++ [])) = _
  rw [List.append_nil, List.reverse_append, List.reverse_reverse, ← Event.preamble]
  show introduction? (_ ++ (Section.remarks (List.foldl _ Section.implicit _)).reverse) = _
  rw [Section.remarks_directives, List.reverse_reverse, ← List.filterMap_append, Event.introduced]

theorem introduction?_eq_none_iff {texts : List Text} : introduction? texts = none ↔ texts = [] := by
  cases texts with
  | nil => exact iff_of_true rfl rfl
  | cons first rest => exact iff_of_false (Option.some_ne_none _) (List.cons_ne_nil _ _)

/-- The order of the introduction. Its paragraphs are those of what stands before the first section:
all but directives first, and then the notes, unless there are tasks among them. When there are none,
the introduction is absent exactly when nothing stands there, and it has everything in the order of
the document exactly when only notes come after a note. -/
theorem ofEvents_orders_introduction_iff (accepted : ofEvents events = .ok document) :
    document.intro = introduction?
        ((Event.introduced (Event.preamble events)).filterMap Event.paragraph?) ∧
    ((∀ event ∈ Event.preamble events, event.task? = none) →
      (document.intro = none ↔ Event.preamble events = []) ∧
      (Event.introduced (Event.preamble events) = Event.preamble events ↔
        (Event.preamble events).Pairwise fun first later =>
          first.isDirective = true → later.isDirective = true)) := by
  have hintro := intro_of_ofEvents accepted
  refine ⟨hintro, fun taskless => ?_⟩
  have hintroduced := Event.introduced_of_taskless taskless
  constructor
  · have hfull : ∀ event ∈ Event.preamble events, event.paragraph? ≠ none := by
      intro event hevent
      apply Event.paragraph?_ne_none (taskless event hevent)
      rintro offset content rfl
      exact clear_of_ofEvents accepted offset content
        (Event.mem_of_mem_withoutTitle (Event.mem_of_mem_untilSection hevent))
    have hparts : ∀ event, event ∈ Event.introduced (Event.preamble events) ↔
        event ∈ Event.preamble events := by
      intro event
      rw [hintroduced, List.mem_append, List.mem_filter, List.mem_filter]
      cases event.isDirective <;> simp
    rw [hintro, introduction?_eq_none_iff, List.filterMap_eq_nil_iff,
      List.eq_nil_iff_forall_not_mem]
    apply forall_congr'
    intro event
    rw [hparts]
    exact ⟨fun hnone hevent => hfull event hevent (hnone hevent),
      fun habsent hevent => absurd hevent habsent⟩
  · rw [hintroduced]
    exact Event.filter_append_filter_eq_iff _ _

/-- A title, prose, a break and a sub-heading, and then a note before the first section. -/
def openedEvents : List Event :=
  [.heading 1 ['T'], .prose ['p'], .thematicBreak, .heading 3 ['s'], .directive 20 (.note ['n']),
    .heading 2 ['A'], .directive 40 (.task (.text ['d'] none none))]

/-- The note comes last in the document, and so the introduction is in order. -/
theorem ofEvents_orders_introduction_iff_opened :
    ∃ document, ofEvents openedEvents = .ok document ∧
      document.intro = some "p\n\n---\n\n### s\n\nn".toList ∧
      Event.introduced (Event.preamble openedEvents) = Event.preamble openedEvents := by
  have accepted : ofEvents openedEvents = .ok ⟨some ['T'], some "p\n\n---\n\n### s\n\nn".toList,
      [.tasks .core ['A'] [.taskSet ⟨none, none, [.text ['d'] none none]⟩]]⟩ := by
    decide
  have taskless : ∀ event ∈ Event.preamble openedEvents, event.task? = none := by decide
  obtain ⟨hintro, hordered⟩ := ofEvents_orders_introduction_iff accepted
  exact ⟨_, accepted, hintro.trans (by decide), ((hordered taskless).2).mpr (by decide)⟩

/-- The introduction is not in the order of the document in general: prose after a note is put before
it. -/
theorem ofEvents_delays_note :
    ¬∀ (events : List Event) (document : SectionedDocument), ofEvents events = .ok document →
      (∀ event ∈ Event.preamble events, event.task? = none) →
        document.intro = introduction? ((Event.preamble events).filterMap Event.paragraph?) := by
  intro ordered
  have accepted : ofEvents [.directive 0 (.note ['n']), .prose "after".toList] =
      .ok ⟨none, some "after\n\nn".toList, []⟩ := by
    decide
  exact absurd (ordered _ _ accepted (by decide)) (by decide)

end SectionedDocument
end Courseware
