import Courseware.Proofs.Document.Conservation

/-!
# The categories of a document

Which categories a document has, and of which kind, follows from its headings and from where its
tasks are. A section without tasks is information as a whole, and then its text is all that stands
in it, line by line; `Event.paragraph?` says what each event adds. A section with tasks is of the
kind that its heading announces.

The kind of a section is fixed when it begins, and whether it has tasks is known only when it ends.
Its text is kept all the while, and used only if there are none.
-/

namespace Courseware

/-- What an event is in a text: prose as it is, a break as a line, a heading with its number signs,
and a note by its content. Tasks are no text. -/
def Event.paragraph? : Event → Option Text
  | heading depth title => some (Section.headingText depth title)
  | thematicBreak => some ['-', '-', '-']
  | prose text => some text
  | directive _ (.note content) => some content
  | directive _ (.task _) => none
  | directive _ (.presenterNote _) => none

namespace Section

/-- Settling a section changes its items and what waits, and nothing else. -/
theorem settled_eq (draft : Section) :
    draft.settled = { draft with
      items := draft.settled.items
      waiting := []
      subtitle := draft.settled.subtitle
      openSet := none } := by
  obtain ⟨kind, title, items, text, waiting, subtitle, openSet, hasTasks⟩ := draft
  cases waiting <;> cases openSet <;> rfl

theorem addTask_kind (draft : Section) (task : Task) : (draft.addTask task).kind = draft.kind := by
  obtain ⟨kind, title, items, text, waiting, subtitle, openSet, hasTasks⟩ := draft
  cases waiting <;> cases openSet <;> rfl

/-- What an event does to the kind and the text of a section, and to whether it has tasks. -/
theorem read_outline (draft : Section) (event : Event) :
    (draft.read event).kind = draft.kind ∧
    (draft.read event).text = event.paragraph?.toList ++ draft.text ∧
    (draft.read event).hasTasks = (draft.hasTasks || event.task?.isSome) := by
  have hunchanged : draft.hasTasks = (draft.hasTasks || false) := (Bool.or_false _).symm
  cases event with
  | heading depth title =>
    rw [read, addHeading, ← settled, settled_eq]
    exact ⟨rfl, rfl, hunchanged⟩
  | thematicBreak => exact ⟨rfl, rfl, hunchanged⟩
  | prose text => exact ⟨rfl, rfl, hunchanged⟩
  | directive offset directive =>
    cases directive with
    | presenterNote content => exact ⟨rfl, rfl, hunchanged⟩
    | note content =>
      rw [read, addNote, ← settled, settled_eq]
      exact ⟨rfl, rfl, hunchanged⟩
    | task task =>
      refine ⟨addTask_kind draft task, addTask_text draft task, ?_⟩
      rw [read, addTask_hasTasks]
      exact (Bool.or_true _).symm

/-- What events do to the kind and the text of a section, and to whether it has tasks. -/
theorem foldl_read_outline (draft : Section) (events : List Event) :
    (events.foldl read draft).kind = draft.kind ∧
    (events.foldl read draft).text = (events.filterMap Event.paragraph?).reverse ++ draft.text ∧
    (events.foldl read draft).hasTasks =
      (draft.hasTasks || events.any fun event => event.task?.isSome) := by
  induction events generalizing draft with
  | nil => exact ⟨rfl, rfl, (Bool.or_false _).symm⟩
  | cons event rest ih =>
    obtain ⟨hkind, htext, htasks⟩ := draft.read_outline event
    obtain ⟨hkinds, htexts, hrest⟩ := ih (draft.read event)
    rw [List.foldl_cons]
    refine ⟨hkinds.trans hkind, ?_, ?_⟩
    · rw [htexts, htext]
      cases hparagraph : event.paragraph? <;> simp [hparagraph]
    · rw [hrest, htasks, List.any_cons, Bool.or_assoc]

/-- The section that needs no heading is one without title: no word in it would make it anything but
core. -/
theorem implicit_eq_begin : implicit = begin [] := rfl

/-- A section has tasks when there are tasks among its events. -/
theorem hasTasks_foldl_begin (title : Text) (events : List Event) :
    (events.foldl read (begin title)).hasTasks = events.any fun event => event.task?.isSome := by
  rw [((begin title).foldl_read_outline events).2.2]
  exact Bool.false_or _

/-- What category a section makes. `Shapes` holds of information when there is no task in the
section, with the text of all that stands there, and else of items of the kind that the heading
announces. -/
def Shapes (passage : Text × List Event) (category : Category) : Prop :=
  if passage.2.any fun event => event.task?.isSome then
    ∃ items, category = .tasks (.ofHeading passage.1) passage.1 items
  else
    category = .info passage.1 (Text.join ['\n', '\n'] (passage.2.filterMap Event.paragraph?))

theorem shapes_categoryOf (passage : Text × List Event) : Shapes passage (categoryOf passage) := by
  obtain ⟨hkind, htext, _⟩ := (begin passage.1).foldl_read_outline passage.2
  have htitle := (begin passage.1).foldl_read_title passage.2
  rw [Shapes, categoryOf, category, hasTasks_foldl_begin]
  split
  · rw [hkind, htitle]
    exact ⟨_, rfl⟩
  · rw [htitle, htext, paragraphs, List.reverse_append, List.reverse_reverse]
    rfl

/-- What stands before any section makes a category exactly when there are tasks. -/
theorem isSome_categoryBefore? (preamble : List Event) :
    (categoryBefore? preamble).isSome = preamble.any fun event => event.task?.isSome := by
  have hdirective : ∀ event : Event,
      (event.isDirective && event.task?.isSome) = event.task?.isSome := by
    intro event
    cases event <;> rfl
  rw [categoryBefore?, implicit_eq_begin, category?, hasTasks_foldl_begin, List.any_filter]
  simp only [hdirective]
  split
  · next h => rw [h, Option.isSome_some]
  · next h => rw [Bool.eq_false_iff.mpr h, Option.isSome_none]

/-- The category of what stands before any section is a core category without title. -/
theorem exists_of_categoryBefore? {preamble : List Event} {category : Category}
    (h : category ∈ categoryBefore? preamble) : ∃ items, category = .tasks .core [] items := by
  have hshape := shapes_categoryOf ([], preamble.filter Event.isDirective)
  rw [categoryBefore?, implicit_eq_begin, category?] at h
  split at h
  · next htasks =>
    obtain rfl := Option.some.inj h
    rw [hasTasks_foldl_begin] at htasks
    rwa [Shapes, if_pos htasks] at hshape
  · exact nomatch h

end Section

namespace SectionedDocument

/-- The shape of a document. Its title is that of a heading which begins no section; all other
headings of at most the second depth begin sections. There is a core category without title exactly
when a task comes before any section, and then there is one category for each section, in order and
with its title: information with the text of all that stands there when there is no task in the
section, and else of the kind that the heading announces. -/
theorem ofEvents_shapes_categories {events : List Event} {document : SectionedDocument}
    (accepted : ofEvents events = .ok document) :
    document.title = Event.title? events ∧
    (Event.passages events).map Prod.fst = (Event.withoutTitle events).filterMap Event.begins? ∧
    document.Divides events
      (fun preamble first =>
        (first.isSome ↔ ∃ event ∈ preamble, event.task?.isSome) ∧
          ∀ category ∈ first, ∃ items, category = .tasks .core [] items)
      Section.Shapes := by
  refine ⟨title_of_ofEvents accepted, Event.map_fst_sections _,
    divides_of_ofEvents accepted (fun _ => ⟨?_, ?_⟩) ?_⟩
  · rw [Section.isSome_categoryBefore?, List.any_eq_true]
  · intro category hcategory
    exact Section.exists_of_categoryBefore? hcategory
  · intro passage _ _
    exact Section.shapes_categoryOf passage

/-- A task before the title, a second heading of depth one that begins a section with a task, and a
section without tasks that holds prose, a heading, a break and a note. -/
def shapedEvents : List Event :=
  [.directive 0 (.task (.text ['a'] none none)), .heading 1 ['T'], .prose ['p'],
    .heading 1 "Bonus".toList, .directive 30 (.task (.text ['b'] none none)),
    .heading 2 ['A'], .prose ['q'], .heading 3 ['c'], .thematicBreak, .directive 60 (.note ['n'])]

/-- The second heading of depth one begins a challenge, and the section without tasks becomes one
text. -/
theorem ofEvents_shapes_categories_bonus :
    ∃ document tasks bonus, ofEvents shapedEvents = .ok document ∧
      document.title = some ['T'] ∧
      document.categories = [.tasks .core [] tasks, .tasks .challenge "Bonus".toList bonus,
        .info ['A'] "q\n\n### c\n\n---\n\nn".toList] ∧
      document.Divides shapedEvents
        (fun preamble first =>
          (first.isSome ↔ ∃ event ∈ preamble, event.task?.isSome) ∧
            ∀ category ∈ first, ∃ items, category = .tasks .core [] items)
        Section.Shapes := by
  have accepted : ofEvents shapedEvents = .ok ⟨some ['T'], some ['p'],
      [.tasks .core [] [.taskSet ⟨none, none, [.text ['a'] none none]⟩],
        .tasks .challenge "Bonus".toList [.taskSet ⟨none, none, [.text ['b'] none none]⟩],
        .info ['A'] "q\n\n### c\n\n---\n\nn".toList]⟩ := by
    decide
  obtain ⟨htitle, _, hdivides⟩ := ofEvents_shapes_categories accepted
  exact ⟨_, _, _, accepted, htitle, rfl, hdivides⟩

end SectionedDocument
end Courseware
