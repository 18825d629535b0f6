import Courseware.Proofs.Document.Shape
import Courseware.Proofs.Document.Standing

/-!
# How tasks are grouped

The task sets of a section are the maximal runs of tasks among its events. `Event.taskSetAt?` says
where one begins: before a task and not after one. It takes the prose right before that place as its
introduction and goes on for as long as tasks follow. The sets that a section makes are those of all
its places, in order.

A set is opened by its first task and closed by something else much later, so what is proved by
induction is a statement about an open set, `Section.sets_foldl_read`: it goes on with the tasks
that come next, if reading has got to a place right after a task, and else it stays as it is.

Before any section only directives are read. So the tasks there are grouped as if nothing else stood
among them, and only notes part them.
-/

namespace Courseware

namespace Event

/-- The tasks right after a place, given all events after it. -/
def tasksAfter (after : List Event) : List Task :=
  (after.takeWhile fun event => event.task?.isSome).filterMap task?

/-- The task set that begins at a place. -/
def taskSetAt? (place : List Event × List Event) : Option TaskSet :=
  match tasksAfter place.2 with
  | [] => none
  | tasks =>
    if endsInTask place.1 then none
    else some ⟨freshHeading? place.1, introduction? (proseBefore place.1), tasks⟩

/-- The task sets of events: the runs of tasks among them, each with the prose right before it. -/
def taskSets (events : List Event) : List TaskSet := (places events).filterMap taskSetAt?

section
variable {before rest events : List Event} {event : Event}

theorem exists_of_task?_eq_some {task : Task} (h : event.task? = some task) :
    ∃ offset, event = directive offset (.task task) := by
  cases event with
  | directive offset content =>
    cases content with
    | task other =>
      obtain rfl := Option.some.inj h
      exact ⟨offset, rfl⟩
    | note content => exact nomatch h
    | presenterNote content => exact nomatch h
  | heading depth title => exact nomatch h
  | thematicBreak => exact nomatch h
  | prose text => exact nomatch h

theorem tasksAfter_cons_of_none (h : event.task? = none) (rest : List Event) :
    tasksAfter (event :: rest) = [] := by
  rw [tasksAfter, List.takeWhile_cons_of_neg (by simp [h])]
  rfl

theorem tasksAfter_cons_task (offset : Nat) (task : Task) (rest : List Event) :
    tasksAfter (directive offset (.task task) :: rest) = task :: tasksAfter rest := rfl

/-- No set begins where no task follows. -/
theorem taskSetAt?_of_none (h : event.task? = none) (before rest : List Event) :
    taskSetAt? (before, event :: rest) = none := by
  rw [taskSetAt?, tasksAfter_cons_of_none h]

/-- No set begins between two tasks. -/
theorem taskSetAt?_of_endsInTask (h : endsInTask before = true) (after : List Event) :
    taskSetAt? (before, after) = none := by
  unfold taskSetAt?
  split
  · rfl
  · exact if_pos h

theorem taskSetAt?_of_begins (h : endsInTask before = false) (offset : Nat) (task : Task)
    (rest : List Event) :
    taskSetAt? (before, directive offset (.task task) :: rest) =
      some ⟨freshHeading? before, introduction? (proseBefore before), task :: tasksAfter rest⟩ := by
  rw [taskSetAt?, tasksAfter_cons_task, h]
  rfl

theorem spec_of_taskSetAt? {place : List Event × List Event} {set : TaskSet}
    (h : taskSetAt? place = some set) :
    set.tasks ≠ [] ∧ set.title = freshHeading? place.1 ∧
      set.intro = introduction? (proseBefore place.1) := by
  unfold taskSetAt? at h
  split at h
  · exact nomatch h
  · next hfull =>
    split at h
    · exact nomatch h
    · obtain rfl := Option.some.inj h
      exact ⟨hfull, rfl, rfl⟩

/-- Every task is in one set, and the sets have the tasks in order. From a place right after a task
on, the tasks that go on with it are in none of the sets that begin later. -/
theorem flatMap_tasks_placesFrom (before events : List Event) :
    (if endsInTask before then tasksAfter events else []) ++
      ((placesFrom before events).filterMap taskSetAt?).flatMap TaskSet.tasks =
        events.filterMap task? := by
  induction events generalizing before with
  | nil => cases h : endsInTask before <;> rfl
  | cons event rest ih =>
    have hrest := ih (before ++ [event])
    rw [endsInTask_concat] at hrest
    rw [placesFrom]
    cases htask : event.task? with
    | none =>
      rw [htask] at hrest
      rw [List.filterMap_cons_none (taskSetAt?_of_none htask before rest),
        List.filterMap_cons_none htask, tasksAfter_cons_of_none htask, ite_self]
      exact hrest
    | some task =>
      obtain ⟨offset, rfl⟩ := exists_of_task?_eq_some htask
      rw [List.filterMap_cons_some htask, ← hrest, htask, tasksAfter_cons_task]
      cases hends : endsInTask before with
      | true =>
        rw [List.filterMap_cons_none (taskSetAt?_of_endsInTask hends _)]
        rfl
      | false =>
        rw [List.filterMap_cons_some (taskSetAt?_of_begins hends offset task rest),
          List.flatMap_cons]
        rfl

/-- The sets have all tasks, in order. -/
theorem flatMap_tasks_taskSets (events : List Event) :
    (taskSets events).flatMap TaskSet.tasks = events.filterMap task? :=
  flatMap_tasks_placesFrom [] events

/-- Without tasks there are no sets. -/
theorem taskSets_eq_nil (h : (events.any fun event => event.task?.isSome) = false) :
    taskSets events = [] := by
  have htasks : events.filterMap task? = [] := by
    refine List.filterMap_eq_nil_iff.mpr fun event hevent => ?_
    exact Option.not_isSome_iff_eq_none.mp (List.any_eq_false.mp h event hevent)
  rw [← flatMap_tasks_taskSets, List.flatMap_eq_nil_iff] at htasks
  refine List.eq_nil_iff_forall_not_mem.mpr fun set hset => ?_
  obtain ⟨place, _, hplace⟩ := List.mem_filterMap.mp hset
  exact (spec_of_taskSetAt? hplace).1 (htasks set hset)

/-- Among directives no set has a title or an introduction. -/
theorem bare_of_mem_taskSets {set : TaskSet}
    (h : set ∈ taskSets (events.filter isDirective)) : set.title = none ∧ set.intro = none := by
  obtain ⟨place, hplace, hset⟩ := List.mem_filterMap.mp h
  have hdirectives := isDirective_of_mem_places hplace
  obtain ⟨_, htitle, hintro⟩ := spec_of_taskSetAt? hset
  rw [htitle, hintro, freshHeading?_of_directives hdirectives,
    proseBefore_of_directives hdirectives]
  exact ⟨rfl, rfl⟩

end
end Event

/-- The task set that an item is. -/
def Item.taskSet? : Item → Option TaskSet
  | taskSet set => some set
  | info .. | note _ => none

/-- The task sets of a category, in order. -/
def Category.taskSets (category : Category) : List TaskSet := category.items.filterMap Item.taskSet?

namespace Section

/-- The task sets of a section so far, in order. The open one is the last. -/
def sets (draft : Section) : List TaskSet :=
  draft.items.reverse.filterMap Item.taskSet? ++ draft.openSet.toList

/-- A section whose open set goes on with some tasks. -/
def goOn (draft : Section) (tasks : List Task) : Section :=
  { draft with openSet := draft.openSet.map fun set => { set with tasks := set.tasks ++ tasks } }

theorem goOn_nil (draft : Section) : draft.goOn [] = draft := by
  obtain ⟨kind, title, items, text, waiting, subtitle, openSet, hasTasks⟩ := draft
  cases openSet <;> simp [goOn]

theorem filterMap_shelf (draft : Section) :
    draft.shelf.reverse.filterMap Item.taskSet? = draft.sets := by
  cases h : draft.openSet <;> simp [shelf, sets, h, Item.taskSet?]

/-- Settling a section keeps its task sets: waiting prose is made information, and the open set is
closed. -/
theorem sets_settled (draft : Section) : draft.settled.sets = draft.sets := by
  obtain ⟨kind, title, items, text, waiting, subtitle, openSet, hasTasks⟩ := draft
  cases waiting <;> cases openSet <;>
    simp [settled, flushProse, closeSet, sets, List.filterMap_cons, Item.taskSet?]

/-- An event that is no task keeps the task sets. -/
theorem sets_read_of_none (draft : Section) {event : Event} (h : event.task? = none) :
    (draft.read event).sets = draft.sets := by
  cases event with
  | heading depth title => exact sets_settled draft
  | thematicBreak => rfl
  | prose text => rfl
  | directive offset content =>
    cases content with
    | task task => exact nomatch h
    | note content =>
      rw [← sets_settled draft]
      show (Item.note content :: draft.settled.items).reverse.filterMap Item.taskSet? ++ _ = _
      rw [List.reverse_cons, List.filterMap_append]
      exact congrArg (· ++ _) (List.append_nil _)
    | presenterNote content => rfl

variable {draft : Section} {before : List Event}

/-- After a task the open set goes on with the next one. -/
theorem sets_goOn_addTask_of_running (stands : draft.Stands before)
    (h : Event.endsInTask before = true) (task : Task) (tasks : List Task) :
    ((draft.addTask task).goOn tasks).sets = (draft.goOn (task :: tasks)).sets := by
  rcases draft.addTask_cases task with ⟨set, hopen, _, hadd⟩ | ⟨hstopped, _⟩
  · rw [hadd, goOn, goOn, hopen]
    simp [sets]
  · rw [stands.running, h] at hstopped
    exact nomatch hstopped

/-- Elsewhere a task begins the set of its place, which goes on with the tasks that follow. -/
theorem sets_goOn_addTask_of_stopped (stands : draft.Stands before)
    (h : Event.endsInTask before = false) (offset : Nat) (task : Task) (rest : List Event) :
    ((draft.addTask task).goOn (Event.tasksAfter rest)).sets =
      draft.sets ++ (Event.taskSetAt? (before, .directive offset (.task task) :: rest)).toList := by
  rw [Event.taskSetAt?_of_begins h]
  rcases draft.addTask_cases task with ⟨set, hopen, hwaiting, _⟩ | ⟨_, hadd⟩
  · have hrunning := stands.running
    rw [hopen, hwaiting, h] at hrunning
    exact nomatch hrunning
  · rw [hadd, stands.waiting, stands.subtitle, ← filterMap_shelf draft]
    rfl

/-- The task sets of a section that stands at some place and reads on. Its own sets come first, and
the last of them goes on if the section stands after a task; then come the sets that begin from this
place on. -/
theorem sets_foldl_read {events : List Event} (stands : draft.Stands before)
    (clear : Event.Clear events) :
    (events.foldl read draft).sets =
      (draft.goOn (if Event.endsInTask before then Event.tasksAfter events else [])).sets ++
        (Event.placesFrom before events).filterMap Event.taskSetAt? := by
  induction events generalizing draft before with
  | nil =>
    have hnone : Event.taskSetAt? (before, []) = none := rfl
    have htasks : Event.tasksAfter [] = [] := rfl
    rw [Event.placesFrom, List.filterMap_cons_none hnone, htasks, ite_self, goOn_nil]
    exact (List.append_nil _).symm
  | cons event rest ih =>
    rw [List.foldl_cons, ih (stands.read clear.head) clear.tail, Event.endsInTask_concat,
      Event.placesFrom]
    cases htask : event.task? with
    | none =>
      rw [List.filterMap_cons_none (Event.taskSetAt?_of_none htask before rest),
        Event.tasksAfter_cons_of_none htask, ite_self, goOn_nil, ← sets_read_of_none draft htask]
      rw [Option.isSome_none, if_neg Bool.false_ne_true, goOn_nil]
    | some task =>
      obtain ⟨offset, rfl⟩ := Event.exists_of_task?_eq_some htask
      rw [Option.isSome_some, if_pos rfl, Event.tasksAfter_cons_task]
      cases hends : Event.endsInTask before with
      | true =>
        rw [if_pos rfl, List.filterMap_cons_none (Event.taskSetAt?_of_endsInTask hends _)]
        exact congrArg (· ++ _) (sets_goOn_addTask_of_running stands hends task _)
      | false =>
        rw [if_neg Bool.false_ne_true, goOn_nil,
          List.filterMap_cons_some (Event.taskSetAt?_of_begins hends offset task rest)]
        have hbegin := sets_goOn_addTask_of_stopped stands hends offset task rest
        rw [Event.taskSetAt?_of_begins hends] at hbegin
        show ((draft.addTask task).goOn _).sets ++ _ = _
        rw [hbegin, List.append_assoc]
        rfl

/-- The category of a section with tasks has the task sets of the section. -/
theorem taskSets_category (draft : Section) (h : draft.hasTasks = true) :
    draft.category.taskSets = draft.sets := by
  rw [category, if_pos h, ← sets_settled, sets, settled_openSet]
  exact (List.append_nil _).symm

/-- The category of a section that is made of events has their task sets, if it has tasks at all. -/
theorem taskSets_category_foldl_read {events : List Event} (title : Text)
    (clear : Event.Clear events) (hany : (events.any fun event => event.task?.isSome) = true) :
    (events.foldl read (begin title)).category.taskSets = Event.taskSets events := by
  have hends : Event.endsInTask [] = false := rfl
  rw [taskSets_category _ (by rw [hasTasks_foldl_begin, hany]),
    sets_foldl_read (.begin title) clear, hends, if_neg Bool.false_ne_true, goOn_nil]
  rfl

/-- The task sets of a category are those of its section. -/
theorem taskSets_categoryOf {passage : Text × List Event} (clear : Event.Clear passage.2) :
    (categoryOf passage).taskSets = Event.taskSets passage.2 := by
  cases hany : passage.2.any fun event => event.task?.isSome with
  | false =>
    have hshape := shapes_categoryOf passage
    rw [Shapes, hany, if_neg Bool.false_ne_true] at hshape
    rw [hshape, Event.taskSets_eq_nil hany]
    rfl
  | true => exact taskSets_category_foldl_read passage.1 clear hany

/-- The task sets before any section are those of the directives there. -/
theorem flatMap_taskSets_categoryBefore? {preamble : List Event} (clear : Event.Clear preamble) :
    (categoryBefore? preamble).toList.flatMap Category.taskSets =
      Event.taskSets (preamble.filter Event.isDirective) := by
  rw [categoryBefore?, implicit_eq_begin, category?, hasTasks_foldl_begin]
  split
  · next hany =>
    rw [← taskSets_category_foldl_read [] clear.directives hany]
    exact List.append_nil _
  · next hany =>
    rw [Bool.not_eq_true] at hany
    rw [Event.taskSets_eq_nil hany]
    rfl

end Section

/-- What is made of the tasks before any section. The task sets are the runs of tasks when all but
directives is left out, so that only notes part them; all tasks are in them, in order; and no set
has a title or an introduction. -/
structure TaskSet.Gather (preamble : List Event) (sets : List TaskSet) : Prop where
  runs : sets = Event.taskSets (preamble.filter Event.isDirective)
  tasks : sets.flatMap TaskSet.tasks = preamble.filterMap Event.task?
  bare : ∀ set ∈ sets, set.title = none ∧ set.intro = none

theorem TaskSet.gather_taskSets (preamble : List Event) :
    Gather preamble (Event.taskSets (preamble.filter Event.isDirective)) := by
  have hdirective : ∀ event : Event,
      (if event.isDirective then event.task? else none) = event.task? := by
    intro event
    cases event <;> rfl
  constructor
  case runs => rfl
  case tasks =>
    rw [Event.flatMap_tasks_taskSets, List.filterMap_filter]
    exact congrArg (fun task? => List.filterMap task? preamble) (funext hdirective)
  case bare => exact fun set hset => Event.bare_of_mem_taskSets hset

namespace SectionedDocument

/-- How the tasks of a document are grouped. The task sets of a category are the maximal runs of
tasks in its section, in order, and each is introduced by the prose right before its run, if there
is some. The tasks before any section are all in the category without title, where only notes part
the sets. -/
theorem ofEvents_groups_tasks {events : List Event} {document : SectionedDocument}
    (accepted : ofEvents events = .ok document) :
    document.Divides events
      (fun preamble first => TaskSet.Gather preamble (first.toList.flatMap Category.taskSets))
      (fun passage category => category.taskSets = Event.taskSets passage.2) := by
  refine divides_of_ofEvents accepted (fun clear => ?_) fun passage _ clear => ?_
  · rw [Section.flatMap_taskSets_categoryBefore? clear]
    exact TaskSet.gather_taskSets _
  · exact Section.taskSets_categoryOf clear

/-- Three tasks before any section, parted by prose and by a note, and a section in which tasks are
parted by prose and by a heading. -/
def groupedEvents : List Event :=
  [.directive 0 (.task (.text ['a'] none none)), .prose ['p'],
    .directive 15 (.task (.text ['b'] none none)), .directive 30 (.note ['n']),
    .directive 40 (.task (.text ['c'] none none)), .heading 1 ['T'],
    .heading 2 ['A'], .prose ['q'], .thematicBreak, .directive 60 (.task (.text ['d'] none none)),
    .directive 75 (.task (.text ['e'] none none)), .prose ['r'],
    .directive 95 (.task (.text ['f'] none none)), .heading 3 ['B'],
    .directive 120 (.task (.text ['g'] none none)), .prose ['s']]

/-- Before the section only the note parts the tasks; in it there are three sets, the first with
prose and a break as introduction and the last without any. -/
theorem ofEvents_groups_tasks_parted :
    ∃ document, ofEvents groupedEvents = .ok document ∧
      Event.taskSets (Event.preamble groupedEvents |>.filter Event.isDirective) =
        [⟨none, none, [.text ['a'] none none, .text ['b'] none none]⟩,
          ⟨none, none, [.text ['c'] none none]⟩] ∧
      (Event.passages groupedEvents).map (fun passage => Event.taskSets passage.2) =
        [[⟨none, some "q\n\n---".toList, [.text ['d'] none none, .text ['e'] none none]⟩,
          ⟨none, some ['r'], [.text ['f'] none none]⟩,
          ⟨some ['B'], none, [.text ['g'] none none]⟩]] ∧
      document.Divides groupedEvents
        (fun preamble first => TaskSet.Gather preamble (first.toList.flatMap Category.taskSets))
        (fun passage category => category.taskSets = Event.taskSets passage.2) := by
  obtain ⟨document, accepted⟩ : ∃ document, ofEvents groupedEvents = .ok document := ⟨_, rfl⟩
  exact ⟨document, accepted, by decide, by decide, ofEvents_groups_tasks accepted⟩

end SectionedDocument
end Courseware
