import Courseware.Proofs.Document.Conservation
import Mathlib.Data.List.DropRight

/-!
# Where a section stands

While a section is read, prose waits, a sub-heading waits, and a task set may be open. All three
depend on how the events before end: on the prose at their end, on what has come after their last
sub-heading, and on whether they end in a task. `Section.Stands` says so, each event keeps it, and
hence it holds wherever reading has got to.

What waits is used up: a sub-heading is taken by the first task set or the first information after
it, and only notes leave it waiting. This is `Event.isFresh`.
-/

namespace Courseware

namespace Event

/-- The text of prose. A break is a line of its own. -/
def prose? : Event → Option Text
  | thematicBreak => some ['-', '-', '-']
  | prose text => some text
  | _ => none

/-- The content of a note. -/
def note? : Event → Option Text
  | directive _ (.note content) => some content
  | _ => none

/-- The title of a heading. -/
def heading? : Event → Option Text
  | heading _ title => some title
  | _ => none

/-- The prose right before a place, given all events before it. -/
def proseBefore (before : List Event) : List Text :=
  (before.rtakeWhile fun event => event.prose?.isSome).filterMap prose?

/-- The events before a place up to the prose right before it. -/
def beforeProse (before : List Event) : List Event :=
  before.rdropWhile fun event => event.prose?.isSome

/-- Whether there is a task right before a place. -/
def endsInTask (before : List Event) : Bool := before.getLast?.any fun event => event.task?.isSome

/-- The last heading before a place. -/
def lastHeading? (before : List Event) : Option Text := (before.filterMap heading?).getLast?

/-- Whether only notes have come since the last heading. -/
def isFresh (before : List Event) : Bool :=
  (before.rtakeWhile fun event => event.heading?.isNone).all fun event => event.note?.isSome

/-- The heading that is the title of what begins at a place with the prose right before it: the last
one, unless something else has come since. -/
def freshHeading? (before : List Event) : Option Text :=
  if isFresh (beforeProse before) then lastHeading? (beforeProse before) else none

/-- The places among events from some place on: what stands before each, and what comes after it. -/
def placesFrom (before : List Event) : List Event → List (List Event × List Event)
  | [] => [(before, [])]
  | event :: rest => (before, event :: rest) :: placesFrom (before ++ [event]) rest

/-- All places among events. -/
def places (events : List Event) : List (List Event × List Event) := placesFrom [] events

/-- At each place the events before it and those after it are all events. -/
theorem append_of_mem_placesFrom {before rest : List Event} {place : List Event × List Event}
    (h : place ∈ placesFrom before rest) : place.1 ++ place.2 = before ++ rest := by
  induction rest generalizing before with
  | nil =>
    obtain rfl := List.mem_singleton.mp h
    rfl
  | cons event rest ih =>
    rcases List.mem_cons.mp h with rfl | hlater
    · rfl
    · rw [ih hlater, List.append_assoc]
      rfl

/-- Among directives only directives stand before a place. -/
theorem isDirective_of_mem_places {events : List Event} {place : List Event × List Event}
    (h : place ∈ places (events.filter isDirective)) :
    ∀ event ∈ place.1, event.isDirective = true := by
  intro event hevent
  have hall := List.mem_append_left place.2 hevent
  rw [append_of_mem_placesFrom h] at hall
  exact (List.mem_filter.mp hall).2

/-! ### One event further -/

section
variable {before : List Event} {event : Event} {text title : Text}

theorem proseBefore_concat_of_some (h : event.prose? = some text) :
    proseBefore (before ++ [event]) = proseBefore before ++ [text] := by
  rw [proseBefore, List.rtakeWhile_concat_pos _ _ _ (by simp [h]), List.filterMap_append]
  simp [proseBefore, h]

theorem proseBefore_concat_of_none (h : event.prose? = none) :
    proseBefore (before ++ [event]) = [] := by
  rw [proseBefore, List.rtakeWhile_concat_neg _ _ _ (by simp [h])]
  rfl

theorem beforeProse_concat_of_some (h : event.prose? = some text) :
    beforeProse (before ++ [event]) = beforeProse before :=
  List.rdropWhile_concat_pos _ _ _ (by simp [h])

theorem beforeProse_concat_of_none (h : event.prose? = none) :
    beforeProse (before ++ [event]) = before ++ [event] :=
  List.rdropWhile_concat_neg _ _ _ (by simp [h])

theorem endsInTask_concat (before : List Event) (event : Event) :
    endsInTask (before ++ [event]) = event.task?.isSome := by
  rw [endsInTask, List.getLast?_concat, Option.any_some]

/-- A heading is the last one right after it. -/
theorem lastHeading?_concat_of_heading (h : event.heading? = some title) :
    lastHeading? (before ++ [event]) = some title := by
  simp [lastHeading?, List.filterMap_append, h]

theorem lastHeading?_concat_of_none (h : event.heading? = none) :
    lastHeading? (before ++ [event]) = lastHeading? before := by
  simp [lastHeading?, List.filterMap_append, h]

theorem isFresh_concat_of_heading (h : event.heading? = some title) :
    isFresh (before ++ [event]) = true := by
  rw [isFresh, List.rtakeWhile_concat_neg _ _ _ (by simp [h])]
  rfl

/-- Of all events but headings, only notes leave a heading waiting. -/
theorem isFresh_concat_of_none (h : event.heading? = none) :
    isFresh (before ++ [event]) = (isFresh before && event.note?.isSome) := by
  rw [isFresh, List.rtakeWhile_concat_pos _ _ _ (by simp [h]), List.all_append]
  simp [isFresh]

/-- Without prose at their end the events stand before prose as a whole. -/
theorem beforeProse_of_nil (h : proseBefore before = []) : beforeProse before = before := by
  rcases List.eq_nil_or_concat' before with rfl | ⟨earlier, last, rfl⟩
  · rfl
  · cases hlast : last.prose? with
    | none => exact beforeProse_concat_of_none hlast
    | some text =>
      rw [proseBefore_concat_of_some hlast] at h
      exact absurd h (List.append_ne_nil_of_right_ne_nil _ (List.cons_ne_nil _ _))

/-- Prose right before a place has come since the last heading. -/
theorem isFresh_of_ne_nil (h : proseBefore before ≠ []) : isFresh before = false := by
  rcases List.eq_nil_or_concat' before with rfl | ⟨earlier, last, rfl⟩
  · exact absurd rfl h
  · cases last with
    | thematicBreak => rw [isFresh_concat_of_none rfl]; exact Bool.and_false _
    | prose text => rw [isFresh_concat_of_none rfl]; exact Bool.and_false _
    | heading depth title => exact absurd (proseBefore_concat_of_none rfl) h
    | directive offset directive => exact absurd (proseBefore_concat_of_none rfl) h

/-- A heading waits for what comes after it. -/
theorem freshHeading?_concat_heading (before : List Event) (depth : Nat) (title : Text) :
    freshHeading? (before ++ [heading depth title]) = some title := by
  rw [freshHeading?, beforeProse_concat_of_none rfl, isFresh_concat_of_heading rfl, if_pos rfl,
    lastHeading?_concat_of_heading rfl]

/-- Prose may still belong to what comes after it, so it leaves a heading waiting. -/
theorem freshHeading?_concat_prose (h : event.prose? = some text) :
    freshHeading? (before ++ [event]) = freshHeading? before := by
  rw [freshHeading?, beforeProse_concat_of_some h, freshHeading?]

/-- A task takes the heading. -/
theorem freshHeading?_concat_task (before : List Event) (offset : Nat) (task : Task) :
    freshHeading? (before ++ [directive offset (.task task)]) = none := by
  rw [freshHeading?, beforeProse_concat_of_none rfl, isFresh_concat_of_none rfl]
  simp [note?]

/-- Prose before a note takes the heading, and otherwise a note leaves it waiting. -/
theorem freshHeading?_concat_note (before : List Event) (offset : Nat) (content : Text) :
    freshHeading? (before ++ [directive offset (.note content)]) =
      if proseBefore before = [] then freshHeading? before else none := by
  have hfresh : isFresh (before ++ [directive offset (.note content)]) = isFresh before := by
    rw [isFresh_concat_of_none rfl]
    exact Bool.and_true _
  rw [freshHeading?, beforeProse_concat_of_none rfl, hfresh, lastHeading?_concat_of_none rfl]
  by_cases hnone : proseBefore before = []
  · rw [if_pos hnone, freshHeading?, beforeProse_of_nil hnone]
  · rw [if_neg hnone, isFresh_of_ne_nil hnone]
    exact if_neg Bool.false_ne_true

/-- Among directives there is no prose. -/
theorem proseBefore_of_directives (h : ∀ event ∈ before, event.isDirective = true) :
    proseBefore before = [] := by
  refine List.filterMap_eq_nil_iff.mpr fun event hevent => ?_
  have hdirective := h event ((List.rtakeWhile_suffix _ _).mem hevent)
  cases event with
  | directive offset content => rfl
  | heading depth title => rfl
  | thematicBreak => exact nomatch hdirective
  | prose text => exact nomatch hdirective

/-- Among directives there is no heading. -/
theorem freshHeading?_of_directives (h : ∀ event ∈ before, event.isDirective = true) :
    freshHeading? before = none := by
  have hnone : (beforeProse before).filterMap heading? = [] := by
    refine List.filterMap_eq_nil_iff.mpr fun event hevent => ?_
    have hdirective := h event ((List.rdropWhile_prefix _ _).mem hevent)
    cases event with
    | directive offset content => rfl
    | heading depth title => exact nomatch hdirective
    | thematicBreak => rfl
    | prose text => rfl
  rw [freshHeading?, lastHeading?, hnone]
  exact ite_self none

end

end Event

namespace Section

/-- A section stands where reading has got to after some events: what waits in it, and whether a
task would go on with the open set, depends on how these events end. -/
structure Stands (draft : Section) (before : List Event) : Prop where
  waiting : draft.waiting.reverse = Event.proseBefore before
  subtitle : draft.subtitle = Event.freshHeading? before
  running : (draft.openSet.isSome && draft.waiting.isEmpty) = Event.endsInTask before
  taken : draft.openSet.isSome → draft.subtitle = none

/-- When waiting prose is made information, the heading is taken. -/
theorem settled_subtitle (draft : Section) :
    draft.settled.subtitle = if draft.waiting = [] then draft.subtitle else none := by
  obtain ⟨kind, title, items, text, waiting, subtitle, openSet, hasTasks⟩ := draft
  cases waiting <;> cases openSet <;> rfl

/-- What reading a task does. After a task the open set goes on, and otherwise a new set is opened,
with the prose and the heading that wait, and the set before it is put among the items. -/
theorem addTask_cases (draft : Section) (task : Task) :
    (∃ set, draft.openSet = some set ∧ draft.waiting = [] ∧ draft.addTask task =
      { draft with
        hasTasks := true
        openSet := some { set with tasks := set.tasks ++ [task] } }) ∨
    ((draft.openSet.isSome && draft.waiting.isEmpty) = false ∧ draft.addTask task =
      { draft with
        hasTasks := true
        items := draft.shelf
        openSet := some ⟨draft.subtitle, introduction? draft.waiting.reverse, [task]⟩
        waiting := []
        subtitle := none }) := by
  obtain ⟨kind, title, items, text, waiting, subtitle, openSet, hasTasks⟩ := draft
  cases waiting with
  | nil =>
    cases openSet with
    | none => exact .inr ⟨rfl, rfl⟩
    | some set => exact .inl ⟨set, rfl, rfl, rfl⟩
  | cons latest earlier =>
    have hintro : introduction? (latest :: earlier).reverse =
        some (paragraphs (latest :: earlier)) :=
      if_neg (by simp)
    rw [hintro]
    cases openSet with
    | none => exact .inr ⟨rfl, rfl⟩
    | some set => exact .inr ⟨rfl, rfl⟩

namespace Stands

variable {draft : Section} {before : List Event}

theorem begin (title : Text) : (Section.begin title).Stands [] :=
  ⟨rfl, rfl, rfl, fun h => nomatch h⟩

theorem waiting_eq_nil_iff (stands : draft.Stands before) :
    draft.waiting = [] ↔ Event.proseBefore before = [] := by
  rw [← stands.waiting, List.reverse_eq_nil_iff]

/-- After a heading it does not matter where a section stood. -/
theorem addHeading (draft : Section) (before : List Event) (depth : Nat) (title : Text) :
    (draft.addHeading depth title).Stands (before ++ [.heading depth title]) := by
  have hwaiting : (draft.addHeading depth title).waiting = [] := settled_waiting draft
  have hopen : (draft.addHeading depth title).openSet = none := settled_openSet draft
  constructor
  case waiting => rw [hwaiting, Event.proseBefore_concat_of_none rfl, List.reverse_nil]
  case subtitle => exact (Event.freshHeading?_concat_heading before depth title).symm
  case running => rw [hopen, Event.endsInTask_concat]; rfl
  case taken => rw [hopen]; exact fun h => nomatch h

theorem addProse (stands : draft.Stands before) {event : Event} {text : Text}
    (h : event.prose? = some text) : (draft.addProse text).Stands (before ++ [event]) := by
  have htask : event.task? = none := by
    cases event with
    | directive offset directive => exact nomatch h
    | heading depth title => rfl
    | thematicBreak => rfl
    | prose text => rfl
  constructor
  case waiting =>
    rw [Event.proseBefore_concat_of_some h, ← stands.waiting]
    exact List.reverse_cons
  case subtitle => rw [Event.freshHeading?_concat_prose h]; exact stands.subtitle
  case running => rw [Event.endsInTask_concat, htask]; exact Bool.and_false _
  case taken => exact stands.taken

theorem addNote (stands : draft.Stands before) (offset : Nat) (content : Text) :
    (draft.addNote content).Stands (before ++ [.directive offset (.note content)]) := by
  have hwaiting : (draft.addNote content).waiting = [] := settled_waiting draft
  have hopen : (draft.addNote content).openSet = none := settled_openSet draft
  constructor
  case waiting => rw [hwaiting, Event.proseBefore_concat_of_none rfl, List.reverse_nil]
  case subtitle =>
    have hsubtitle : (draft.addNote content).subtitle = draft.settled.subtitle := rfl
    rw [hsubtitle, settled_subtitle, Event.freshHeading?_concat_note, stands.subtitle]
    simp only [stands.waiting_eq_nil_iff]
  case running => rw [hopen, Event.endsInTask_concat]; rfl
  case taken => rw [hopen]; exact fun h => nomatch h

theorem addTask (stands : draft.Stands before) (offset : Nat) (task : Task) :
    (draft.addTask task).Stands (before ++ [.directive offset (.task task)]) := by
  have hprose : Event.proseBefore (before ++ [.directive offset (.task task)]) = [] :=
    Event.proseBefore_concat_of_none rfl
  have hheading := Event.freshHeading?_concat_task before offset task
  have hends : Event.endsInTask (before ++ [.directive offset (.task task)]) = true :=
    Event.endsInTask_concat _ _
  rcases draft.addTask_cases task with ⟨set, hopen, hwaiting, hadd⟩ | ⟨_, hadd⟩
  · -- The open set has taken the heading before, so there is none to be taken.
    have htaken : draft.subtitle = none := stands.taken (by rw [hopen]; rfl)
    rw [hadd]
    exact ⟨by rw [hprose, hwaiting, List.reverse_nil], by rw [hheading, htaken],
      by rw [hends, hwaiting]; rfl, fun _ => htaken⟩
  · rw [hadd]
    exact ⟨hprose.symm, hheading.symm, hends.symm, fun _ => rfl⟩

/-- One event further. -/
theorem read (stands : draft.Stands before) {event : Event}
    (clear : ∀ offset content, event ≠ .directive offset (.presenterNote content)) :
    (draft.read event).Stands (before ++ [event]) := by
  cases event with
  | heading depth title => exact addHeading draft before depth title
  | thematicBreak => exact stands.addProse rfl
  | prose text => exact stands.addProse rfl
  | directive offset directive =>
    cases directive with
    | task task => exact stands.addTask offset task
    | note content => exact stands.addNote offset content
    | presenterNote content => exact absurd rfl (clear offset content)

end Stands
end Section
end Courseware
