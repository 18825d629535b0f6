import Courseware.Proofs.Document.Shape
import Courseware.Proofs.Document.Standing

/-!
# What information is titled

Prose in a section with tasks that introduces none of them becomes information. It ends where a
heading, a note or the end of the section comes next; `Event.remarks` finds all such prose, and it
is what the section has as information, in order.

Information has the title of the last heading before it, as long as that heading still waits. A
heading is used up by the first task set or the first information after it; what comes later under
the same heading has the title of the category. `SectionedDocument.ofEvents_titles_remarks_iff` says
when all information has the title of its heading, and `SectionedDocument.ofEvents_forgets_heading`
that this is not so in general.
-/

namespace Courseware

/-- Prose that introduces no task, with what stands before it in its section. -/
structure Remark where
  earlier : List Event
  texts : List Text
deriving DecidableEq, Repr

namespace Remark

/-- The title of the last heading before a remark, or that of the category. -/
def heading (category : Text) (remark : Remark) : Text :=
  (Event.lastHeading? remark.earlier).getD category

/-- The title that a remark gets. -/
def title (category : Text) (remark : Remark) : Text :=
  if Event.isFresh remark.earlier then remark.heading category else category

/-- A remark as information: its title and its text. -/
def written (category : Text) (remark : Remark) : Text × Text :=
  (remark.title category, Text.join ['\n', '\n'] remark.texts)

/-- A remark has the title of its heading when only notes have come since, or when the category has
the same title. -/
theorem title_eq_heading_iff (category : Text) (remark : Remark) :
    remark.title category = remark.heading category ↔
      Event.isFresh remark.earlier = true ∨ remark.heading category = category := by
  unfold title
  split
  · next hfresh => exact ⟨fun _ => .inl hfresh, fun _ => rfl⟩
  · next hused =>
    constructor
    · exact fun hsame => .inr hsame.symm
    · rintro (hfresh | hsame)
      · exact absurd hfresh hused
      · exact hsame.symm

end Remark

namespace Event

/-- Whether prose does not end at a place, or introduces the task that comes next. -/
def goesOn (after : List Event) : Bool :=
  after.head?.any fun event => event.prose?.isSome || event.task?.isSome

/-- The remark that ends at a place. -/
def remarkAt? (place : List Event × List Event) : Option Remark :=
  if proseBefore place.1 = [] ∨ goesOn place.2 then none
  else some ⟨beforeProse place.1, proseBefore place.1⟩

/-- The remarks among events, in order. -/
def remarks (events : List Event) : List Remark := (places events).filterMap remarkAt?

/-- Among directives there are no remarks. -/
theorem remarks_directives (events : List Event) : remarks (events.filter isDirective) = [] := by
  refine List.filterMap_eq_nil_iff.mpr fun place hplace => ?_
  have hnone := proseBefore_of_directives (isDirective_of_mem_places hplace)
  exact if_pos (.inl hnone)

end Event

/-- The title and the text of an item that is information. -/
def Item.info? : Item → Option (Text × Text)
  | info title text => some (title, text)
  | taskSet _ | note _ => none

/-- The information among the items of a category, in order. -/
def Category.infos (category : Category) : List (Text × Text) :=
  category.items.filterMap Item.info?

namespace Section

/-- The information among the items of a section so far, in order. -/
def infos (draft : Section) : List (Text × Text) := draft.items.reverse.filterMap Item.info?

variable {draft : Section} {before : List Event}

theorem infos_settled (draft : Section) :
    draft.settled.infos = draft.infos ++
      if draft.waiting = [] then []
      else [(draft.subtitle.getD draft.title, paragraphs draft.waiting)] := by
  obtain ⟨kind, title, items, text, waiting, subtitle, openSet, hasTasks⟩ := draft
  cases waiting <;> cases openSet <;>
    simp [settled, flushProse, closeSet, infos, List.filterMap_cons, Item.info?]

/-- Where prose ends that introduces no task, settling a section writes its remark down. -/
theorem infos_settled_of_stands (stands : draft.Stands before) {after : List Event}
    (h : Event.goesOn after = false) :
    draft.settled.infos =
      draft.infos ++
        ((Event.remarkAt? (before, after)).map (Remark.written draft.title)).toList := by
  rw [infos_settled, Event.remarkAt?, h, paragraphs, stands.waiting, stands.subtitle]
  simp only [stands.waiting_eq_nil_iff, Bool.false_eq_true, or_false]
  split
  · rfl
  · rw [Option.map_some, Option.toList_some, Remark.written, Remark.title, Remark.heading,
      Event.freshHeading?, apply_ite (Option.getD · draft.title)]
    rfl

/-- Prose and tasks make nothing of what waits information. -/
theorem infos_read_of_goesOn {event : Event} {rest : List Event}
    (h : Event.goesOn (event :: rest) = true) : (draft.read event).infos = draft.infos := by
  cases event with
  | heading depth title => exact nomatch h
  | thematicBreak => rfl
  | prose text => rfl
  | directive offset content =>
    cases content with
    | note content => exact nomatch h
    | presenterNote content => exact nomatch h
    | task task =>
      rw [read]
      rcases draft.addTask_cases task with ⟨set, _, _, hadd⟩ | ⟨_, hadd⟩
      · rw [hadd]
        rfl
      · rw [hadd]
        cases hopen : draft.openSet <;> simp [infos, shelf, hopen, List.filterMap_cons, Item.info?]

/-- A heading and a note settle a section. -/
theorem infos_read_of_not_goesOn {event : Event} {rest : List Event}
    (clear : Event.Clear (event :: rest)) (h : Event.goesOn (event :: rest) = false) :
    (draft.read event).infos = draft.settled.infos := by
  cases event with
  | heading depth title => rfl
  | thematicBreak => exact nomatch h
  | prose text => exact nomatch h
  | directive offset content =>
    cases content with
    | task task => exact nomatch h
    | presenterNote content => exact absurd rfl (clear.head offset content)
    | note content =>
      show (Item.note content :: draft.settled.items).reverse.filterMap Item.info? = _
      rw [List.reverse_cons, List.filterMap_append]
      exact List.append_nil _

/-- The information of a section that stands at some place and reads on to its end: what it has
already, and the remarks that end from this place on. -/
theorem infos_foldl_read {events : List Event} (stands : draft.Stands before)
    (clear : Event.Clear events) :
    (events.foldl read draft).settled.infos =
      draft.infos ++
        ((Event.placesFrom before events).filterMap Event.remarkAt?).map
          (Remark.written draft.title) := by
  induction events generalizing draft before with
  | nil =>
    have hends : Event.goesOn [] = false := rfl
    rw [List.foldl_nil, infos_settled_of_stands stands hends, Event.placesFrom]
    cases hremark : Event.remarkAt? (before, []) <;> simp [hremark]
  | cons event rest ih =>
    rw [List.foldl_cons, ih (stands.read clear.head) clear.tail, read_title, Event.placesFrom]
    cases hgoes : Event.goesOn (event :: rest) with
    | true =>
      have hnone : Event.remarkAt? (before, event :: rest) = none := if_pos (.inr hgoes)
      rw [infos_read_of_goesOn hgoes, List.filterMap_cons_none hnone]
    | false =>
      rw [infos_read_of_not_goesOn clear hgoes, infos_settled_of_stands stands hgoes]
      cases hremark : Event.remarkAt? (before, event :: rest) <;> simp [hremark]

/-- The information of a category with tasks is made of the remarks in its section. -/
theorem infos_category_foldl_read {events : List Event} (title : Text) (clear : Event.Clear events)
    (h : (events.foldl read (begin title)).hasTasks = true) :
    (events.foldl read (begin title)).category.infos =
      (Event.remarks events).map (Remark.written title) := by
  rw [category, if_pos h]
  exact infos_foldl_read (.begin title) clear

/-- There is no information before any section. -/
theorem infos_of_categoryBefore? {preamble : List Event} (clear : Event.Clear preamble)
    {category : Category} (h : category ∈ categoryBefore? preamble) : category.infos = [] := by
  rw [categoryBefore?, implicit_eq_begin, category?] at h
  split at h
  · next htasks =>
    obtain rfl := Option.some.inj h
    rw [infos_category_foldl_read [] clear.directives htasks, Event.remarks_directives,
      List.map_nil]
  · exact absurd h (Option.not_mem_none category)

end Section

namespace SectionedDocument

/-- What information is titled. There is none before any section. In a category with tasks it is the
remarks of the section, in order, each with its text, and with the title of the last heading before
it if only notes have come since, and else with that of the category. So all information has the
title of the last heading before it, or that of the category where there is none, exactly when for
each remark only notes have come since that heading or the heading has the title of the category. -/
theorem ofEvents_titles_remarks_iff {events : List Event} {document : SectionedDocument}
    (accepted : ofEvents events = .ok document) :
    document.Divides events
      (fun _ first => ∀ category ∈ first, category.infos = [])
      (fun passage category => ∀ kind title items, category = .tasks kind title items →
        category.infos = (Event.remarks passage.2).map (Remark.written passage.1) ∧
        (category.infos.map Prod.fst = (Event.remarks passage.2).map (Remark.heading passage.1) ↔
          ∀ remark ∈ Event.remarks passage.2,
            Event.isFresh remark.earlier = true ∨ remark.heading passage.1 = passage.1)) := by
  refine divides_of_ofEvents accepted (fun clear category h => ?_)
    fun passage _ clear kind title items hitems => ?_
  · exact Section.infos_of_categoryBefore? clear h
  · have htasks : (passage.2.foldl Section.read (.begin passage.1)).hasTasks = true := by
      by_contra hnone
      rw [Section.categoryOf, Section.category, if_neg hnone] at hitems
      exact Category.noConfusion hitems
    have hinfos := Section.infos_category_foldl_read passage.1 clear htasks
    refine ⟨hinfos, ?_⟩
    rw [Section.categoryOf, hinfos, List.map_map, List.map_inj_left]
    exact forall₂_congr fun remark _ => remark.title_eq_heading_iff passage.1

/-- Prose after a note under a heading, and a task under another one. -/
def titledEvents : List Event :=
  [.heading 2 ['A'], .heading 3 ['B'], .directive 12 (.note ['n']), .prose ['p'], .heading 3 ['C'],
    .directive 30 (.task (.text ['d'] none none)), .heading 3 ['D'], .prose ['q']]

/-- Each piece of prose is the first one under its heading, so both have the titles of their
headings. -/
theorem ofEvents_titles_remarks_iff_fresh :
    ∃ document category, ofEvents titledEvents = .ok document ∧ document.categories = [category] ∧
      category.infos = [(['B'], ['p']), (['D'], ['q'])] ∧
      category.infos.map Prod.fst =
        (Event.remarks (titledEvents.drop 1)).map (Remark.heading ['A']) := by
  have accepted : ofEvents titledEvents = .ok ⟨none, none, [.tasks .core ['A']
      [.note ['n'], .info ['B'] ['p'], .taskSet ⟨some ['C'], none, [.text ['d'] none none]⟩,
        .info ['D'] ['q']]]⟩ := rfl
  have titles := (ofEvents_titles_remarks_iff accepted).forall₂ rfl
  cases titles with
  | cons hcategory _ =>
    obtain ⟨hinfos, hiff⟩ := hcategory _ _ _ rfl
    have hfresh : ∀ remark ∈ Event.remarks (titledEvents.drop 1),
        Event.isFresh remark.earlier = true := by
      decide
    exact ⟨_, _, accepted, rfl, hinfos, hiff.mpr fun remark hremark => .inl (hfresh remark hremark)⟩

/-- Information does not have the title of its heading in general: after a note under the heading it
has that of the category. -/
theorem ofEvents_forgets_heading :
    ¬∀ (events : List Event) (document : SectionedDocument), ofEvents events = .ok document →
      document.Divides events
        (fun _ first => ∀ category ∈ first, category.infos = [])
        (fun passage category => ∀ kind title items, category = .tasks kind title items →
          category.infos.map Prod.fst =
            (Event.remarks passage.2).map (Remark.heading passage.1)) := by
  intro named
  have accepted : ofEvents [.heading 2 ['A'], .heading 3 ['B'], .prose ['p'],
      .directive 16 (.note ['n']), .prose ['q'], .heading 3 ['C'],
      .directive 36 (.task (.text ['d'] none none))] = .ok ⟨none, none, [.tasks .core ['A']
        [.info ['B'] ['p'], .note ['n'], .info ['A'] ['q'],
          .taskSet ⟨some ['C'], none, [.text ['d'] none none]⟩]]⟩ := rfl
  have titles := (named _ _ accepted).forall₂ rfl
  cases titles with
  | cons hcategory _ => exact absurd (hcategory _ _ _ rfl) (by decide)

end SectionedDocument
end Courseware
