import Mathlib.Data.List.Forall2
import Mathlib.Data.List.Induction
import Mathlib.Data.List.Nodup
import Mathlib.Data.List.Perm.Basic
import Mathlib.Data.String.Basic
import Courseware.Course.Catalogue
import Courseware.Proofs.Course.Validity

/-!
# The catalogue mirrors the plans

Chapters are grouped by their topics, and listed courses by their groups. Both are done by adding one item
after the other to the group that has its key, and by opening a group where there is none; they differ only in
where a new group stands. `Adds` says what such a step does wherever the group stands, and `Holds` what the
groups hold of the items that have been added: each key once, and under it what has that key, in order.
That a step keeps `Holds` is proved once, for both.

What is left for each of the two is the order of the groups. Topics stand in the order in which they first
occur in the plan. The groups of the navigation are sorted by name, which is also why the search for a group
may stop at the first greater name.
-/

namespace Courseware

section Groups

variable {α β : Type} {key : α → String} {value : α → β} {items : List α} {item : α}
  {name : String} {new : β} {group : String × List β} {groups larger : List (String × List β)}

/-- A value is added to the group with its name, or as a new group where none has that name. -/
inductive Adds (name : String) (new : β) :
    List (String × List β) → List (String × List β) → Prop
  | joins (front back : List (String × List β)) (values : List β) :
    Adds name new (front ++ (name, values) :: back) (front ++ (name, values ++ [new]) :: back)
  | opens (front back : List (String × List β)) (fresh : name ∉ (front ++ back).map Prod.fst) :
    Adds name new (front ++ back) (front ++ (name, [new]) :: back)

theorem Adds.cons (adds : Adds name new groups larger) (h : group.1 ≠ name) :
    Adds name new (group :: groups) (group :: larger) := by
  cases adds with
  | joins front back values => exact joins (group :: front) back values
  | opens front back fresh =>
    refine opens (group :: front) back ?_
    rw [List.cons_append, List.map_cons, List.mem_cons, not_or]
    exact ⟨h.symm, fresh⟩

theorem Adds.mem_names (adds : Adds name new groups larger) {other : String} :
    other ∈ larger.map Prod.fst ↔ other ∈ groups.map Prod.fst ∨ other = name := by
  cases adds with
  | joins front back values =>
    simp only [List.map_append, List.map_cons, List.mem_append, List.mem_cons]
    tauto
  | opens front back fresh =>
    simp only [List.map_append, List.map_cons, List.mem_append, List.mem_cons]
    tauto

/-- A group afterwards is one from before with another name, or the one that the value has been added to. -/
theorem Adds.mem_cases (adds : Adds name new groups larger) (distinct : (groups.map Prod.fst).Nodup)
    (hmem : group ∈ larger) :
    (group ∈ groups ∧ group.1 ≠ name) ∨
      ∃ values, group = (name, values ++ [new]) ∧
        ((name, values) ∈ groups ∨ (values = [] ∧ name ∉ groups.map Prod.fst)) := by
  cases adds with
  | joins front back values =>
    rw [List.map_append, List.map_cons, List.nodup_middle, List.nodup_cons,
      ← List.map_append] at distinct
    rcases List.mem_cons.mp (List.perm_middle.mem_iff.mp hmem) with rfl | hother
    · exact .inr ⟨values, rfl, .inl (List.mem_append_right front List.mem_cons_self)⟩
    · refine .inl ⟨List.perm_middle.mem_iff.mpr (List.mem_cons_of_mem _ hother), ?_⟩
      intro heq
      have hname : group.1 ∈ (front ++ back).map Prod.fst := List.mem_map_of_mem hother
      exact distinct.1 (heq ▸ hname)
  | opens front back fresh =>
    rcases List.mem_cons.mp (List.perm_middle.mem_iff.mp hmem) with rfl | hother
    · exact .inr ⟨[], rfl, .inr ⟨rfl, fresh⟩⟩
    · refine .inl ⟨hother, ?_⟩
      intro heq
      rw [← heq] at fresh
      exact fresh (List.mem_map_of_mem hother)

theorem Adds.nodup (adds : Adds name new groups larger) (distinct : (groups.map Prod.fst).Nodup) :
    (larger.map Prod.fst).Nodup := by
  cases adds with
  | joins front back values => simpa using distinct
  | opens front back fresh =>
    rw [List.map_append, List.map_cons, List.nodup_middle, List.nodup_cons, ← List.map_append]
    exact ⟨fresh, distinct⟩

theorem Adds.flatMap_perm (adds : Adds name new groups larger) :
    (larger.flatMap Prod.snd).Perm (groups.flatMap Prod.snd ++ [new]) := by
  cases adds with
  | joins front back values =>
    simp only [List.flatMap_append, List.flatMap_cons, List.append_assoc]
    exact (List.perm_append_comm.append_left values).append_left _
  | opens front back fresh =>
    simp only [List.flatMap_append, List.flatMap_cons, List.append_assoc]
    exact List.perm_append_comm.append_left _

/-- Groups hold the values of items: each key once, and under it the values of the items with that key. -/
structure Holds (key : α → String) (value : α → β) (items : List α)
    (groups : List (String × List β)) : Prop where
  distinct : (groups.map Prod.fst).Nodup
  names : ∀ name, name ∈ groups.map Prod.fst ↔ ∃ item ∈ items, key item = name
  values : ∀ group ∈ groups, group.2 = (items.filter fun item => key item = group.1).map value
  once : (groups.flatMap Prod.snd).Perm (items.map value)

theorem Holds.nil : Holds key value [] [] where
  distinct := List.nodup_nil
  names := by simp
  values := by simp
  once := .refl []

/-- With one item more, the groups hold one item more. -/
theorem Holds.concat (holds : Holds key value items groups)
    (adds : Adds (key item) (value item) groups larger) :
    Holds key value (items ++ [item]) larger where
  distinct := adds.nodup holds.distinct
  names := fun name => by
    rw [adds.mem_names, holds.names]
    simp [or_and_right, exists_or, eq_comm]
  values := fun group hgroup => by
    rw [List.filter_append, List.map_append]
    rcases adds.mem_cases holds.distinct hgroup with ⟨hold, hne⟩ | ⟨values, rfl, hvalues⟩
    · rw [List.filter_singleton, decide_eq_false hne.symm, cond_false, List.map_nil, List.append_nil]
      exact holds.values group hold
    · rw [List.filter_singleton, decide_eq_true rfl, cond_true, List.map_singleton]
      refine congrArg (· ++ [value item]) ?_
      rcases hvalues with hold | ⟨rfl, fresh⟩
      · exact holds.values _ hold
      · have hnone : items.filter (fun other => key other = key item) = [] :=
          List.filter_eq_nil_iff.mpr fun other hother heq =>
            fresh ((holds.names _).mpr ⟨other, hother, of_decide_eq_true heq⟩)
        rw [hnone, List.map_nil]
  once := by
    rw [List.map_append, List.map_singleton]
    exact adds.flatMap_perm.trans (holds.once.append_right [value item])

end Groups

namespace Plan

variable {ref : ChapterRef} {groups : List (String × List ChapterRef)}

theorem adds_addToGroup : Adds ref.topic ref groups (addToGroup ref groups) := by
  induction groups with
  | nil => exact .opens [] [] List.not_mem_nil
  | cons group rest ih =>
    obtain ⟨topic, chapters⟩ := group
    rw [addToGroup]
    split
    · next htopic =>
      subst htopic
      exact .joins [] rest chapters
    · next htopic => exact ih.cons htopic

/-- A topic that is new stands at the end, and the others stay where they are. -/
theorem topics_addToGroup :
    (addToGroup ref groups).map Prod.fst =
      if ref.topic ∈ groups.map Prod.fst then groups.map Prod.fst
      else groups.map Prod.fst ++ [ref.topic] := by
  induction groups with
  | nil => rfl
  | cons group rest ih =>
    obtain ⟨topic, chapters⟩ := group
    rw [addToGroup]
    by_cases htopic : topic = ref.topic
    · simp [htopic]
    · rw [if_neg htopic, List.map_cons, ih]
      by_cases hmem : ref.topic ∈ rest.map Prod.fst
      · simp only [hmem, if_true, List.map_cons, List.mem_cons, or_true]
      · simp only [hmem, Ne.symm htopic, if_false, List.map_cons, List.mem_cons, or_self, List.cons_append]

theorem eraseDups_concat (names : List String) (name : String) :
    (names ++ [name]).eraseDups =
      if name ∈ names.eraseDups then names.eraseDups else names.eraseDups ++ [name] := by
  rw [List.eraseDups_append]
  by_cases hmem : name ∈ names
  · rw [if_pos (List.mem_eraseDups.mpr hmem)]
    simp [List.removeAll, hmem]
  · rw [if_neg (fun h => hmem (List.mem_eraseDups.mp h))]
    simp [List.removeAll, List.eraseDups_cons, hmem]

/-- The topics of a plan hold its chapters, and stand in the order in which they first occur. -/
theorem holds_topics (plan : Plan) :
    Holds ChapterRef.topic (fun ref => ref) plan.chapters plan.topics ∧
      plan.topics.map Prod.fst = (plan.chapters.map ChapterRef.topic).eraseDups := by
  rw [topics]
  induction plan.chapters using List.reverseRecOn with
  | nil => exact ⟨.nil, rfl⟩
  | append_singleton refs ref ih =>
    obtain ⟨holds, order⟩ := ih
    rw [List.foldl_append, List.map_append]
    refine ⟨holds.concat adds_addToGroup, ?_⟩
    rw [List.foldl_cons, List.foldl_nil, topics_addToGroup, order, List.map_singleton, eraseDups_concat]

example : (lessons "a" [⟨"t", "t"⟩, ⟨"s", "s"⟩, ⟨"t", "c"⟩] []).topics =
    [("t", [⟨"t", "t"⟩, ⟨"t", "c"⟩]), ("s", [⟨"s", "s"⟩])] := by
  decide

end Plan

namespace NavEntry

variable {group : String} {entry : NavEntry} {groups : List (String × List NavEntry)}

/-- The names of groups are sorted. -/
def Sorted (groups : List (String × List NavEntry)) : Prop :=
  (groups.map Prod.fst).Pairwise (· < ·)

theorem adds_addToGroup (sorted : Sorted groups) :
    Adds group entry groups (addToGroup group entry groups) := by
  induction groups with
  | nil => exact .opens [] [] List.not_mem_nil
  | cons head rest ih =>
    obtain ⟨first, entries⟩ := head
    obtain ⟨hfirst, hrest⟩ := List.pairwise_cons.mp sorted
    rw [addToGroup]
    split
    · next hlt =>
      refine .opens [] ((first, entries) :: rest) fun hmem => ?_
      rcases List.mem_cons.mp hmem with heq | hmem
      · exact hlt.ne heq
      · exact (hlt.trans (hfirst group hmem)).false
    · split
      · next heq =>
        subst heq
        exact .joins [] rest entries
      · next hne => exact (ih hrest).cons (Ne.symm hne)

theorem Sorted.addToGroup (sorted : Sorted groups) : Sorted (addToGroup group entry groups) := by
  induction groups with
  | nil => exact List.pairwise_singleton _ _
  | cons head rest ih =>
    obtain ⟨first, entries⟩ := head
    obtain ⟨hfirst, hrest⟩ := List.pairwise_cons.mp sorted
    rw [NavEntry.addToGroup]
    split
    · next hlt =>
      refine List.pairwise_cons.mpr ⟨fun name hname => ?_, sorted⟩
      rcases List.mem_cons.mp hname with rfl | hname
      · exact hlt
      · exact hlt.trans (hfirst name hname)
    · next hge =>
      split
      · exact sorted
      · next hne =>
        refine List.pairwise_cons.mpr ⟨fun name hname => ?_, ih hrest⟩
        rcases (adds_addToGroup hrest).mem_names.mp hname with hname | rfl
        · exact hfirst name hname
        · exact lt_of_le_of_ne (not_lt.mp hge) (Ne.symm hne)

/-- The navigation holds the listed courses by their groups, and the groups are sorted. -/
theorem holds_navigation (courses : List Course) :
    Holds Course.group ofCourse (courses.filter Course.isListed) (navigation courses) ∧
      Sorted (navigation courses) := by
  rw [navigation]
  induction courses.filter Course.isListed using List.reverseRecOn with
  | nil => exact ⟨.nil, List.Pairwise.nil⟩
  | append_singleton listed course ih =>
    obtain ⟨holds, sorted⟩ := ih
    rw [List.foldl_append]
    exact ⟨holds.concat (adds_addToGroup sorted), sorted.addToGroup⟩

/-- How the navigation guides to courses: by sorted groups, each of which has the listed courses of the group
in their order, so that each listed course is there once and no other is. -/
structure Guides (courses : List Course) (navigation : List (String × List NavEntry)) : Prop where
  sorted : Sorted navigation
  groups : ∀ group, group ∈ navigation.map Prod.fst ↔
    ∃ course ∈ courses, course.isListed = true ∧ course.group = group
  entries : ∀ group ∈ navigation, group.2 =
    (courses.filter fun course => course.isListed && course.group = group.1).map ofCourse
  once : (navigation.flatMap Prod.snd).Perm ((courses.filter Course.isListed).map ofCourse)

theorem guides_navigation (courses : List Course) : Guides courses (navigation courses) := by
  obtain ⟨holds, sorted⟩ := holds_navigation courses
  refine ⟨sorted, fun group => ?_, fun group hgroup => ?_, holds.once⟩
  · rw [holds.names]
    simp only [List.mem_filter, and_assoc]
  · rw [holds.values group hgroup, List.filter_filter]
    simp only [Bool.and_comm]

end NavEntry

namespace Course

/-- The chapters that a course shows, by topic. -/
def shown (course : Course) : List ChapterRef :=
  course.topics.flatMap fun topic => topic.chapters.map fun chapter => ⟨topic.id, chapter.id⟩

/-- How a course mirrors its plan: its topics are the topics of the plan in the order in which they first
occur, each has the chapters of the plan with that topic in their order, and so each planned chapter is there
as often as it is planned. -/
structure Mirrors (titles : PageTitles) (plan : Plan) (course : Course) : Prop where
  id : course.id = plan.id
  group : course.group = plan.group
  isListed : course.isListed = plan.isListed
  topics : course.topics.map CourseTopic.id = (plan.chapters.map ChapterRef.topic).eraseDups
  chapters : ∀ topic ∈ course.topics, topic.chapters =
    (plan.chapters.filter fun ref => ref.topic = topic.id).map (CourseChapter.ofRef titles plan)
  planned : course.shown.Perm plan.chapters

variable {titles : PageTitles} {plan : Plan}

/-- A group whose chapters have one topic shows these chapters. -/
theorem chapters_ofGroup {topic : String} {refs : List ChapterRef}
    (h : ∀ ref ∈ refs, ref.topic = topic) :
    (CourseTopic.ofGroup titles plan topic refs).chapters.map (fun chapter => ⟨topic, chapter.id⟩) =
      refs := by
  change (refs.map _).map _ = refs
  rw [List.map_map]
  conv_rhs => rw [← refs.map_id']
  refine List.map_congr_left fun ref hmem => ?_
  obtain rfl := h ref hmem
  rfl

theorem shown_ofPlan : (ofPlan titles plan).shown = plan.topics.flatMap Prod.snd := by
  rw [shown, ofPlan, List.flatMap_map]
  refine List.flatMap_congr fun group hgroup => chapters_ofGroup fun ref hmem => ?_
  rw [plan.holds_topics.1.values group hgroup, List.map_id', List.mem_filter] at hmem
  exact of_decide_eq_true hmem.2

theorem mirrors_ofPlan : Mirrors titles plan (ofPlan titles plan) := by
  obtain ⟨holds, order⟩ := plan.holds_topics
  refine ⟨rfl, rfl, rfl, ?_, fun topic htopic => ?_, ?_⟩
  · rw [← order, ofPlan, List.map_map]
    rfl
  · obtain ⟨group, hgroup, rfl⟩ := List.mem_map.mp htopic
    have hrefs := holds.values group hgroup
    rw [List.map_id'] at hrefs
    exact congrArg (List.map (CourseChapter.ofRef titles plan)) hrefs
  · rw [shown_ofPlan]
    simpa using holds.once

/-- The catalogue mirrors the plans, one course for each plan and in their order, and the navigation guides to
its courses: under a group stand the listed plans of the group in their order, and below each the topics of the
plan, in the order in which they first occur. -/
theorem catalogue_mirrors (titles : PageTitles) (plans : List Plan) :
    List.Forall₂ (Mirrors titles) plans (catalogue titles plans) ∧
      NavEntry.Guides (catalogue titles plans) (NavEntry.navigation (catalogue titles plans)) ∧
        ∀ group ∈ NavEntry.navigation (catalogue titles plans),
          List.Forall₂ (fun plan entry => entry.id = plan.id ∧
              entry.topics.map CourseTopic.id = (plan.chapters.map ChapterRef.topic).eraseDups)
            (plans.filter fun plan => plan.isListed && plan.group = group.1) group.2 := by
  have guides := NavEntry.guides_navigation (catalogue titles plans)
  refine ⟨?_, guides, fun group hgroup => ?_⟩
  · rw [catalogue, List.forall₂_map_right_iff, List.forall₂_same]
    exact fun plan _ => mirrors_ofPlan
  · rw [guides.entries group hgroup, catalogue, List.filter_map, List.map_map,
      List.forall₂_map_right_iff]
    exact List.forall₂_same.mpr fun plan _ => ⟨rfl, mirrors_ofPlan.topics⟩

/-- Three plans of one group. The first comes back to a topic after another one, and the second is not
listed. -/
def twoListed : List Plan :=
  [.lessons "a" [⟨"t", "t"⟩, ⟨"s", "s"⟩, ⟨"t", "c"⟩] [],
    { Plan.lessons "b" [⟨"t", "t"⟩] [] with isListed := false }, .lessons "c" [⟨"s", "d"⟩] []]

/-- The navigation shows the first plan and the third, each with its topics. -/
theorem catalogue_mirrors_twoListed :
    ∃ first third, NavEntry.navigation (catalogue (fun _ => none) twoListed) = [("g", [first, third])] ∧
      first.id = "g-a" ∧ first.topics.map CourseTopic.id = ["t", "s"] ∧
      third.id = "g-c" ∧ third.topics.map CourseTopic.id = ["s"] := by
  obtain ⟨-, -, shows⟩ := catalogue_mirrors (fun _ => none) twoListed
  have hnavigation : NavEntry.navigation (catalogue (fun _ => none) twoListed) =
      [("g", [.ofCourse (ofPlan (fun _ => none) (.lessons "a" [⟨"t", "t"⟩, ⟨"s", "s"⟩, ⟨"t", "c"⟩] [])),
        .ofCourse (ofPlan (fun _ => none) (.lessons "c" [⟨"s", "d"⟩] []))])] := by
    decide
  have hentries := shows _ (hnavigation ▸ List.mem_singleton_self _)
  have hlisted : twoListed.filter (fun plan => plan.isListed && plan.group = "g") =
      [.lessons "a" [⟨"t", "t"⟩, ⟨"s", "s"⟩, ⟨"t", "c"⟩] [], .lessons "c" [⟨"s", "d"⟩] []] := by
    decide
  rw [hlisted, List.forall₂_cons, List.forall₂_cons] at hentries
  obtain ⟨⟨hfirst, hfirstTopics⟩, ⟨hthird, hthirdTopics⟩, -⟩ := hentries
  exact ⟨_, _, hnavigation, hfirst, hfirstTopics, hthird, hthirdTopics⟩

end Course
end Courseware
