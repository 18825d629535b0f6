import Courseware.Course.Publication
import Courseware.Proofs.Course.Paths
import Courseware.Proofs.Except

/-!
# The pages of valid plans

Pages are taken up one after the other, and a page whose place is taken by another source collides. The
first part of this module is about any pages: taking them up fails exactly when two of them have one
place and different sources, and what is taken up has its places to itself. In the second part the pages
are those of valid plans. Courses have folders of their own there, so pages can only collide within a
topic, and then one of them is the index of the topic and the other a chapter called "index".
-/

namespace Courseware

namespace Plan

/-! ## Taking up pages -/

/-- The page that is found in a place has this place. -/
theorem spec_of_find? {pages : List Publication} {target : String} {page : Publication}
    (h : pages.find? (fun other => other.target == target) = some page) :
    page ∈ pages ∧ page.target = target := by
  have htarget := List.find?_some h
  exact ⟨List.mem_of_find?_eq_some h, by simpa using htarget⟩

/-- A page is taken up when its place is free. -/
theorem addPage_of_notMem {pages : List Publication} {page : Publication}
    (free : page.target ∉ pages.map Publication.target) :
    addPage pages page = .ok (pages ++ [page]) := by
  rw [addPage]
  split
  · rfl
  · next other hfound =>
    obtain ⟨hother, htarget⟩ := spec_of_find? hfound
    rw [← htarget] at free
    exact absurd (List.mem_map_of_mem hother) free

/-- Pages with different places are all taken up. -/
theorem foldlM_addPage_of_nodup {pages more : List Publication}
    (distinct : ((pages ++ more).map Publication.target).Nodup) :
    more.foldlM addPage pages = .ok (pages ++ more) := by
  induction more generalizing pages with
  | nil =>
    rw [List.append_nil]
    rfl
  | cons page rest ih =>
    rw [List.append_cons] at distinct ⊢
    have free : page.target ∉ pages.map Publication.target := by
      rw [List.map_append, List.map_append, List.map_singleton] at distinct
      intro hmem
      exact List.disjoint_of_nodup_append distinct.of_append_left hmem (List.mem_singleton_self _)
    exact foldlM_cons_eq_ok_iff.mpr ⟨pages ++ [page], addPage_of_notMem free, ih distinct⟩

/-- Whether some pages hold one with the place and the source of a page. -/
def Publishes (pages : List Publication) (page : Publication) : Prop :=
  ∃ other ∈ pages, other.target = page.target ∧ other.source = page.source

/-- A page that is taken up is added in a free place, or it was published already. -/
theorem spec_of_addPage {pages after : List Publication} {page : Publication}
    (h : addPage pages page = .ok after) :
    (after = pages ++ [page] ∧ page.target ∉ pages.map Publication.target) ∨
      (after = pages ∧ Publishes pages page) := by
  rw [addPage] at h
  split at h
  · next hnone =>
    obtain rfl := Except.ok.inj h
    refine Or.inl ⟨rfl, fun hmem => ?_⟩
    obtain ⟨other, hother, htarget⟩ := List.mem_map.mp hmem
    exact List.find?_eq_none.mp hnone other hother (beq_iff_eq.mpr htarget)
  · next other hfound =>
    obtain ⟨hother, htarget⟩ := spec_of_find? hfound
    split at h
    · next hsource =>
      obtain rfl := Except.ok.inj h
      exact Or.inr ⟨rfl, other, hother, htarget, hsource⟩
    · cases h

/-- When all pages are taken up, what is published are some of them, no two in one place, and each of
them is published. -/
theorem spec_of_foldlM_addPage {pages more after : List Publication}
    (distinct : (pages.map Publication.target).Nodup) (h : more.foldlM addPage pages = .ok after) :
    (after.map Publication.target).Nodup ∧ pages ⊆ after ∧ after ⊆ pages ++ more ∧
      ∀ page ∈ more, Publishes after page := by
  induction more generalizing pages with
  | nil =>
    obtain rfl := Except.ok.inj h
    exact ⟨distinct, List.Subset.refl _, List.subset_append_left _ _,
      fun page hpage => absurd hpage List.not_mem_nil⟩
  | cons page rest ih =>
    obtain ⟨middle, hpage, hrest⟩ := foldlM_cons_eq_ok_iff.mp h
    rw [List.forall_mem_cons]
    rcases spec_of_addPage hpage with ⟨rfl, free⟩ | ⟨rfl, other, hother, hsame⟩
    · have hdistinct : ((pages ++ [page]).map Publication.target).Nodup := by
        rw [List.map_append, List.map_singleton, ← List.concat_eq_append]
        exact distinct.concat free
      obtain ⟨hnodup, hkept, hsome, hpublished⟩ := ih hdistinct hrest
      rw [← List.append_cons] at hsome
      have hmem : page ∈ after := hkept (List.mem_append_right _ List.mem_cons_self)
      exact ⟨hnodup, fun _ h => hkept (List.mem_append_left _ h), hsome,
        ⟨page, hmem, rfl, rfl⟩, hpublished⟩
    · obtain ⟨hnodup, hkept, hsome, hpublished⟩ := ih distinct hrest
      have hsub : middle ++ rest ⊆ middle ++ page :: rest :=
        ((List.sublist_cons_self page rest).append_left middle).subset
      exact ⟨hnodup, hkept, List.Subset.trans hsome hsub, ⟨other, hkept hother, hsame⟩, hpublished⟩

/-- Two pages that have one place and different sources, in the order in which they are taken up. -/
def Collide (first second : Publication) : Prop :=
  first.target = second.target ∧ first.source ≠ second.source

/-- What is published when pages are taken up from the start. -/
theorem spec_of_published {pages published : List Publication}
    (h : pages.foldlM addPage [] = .ok published) :
    (published.map Publication.target).Nodup ∧ published ⊆ pages ∧
      ∀ page ∈ pages, Publishes published page := by
  have hnone : (([] : List Publication).map Publication.target).Nodup := List.nodup_nil
  obtain ⟨hnodup, _, hsome, hpublished⟩ := spec_of_foldlM_addPage hnone h
  exact ⟨hnodup, hsome, hpublished⟩

/-- The collision that is reported is one of two of the pages. -/
theorem exists_of_foldlM_addPage_eq_error {pages : List Publication} {collision : PathCollision}
    (h : pages.foldlM addPage [] = .error collision) :
    ∃ first ∈ pages, ∃ second ∈ pages, Collide first second ∧
      collision = ⟨second.target, first.source, second.source⟩ := by
  obtain ⟨before, page, after, middle, rfl, hbefore, hpage⟩ := exists_of_foldlM_eq_error h
  rw [addPage] at hpage
  split at hpage
  · cases hpage
  · next other hfound =>
    split at hpage
    · cases hpage
    · next hsource =>
      obtain ⟨hother, htarget⟩ := spec_of_find? hfound
      have hsome := (spec_of_published hbefore).2.1
      exact ⟨other, List.mem_append_left _ (hsome hother), page,
        List.mem_append_right _ List.mem_cons_self, ⟨htarget, hsource⟩,
        (Except.error.inj hpage).symm⟩

/-- Taking up pages fails exactly when two of them collide. -/
theorem exists_foldlM_addPage_eq_error_iff {pages : List Publication} :
    (∃ collision, pages.foldlM addPage [] = .error collision) ↔
      ∃ first ∈ pages, ∃ second ∈ pages, Collide first second := by
  constructor
  · rintro ⟨collision, h⟩
    obtain ⟨first, hfirst, second, hsecond, hcollide, _⟩ := exists_of_foldlM_addPage_eq_error h
    exact ⟨first, hfirst, second, hsecond, hcollide⟩
  · rintro ⟨first, hfirst, second, hsecond, htarget, hsource⟩
    cases h : pages.foldlM addPage [] with
    | error collision => exact ⟨collision, rfl⟩
    | ok after =>
      obtain ⟨hdistinct, _, hpublished⟩ := spec_of_published h
      obtain ⟨one, hone, honeTarget, honeSource⟩ := hpublished first hfirst
      obtain ⟨two, htwo, htwoTarget, htwoSource⟩ := hpublished second hsecond
      have hsame : one = two :=
        List.inj_on_of_nodup_map hdistinct hone htwo
          (honeTarget.trans (htarget.trans htwoTarget.symm))
      rw [← honeSource, ← htwoSource, hsame] at hsource
      exact absurd rfl hsource

/-! ## The pages of valid plans -/

variable {plans : List Plan}

theorem mem_allPages_iff {page : Publication} :
    page ∈ allPages plans ↔ ∃ plan ∈ plans, ∃ ref ∈ plan.chapters, plan.page ref = page := by
  simp [allPages]

/-- The pages of valid plans that have one place are pages of one plan, and of one chapter or of an index
and a chapter called "index". -/
theorem eq_or_of_pageTarget_eq (valid : validate plans = .ok ()) {plan other : Plan}
    (hplan : plan ∈ plans) (hother : other ∈ plans) {ref otherRef : ChapterRef}
    (planned : ref ∈ plan.chapters) (otherPlanned : otherRef ∈ other.chapters)
    (h : plan.pageTarget ref = other.pageTarget otherRef) :
    plan = other ∧ (ref = otherRef ∨ ∃ topic, topic ≠ "index" ∧
      (ref = ⟨topic, topic⟩ ∧ otherRef = ⟨topic, "index"⟩ ∨
        ref = ⟨topic, "index"⟩ ∧ otherRef = ⟨topic, topic⟩)) := by
  have sound := (validate_eq_ok_iff.mp valid).1
  obtain ⟨group, variant, topic, name⟩ :=
    (pageTarget_eq_iff (sound plan hplan) planned (sound other hother) otherPlanned).mp h
  exact ⟨eq_of_folder_eq valid hplan hother group variant,
    ChapterRef.eq_or_of_pageName_eq topic name⟩

/-- An index and a chapter called "index" are published in one place. -/
theorem pageTarget_index (plan : Plan) {topic : String} (h : topic ≠ "index") :
    plan.pageTarget ⟨topic, topic⟩ = plan.pageTarget ⟨topic, "index"⟩ := by
  have hindex : ChapterRef.isIndex ⟨topic, topic⟩ = true := beq_self_eq_true topic
  have hchapter : ChapterRef.isIndex ⟨topic, "index"⟩ = false := beq_false_of_ne h
  rw [pageTarget, pageTarget, if_pos hindex, hchapter, if_neg Bool.false_ne_true]
  simp [ToString.toString, String.append_assoc]

/-- Whether a plan has the index of a topic and beside it a chapter called "index". -/
def HasTwoIndexes (plan : Plan) : Prop :=
  ∃ topic, topic ≠ "index" ∧ ⟨topic, topic⟩ ∈ plan.chapters ∧ ⟨topic, "index"⟩ ∈ plan.chapters

/-- Pages of valid plans that collide are an index and a chapter called "index", in one order or the
other. -/
theorem exists_of_collide (valid : validate plans = .ok ()) {first second : Publication}
    (hfirst : first ∈ allPages plans) (hsecond : second ∈ allPages plans)
    (collide : Collide first second) :
    ∃ plan ∈ plans, ∃ topic, topic ≠ "index" ∧ ⟨topic, topic⟩ ∈ plan.chapters ∧
      ⟨topic, "index"⟩ ∈ plan.chapters ∧
      (first = plan.page ⟨topic, topic⟩ ∧ second = plan.page ⟨topic, "index"⟩ ∨
        first = plan.page ⟨topic, "index"⟩ ∧ second = plan.page ⟨topic, topic⟩) := by
  obtain ⟨plan, hplan, ref, planned, rfl⟩ := mem_allPages_iff.mp hfirst
  obtain ⟨other, hother, otherRef, otherPlanned, rfl⟩ := mem_allPages_iff.mp hsecond
  obtain ⟨htarget, hsource⟩ := collide
  obtain ⟨rfl, rfl | ⟨topic, hindex, ⟨rfl, rfl⟩ | ⟨rfl, rfl⟩⟩⟩ :=
    eq_or_of_pageTarget_eq valid hplan hother planned otherPlanned htarget
  · exact absurd rfl hsource
  · exact ⟨plan, hplan, topic, hindex, planned, otherPlanned, Or.inl ⟨rfl, rfl⟩⟩
  · exact ⟨plan, hplan, topic, hindex, otherPlanned, planned, Or.inr ⟨rfl, rfl⟩⟩

/-- Pages of valid plans collide exactly when a plan has two indexes of a topic. -/
theorem exists_collide_iff (valid : validate plans = .ok ()) :
    (∃ first ∈ allPages plans, ∃ second ∈ allPages plans, Collide first second) ↔
      ∃ plan ∈ plans, plan.HasTwoIndexes := by
  constructor
  · rintro ⟨first, hfirst, second, hsecond, collide⟩
    obtain ⟨plan, hplan, topic, hindex, planned, otherPlanned, _⟩ :=
      exists_of_collide valid hfirst hsecond collide
    exact ⟨plan, hplan, topic, hindex, planned, otherPlanned⟩
  · rintro ⟨plan, hplan, topic, hindex, planned, otherPlanned⟩
    have sound := (validate_eq_ok_iff.mp valid).1 plan hplan
    refine ⟨plan.page ⟨topic, topic⟩, mem_allPages_iff.mpr ⟨plan, hplan, _, planned, rfl⟩,
      plan.page ⟨topic, "index"⟩, mem_allPages_iff.mpr ⟨plan, hplan, _, otherPlanned, rfl⟩,
      pageTarget_index plan hindex, ?_⟩
    intro hsource
    have hsame := eq_of_pageSource_eq sound planned otherPlanned hsource
    exact hindex (congrArg ChapterRef.chapter hsame)

/-- Without collision, every page of valid plans has its place to itself. -/
theorem nodup_target_allPages (valid : validate plans = .ok ())
    (single : ¬∃ plan ∈ plans, plan.HasTwoIndexes) :
    ((allPages plans).map Publication.target).Nodup := by
  obtain ⟨sound, hids⟩ := validate_eq_ok_iff.mp valid
  have htargets : (allPages plans).map Publication.target =
      plans.flatMap fun plan => plan.chapters.map plan.pageTarget := by
    simp [allPages, List.map_flatMap, page, Function.comp_def]
  rw [htargets, List.nodup_flatMap]
  constructor
  · intro plan hplan
    apply List.Nodup.map_on _ (sound plan hplan).once
    intro ref planned otherRef otherPlanned h
    obtain ⟨_, hsame | ⟨topic, hindex, ⟨rfl, rfl⟩ | ⟨rfl, rfl⟩⟩⟩ :=
      eq_or_of_pageTarget_eq valid hplan hplan planned otherPlanned h
    · exact hsame
    · exact absurd ⟨plan, hplan, topic, hindex, planned, otherPlanned⟩ single
    · exact absurd ⟨plan, hplan, topic, hindex, otherPlanned, planned⟩ single
  · rw [List.Nodup, List.pairwise_map] at hids
    apply hids.imp_of_mem
    intro plan other hplan hother hne target htarget hotherTarget
    obtain ⟨ref, planned, rfl⟩ := List.mem_map.mp htarget
    obtain ⟨otherRef, otherPlanned, h⟩ := List.mem_map.mp hotherTarget
    obtain ⟨rfl, _⟩ := eq_or_of_pageTarget_eq valid hplan hother planned otherPlanned h.symm
    exact hne rfl

/-- Publishing the chapters of valid plans fails exactly when a plan has the index of a topic and beside it
a chapter called "index". The collision that is reported is one of such two: it names their place and their
sources. When publishing does not fail there is one page for each planned chapter, in planned order, from
the source of the chapter to its place, and no two pages have one place. -/
theorem pages_collide_iff (valid : validate plans = .ok ()) :
    ((∃ collision, pages plans = .error collision) ↔
      ∃ plan ∈ plans, ∃ topic, topic ≠ "index" ∧ ⟨topic, topic⟩ ∈ plan.chapters ∧
        ⟨topic, "index"⟩ ∈ plan.chapters) ∧
    (∀ collision, pages plans = .error collision →
      ∃ plan ∈ plans, ∃ topic, topic ≠ "index" ∧ ⟨topic, topic⟩ ∈ plan.chapters ∧
        ⟨topic, "index"⟩ ∈ plan.chapters ∧ collision.target = plan.pageTarget ⟨topic, topic⟩ ∧
        (collision.first = plan.pageSource ⟨topic, topic⟩ ∧
            collision.second = plan.pageSource ⟨topic, "index"⟩ ∨
          collision.first = plan.pageSource ⟨topic, "index"⟩ ∧
            collision.second = plan.pageSource ⟨topic, topic⟩)) ∧
    ∀ published, pages plans = .ok published →
      published = (plans.flatMap fun plan => plan.chapters.map fun ref =>
        ⟨plan.pageSource ref, plan.pageTarget ref, .web⟩) ∧
      (published.map Publication.target).Nodup := by
  have hcollide := exists_foldlM_addPage_eq_error_iff.trans (exists_collide_iff valid)
  refine ⟨hcollide, ?_, ?_⟩
  · intro collision h
    obtain ⟨first, hfirst, second, hsecond, collide, rfl⟩ := exists_of_foldlM_addPage_eq_error h
    obtain ⟨plan, hplan, topic, hindex, planned, otherPlanned, hpages⟩ :=
      exists_of_collide valid hfirst hsecond collide
    refine ⟨plan, hplan, topic, hindex, planned, otherPlanned, ?_⟩
    rcases hpages with ⟨rfl, rfl⟩ | ⟨rfl, rfl⟩
    · exact ⟨(pageTarget_index plan hindex).symm, Or.inl ⟨rfl, rfl⟩⟩
    · exact ⟨rfl, Or.inr ⟨rfl, rfl⟩⟩
  · intro published h
    have single : ¬∃ plan ∈ plans, plan.HasTwoIndexes := by
      intro double
      obtain ⟨collision, herror⟩ := hcollide.mpr double
      rw [pages, herror] at h
      cases h
    have distinct := nodup_target_allPages valid single
    have hall : pages plans = .ok (allPages plans) := foldlM_addPage_of_nodup distinct
    obtain rfl := Except.ok.inj (hall.symm.trans h)
    exact ⟨rfl, distinct⟩

/-- A chapter called "index" collides with the index of its topic, but in a topic called "index" it is the
index, and in another course it has another folder. -/
theorem pages_collide_iff_lessons :
    (∃ collision, pages [lessons "v" [⟨"a", "a"⟩, ⟨"a", "index"⟩] []] = .error collision) ∧
      ∃ published,
        pages [lessons "v" [⟨"a", "a"⟩, ⟨"index", "index"⟩] [], lessons "w" [⟨"a", "index"⟩] []] =
          .ok published ∧
        published.map Publication.target =
          ["courses/g/v/a/index.md", "courses/g/v/index/index.md", "courses/g/w/a/index.md"] ∧
        (published.map Publication.target).Nodup := by
  have hcollide : validate [lessons "v" [⟨"a", "a"⟩, ⟨"a", "index"⟩] []] = .ok () := by decide
  have hapart : validate
      [lessons "v" [⟨"a", "a"⟩, ⟨"index", "index"⟩] [], lessons "w" [⟨"a", "index"⟩] []] =
        .ok () := by decide
  constructor
  · exact (pages_collide_iff hcollide).1.mpr ⟨_, List.mem_singleton_self _, "a", by decide⟩
  · obtain ⟨hpages, hdistinct⟩ := (pages_collide_iff hapart).2.2 _ rfl
    exact ⟨_, rfl, rfl, hdistinct⟩

end Plan
end Courseware
