import Courseware.Proofs.Course.Catalogue
import Courseware.Proofs.Course.Pages

/-!
# The links of the catalogue lead to the pages

A chapter is linked from the catalogue and published as a page. The link and the place of the page are put
together by different functions, and in different orders: the catalogue goes by topics, and the pages are in
planned order. Both give the index of a topic a name that is not its own.

A link of the catalogue of plans is the link of a planned chapter, and each planned chapter has one. `LeadsTo`
is therefore only opened there: the link of a planned chapter leads to the page of this chapter and to no other
(`ChapterLink.leadsTo_ofRef_iff`). That chapters of valid plans share neither links nor pages is read off the
components of their paths.
-/

namespace Courseware

/-- A chapter in the catalogue, with the course and the topic under which it is found. -/
structure ChapterLink where
  course : Course
  topic : String
  chapter : CourseChapter

/-- The chapters in a catalogue, in the order in which it shows them. -/
def Course.links (courses : List Course) : List ChapterLink :=
  courses.flatMap fun course => course.topics.flatMap fun topic =>
    topic.chapters.map fun chapter => ⟨course, topic.id, chapter⟩

namespace ChapterLink

/-- A link leads to a page when the page is published where the link points, an index in the folder and
another chapter in the file of this name, and when it is made from the source of the chapter that is
linked. -/
structure LeadsTo (link : ChapterLink) (page : Publication) : Prop where
  target : ∃ path, link.chapter.href = "/" ++ path ∧
    page.target = path ++ if link.chapter.isIndex then "/index.md" else ".md"
  source : ∀ plan : Plan, plan.subject = link.course.subject →
    page.source = plan.pageSource ⟨link.topic, link.chapter.id⟩
  rendition : page.rendition = .web

/-- The link of a planned chapter. -/
def ofRef (titles : PageTitles) (plan : Plan) (ref : ChapterRef) : ChapterLink :=
  ⟨Course.ofPlan titles plan, ref.topic, CourseChapter.ofRef titles plan ref⟩

variable {titles : PageTitles} {plan other : Plan} {ref otherRef : ChapterRef} {page : Publication}

/-- The place of a page is the path of its link with an ending that tells the index from other chapters. -/
theorem exists_path_ofRef (titles : PageTitles) (plan : Plan) (ref : ChapterRef) :
    ∃ path, (CourseChapter.ofRef titles plan ref).href = "/" ++ path ∧
      plan.pageTarget ref = path ++ if ref.isIndex then "/index.md" else ".md" := by
  by_cases hindex : ref.isIndex
  · refine ⟨plan.targetFolder ref.topic, ?_, ?_⟩
    · simp [CourseChapter.ofRef, hindex, Plan.href, Plan.targetFolder, ToString.toString,
        ← String.toList_inj]
    · simp [Plan.pageTarget, hindex, ToString.toString]
  · refine ⟨s!"{plan.targetFolder ref.topic}/{ref.chapter}", ?_, ?_⟩
    · simp [CourseChapter.ofRef, hindex, Plan.href, Plan.targetFolder, ToString.toString,
        ← String.toList_inj]
    · simp [Plan.pageTarget, hindex, ToString.toString, String.append_assoc]

/-- The source of a page depends on the subject of its plan only. -/
theorem pageSource_eq_of_subject_eq (subject : plan.subject = other.subject) :
    plan.pageSource ref = other.pageSource ref := by
  simp only [Plan.pageSource, Plan.chapterFile, Plan.sourceFolder, subject]

/-- The link of a planned chapter leads to the page of this chapter, and to no other. -/
theorem leadsTo_ofRef_iff : LeadsTo (ofRef titles plan ref) page ↔ page = plan.page ref := by
  obtain ⟨path, hhref, htarget⟩ := exists_path_ofRef titles plan ref
  constructor
  · rintro ⟨⟨linked, hlinked, hpage⟩, source, rendition⟩
    have hpath : linked = path := by
      have hsame := hlinked.symm.trans hhref
      rwa [← String.toList_inj, String.toList_append, String.toList_append,
        List.append_cancel_left_eq, String.toList_inj] at hsame
    rw [hpath] at hpage
    have hsource : page.source = plan.pageSource ref := source plan rfl
    have hsame : page.target = plan.pageTarget ref := hpage.trans htarget.symm
    calc page = ⟨page.source, page.target, page.rendition⟩ := rfl
      _ = plan.page ref := by rw [hsource, hsame, rendition, Plan.page]
  · rintro rfl
    exact ⟨⟨path, hhref, htarget⟩, fun _ subject => pageSource_eq_of_subject_eq subject.symm, rfl⟩

/-- The components of the link of a chapter. -/
theorem parts_href (sound : plan.Sound) (planned : ref ∈ plan.chapters) :
    Path.parts (CourseChapter.ofRef titles plan ref).href =
      [[], "courses".toList, plan.group.toList, plan.variant.toList, ref.topic.toList] ++
        if ref.isIndex then [] else [ref.chapter.toList] := by
  obtain ⟨htopic, hchapter⟩ := sound.named ref planned
  apply Path.parts_of_toList
  case joined =>
    unfold CourseChapter.ofRef
    cases ref.isIndex <;> simp [Plan.href, Text.join, ToString.toString]
  case full => exact List.cons_ne_nil _ _
  case h =>
    have hlast : ∀ component ∈ (if ref.isIndex then [] else [ref.chapter.toList]),
        '/' ∉ component := by
      split
      · exact fun _ h => absurd h List.not_mem_nil
      · exact List.forall_mem_singleton.mpr (slash_notMem_of_isSlug hchapter)
    simp only [List.forall_mem_append, List.forall_mem_cons]
    exact ⟨⟨List.not_mem_nil, by decide, slash_notMem_of_isSlug sound.group,
      slash_notMem_of_isSlug sound.variant, slash_notMem_of_isSlug htopic,
      fun _ h => absurd h List.not_mem_nil⟩, hlast⟩

variable {plans : List Plan}

/-- Chapters of valid plans have links of their own. -/
theorem eq_of_href_eq (valid : Plan.validate plans = .ok ()) (hplan : plan ∈ plans)
    (hother : other ∈ plans) (planned : ref ∈ plan.chapters) (otherPlanned : otherRef ∈ other.chapters)
    (h : (CourseChapter.ofRef titles plan ref).href = (CourseChapter.ofRef titles other otherRef).href) :
    plan = other ∧ ref = otherRef := by
  have sound := (Plan.validate_eq_ok_iff.mp valid).1
  have hparts := congrArg Path.parts h
  rw [parts_href (sound plan hplan) planned, parts_href (sound other hother) otherPlanned] at hparts
  simp only [List.cons_append, List.nil_append, List.cons.injEq, true_and, String.toList_inj] at hparts
  obtain ⟨group, variant, topic, hlast⟩ := hparts
  refine ⟨Plan.eq_of_folder_eq valid hplan hother group variant, ?_⟩
  obtain ⟨first, chapter⟩ := ref
  obtain ⟨second, otherChapter⟩ := otherRef
  obtain rfl : first = second := topic
  -- The link of an index ends with the topic, and any other link has one component more.
  by_cases hfirst : first = chapter
  · by_cases hsecond : first = otherChapter
    · rw [← hfirst, ← hsecond]
    · simp [ChapterRef.isIndex, hfirst, hfirst ▸ hsecond] at hlast
  · by_cases hsecond : first = otherChapter
    · simp [ChapterRef.isIndex, hsecond, hsecond ▸ hfirst] at hlast
    · have hchapter : chapter = otherChapter := by
        simpa [ChapterRef.isIndex, hfirst, hsecond, String.toList_inj] using hlast
      rw [hchapter]

/-- Chapters of valid plans have pages of their own, since pages in one place come from different
sources. -/
theorem eq_of_page_eq (valid : Plan.validate plans = .ok ()) (hplan : plan ∈ plans)
    (hother : other ∈ plans) (planned : ref ∈ plan.chapters) (otherPlanned : otherRef ∈ other.chapters)
    (h : plan.page ref = other.page otherRef) : plan = other ∧ ref = otherRef := by
  obtain ⟨rfl, _⟩ := Plan.eq_or_of_pageTarget_eq valid hplan hother planned otherPlanned
    (congrArg Publication.target h)
  have sound := (Plan.validate_eq_ok_iff.mp valid).1 plan hplan
  exact ⟨rfl, Plan.eq_of_pageSource_eq sound planned otherPlanned (congrArg Publication.source h)⟩

end ChapterLink

/-- The chapters of a group have the topic of the group. -/
theorem Plan.topic_eq_of_mem_topics {plan : Plan} {group : String × List ChapterRef}
    (hgroup : group ∈ plan.topics) {ref : ChapterRef} (hmem : ref ∈ group.2) : ref.topic = group.1 := by
  rw [plan.holds_topics.1.values group hgroup, List.map_id', List.mem_filter] at hmem
  exact of_decide_eq_true hmem.2

/-- What is published are the pages that plans call for. -/
theorem Plan.mem_published_iff {plans : List Plan} {published : List Publication}
    (h : pages plans = .ok published) {page : Publication} :
    page ∈ published ↔ ∃ plan ∈ plans, ∃ ref ∈ plan.chapters, plan.page ref = page := by
  obtain ⟨_, hsome, hpublished⟩ := spec_of_published h
  refine ⟨fun hpage => mem_allPages_iff.mp (hsome hpage), ?_⟩
  rintro ⟨plan, hplan, ref, planned, rfl⟩
  obtain ⟨other, hother, htarget, hsource⟩ :=
    hpublished _ (mem_allPages_iff.mpr ⟨plan, hplan, ref, planned, rfl⟩)
  obtain ⟨_, _, _, _, rfl⟩ := mem_allPages_iff.mp (hsome hother)
  have hsame : Plan.page _ _ = plan.page ref := congrArg₂ (Publication.mk · · .web) hsource htarget
  exact hsame ▸ hother

namespace Course

open ChapterLink

variable {titles : PageTitles} {plans : List Plan}

/-- The links of a course are those of the planned chapters, by topic. -/
theorem links_ofPlan (titles : PageTitles) (plan : Plan) :
    ((ofPlan titles plan).topics.flatMap fun topic => topic.chapters.map fun chapter =>
      ChapterLink.mk (ofPlan titles plan) topic.id chapter).Perm
        (plan.chapters.map (ofRef titles plan)) := by
  have hgroups : ((ofPlan titles plan).topics.flatMap fun topic => topic.chapters.map fun chapter =>
      ChapterLink.mk (ofPlan titles plan) topic.id chapter) =
        (plan.topics.flatMap Prod.snd).map (ofRef titles plan) := by
    -- In each group, a chapter is found under its own topic.
    rw [List.map_flatMap]
    change (plan.topics.map _).flatMap _ = _
    rw [List.flatMap_map]
    refine List.flatMap_congr fun ⟨topic, refs⟩ hgroup => ?_
    change (refs.map _).map _ = refs.map _
    rw [List.map_map]
    refine List.map_congr_left fun ref hmem => ?_
    obtain rfl : ref.topic = topic := Plan.topic_eq_of_mem_topics hgroup hmem
    rfl
  rw [hgroups]
  have honce := plan.holds_topics.1.once
  rw [List.map_id'] at honce
  exact honce.map _

/-- The links of a catalogue are those of the planned chapters, once each. -/
theorem links_catalogue (titles : PageTitles) (plans : List Plan) :
    (links (catalogue titles plans)).Perm
      (plans.flatMap fun plan => plan.chapters.map (ofRef titles plan)) := by
  rw [links, catalogue, List.flatMap_map]
  exact List.Perm.flatMap_left plans fun plan _ => links_ofPlan titles plan

theorem mem_links_iff {link : ChapterLink} :
    link ∈ links (catalogue titles plans) ↔
      ∃ plan ∈ plans, ∃ ref ∈ plan.chapters, ofRef titles plan ref = link := by
  rw [(links_catalogue titles plans).mem_iff]
  simp

/-- In the catalogue of valid plans no two chapters have one link. -/
theorem nodup_href_links (valid : Plan.validate plans = .ok ()) :
    ((links (catalogue titles plans)).map fun link => link.chapter.href).Nodup := by
  obtain ⟨sound, hids⟩ := Plan.validate_eq_ok_iff.mp valid
  rw [((links_catalogue titles plans).map _).nodup_iff, List.map_flatMap, List.nodup_flatMap]
  simp only [List.map_map]
  constructor
  · intro plan hplan
    apply List.Nodup.map_on _ (sound plan hplan).once
    intro ref planned otherRef otherPlanned h
    exact (eq_of_href_eq valid hplan hplan planned otherPlanned h).2
  · rw [List.Nodup, List.pairwise_map] at hids
    apply hids.imp_of_mem
    intro plan other hplan hother hne href hhref hotherHref
    obtain ⟨ref, planned, rfl⟩ := List.mem_map.mp hhref
    obtain ⟨otherRef, otherPlanned, h⟩ := List.mem_map.mp hotherHref
    obtain ⟨rfl, _⟩ := eq_of_href_eq valid hother hplan otherPlanned planned h
    exact hne rfl

/-- When the pages of valid plans can be published, the links of their catalogue and the pages match, whatever
titles the catalogue shows: no two chapters have one link and no two pages one place, each link leads to exactly
one page, and to each page leads exactly one link. -/
theorem links_match_pages (valid : Plan.validate plans = .ok ()) (titles : PageTitles)
    {published : List Publication} (hpages : Plan.pages plans = .ok published) :
    ((links (catalogue titles plans)).map fun link => link.chapter.href).Nodup ∧
      (published.map Publication.target).Nodup ∧
      (∀ link ∈ links (catalogue titles plans), ∃! page, page ∈ published ∧ link.LeadsTo page) ∧
      ∀ page ∈ published, ∃! link, link ∈ links (catalogue titles plans) ∧ link.LeadsTo page := by
  refine ⟨nodup_href_links valid, (Plan.spec_of_published hpages).1, fun link hlink => ?_,
    fun page hpage => ?_⟩
  · obtain ⟨plan, hplan, ref, planned, rfl⟩ := mem_links_iff.mp hlink
    have hpublished := (Plan.mem_published_iff hpages).mpr ⟨plan, hplan, ref, planned, rfl⟩
    exact ⟨plan.page ref, ⟨hpublished, leadsTo_ofRef_iff.mpr rfl⟩,
      fun other h => leadsTo_ofRef_iff.mp h.2⟩
  · obtain ⟨plan, hplan, ref, planned, rfl⟩ := (Plan.mem_published_iff hpages).mp hpage
    refine ⟨ofRef titles plan ref,
      ⟨mem_links_iff.mpr ⟨plan, hplan, ref, planned, rfl⟩, leadsTo_ofRef_iff.mpr rfl⟩, ?_⟩
    rintro link ⟨hlink, leads⟩
    obtain ⟨other, hother, otherRef, otherPlanned, rfl⟩ := mem_links_iff.mp hlink
    obtain ⟨rfl, rfl⟩ :=
      eq_of_page_eq valid hplan hother planned otherPlanned (leadsTo_ofRef_iff.mp leads)
    rfl

/-- The catalogue shows the chapters by topic, while the pages are in planned order, and two courses teach one
topic. -/
theorem links_match_pages_backAndForth :
    let plans : List Plan :=
      [.lessons "v" [⟨"a", "a"⟩, ⟨"b", "c"⟩, ⟨"a", "d"⟩] [], .lessons "w" [⟨"a", "a"⟩] []]
    let courses := catalogue (fun _ => some "Title") plans
    ∃ published, Plan.pages plans = .ok published ∧
      (links courses).map (fun link => link.chapter.href) =
        ["/courses/g/v/a", "/courses/g/v/a/d", "/courses/g/v/b/c", "/courses/g/w/a"] ∧
      published.map Publication.target =
        ["courses/g/v/a/index.md", "courses/g/v/b/c.md", "courses/g/v/a/d.md",
          "courses/g/w/a/index.md"] ∧
      (∀ link ∈ links courses, ∃! page, page ∈ published ∧ link.LeadsTo page) ∧
      ∀ page ∈ published, ∃! link, link ∈ links courses ∧ link.LeadsTo page := by
  intro plans courses
  have valid : Plan.validate plans = .ok () := by decide
  obtain ⟨-, -, leads, led⟩ := links_match_pages valid (fun _ => some "Title") rfl
  exact ⟨_, rfl, by decide, rfl, leads, led⟩

end Course
end Courseware
