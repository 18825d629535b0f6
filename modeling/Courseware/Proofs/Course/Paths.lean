import Courseware.Proofs.Course.Validity
import Courseware.Proofs.Text.Parts

/-!
# The paths of a plan

Every path of a plan is put together from names with slashes between them. Names are slugs, and no slug
holds a slash or a dot, so a path falls into the names that it was made of: `Path.parts` reads them back.
Two paths of sound plans are the same exactly when they were made of the same names.
-/

namespace Courseware

/-- The components of a path. -/
def Path.parts (path : String) : List Text := Text.split '/' path.toList

/-- A path with components that hold no slash has these components. -/
theorem Path.parts_of_toList {path : String} {components : List Text}
    (joined : path.toList = Text.join ['/'] components) (full : components ≠ [])
    (h : ∀ component ∈ components, '/' ∉ component) : Path.parts path = components := by
  rw [Path.parts, joined]
  exact Text.split_join full h

/-- A slug holds letters of slugs only. -/
theorem notMem_of_isSlug {name : String} (slug : isSlug name = true) {letter : Char}
    (h : isSlugLetter letter = false) : letter ∉ name.toList := by
  rw [isSlug, Bool.and_eq_true, List.all_eq_true] at slug
  intro hmem
  rw [slug.2 letter hmem] at h
  cases h

theorem slash_notMem_of_isSlug {name : String} (slug : isSlug name = true) : '/' ∉ name.toList :=
  notMem_of_isSlug slug (by decide)

/-! ## Chapters -/

namespace ChapterRef

/-- The name under which a chapter is published in the folder of its topic. -/
def pageName (ref : ChapterRef) : String := if ref.isIndex then "index" else ref.chapter

theorem isSlug_pageName {ref : ChapterRef} (slug : isSlug ref.chapter = true) :
    isSlug ref.pageName = true := by
  unfold pageName
  split
  · decide
  · exact slug

/-- Two chapters of a topic are published under one name only when one of them is the index of the topic
and the other is called "index" without being it. -/
theorem eq_or_of_pageName_eq {ref other : ChapterRef} (topic : ref.topic = other.topic)
    (name : ref.pageName = other.pageName) :
    ref = other ∨ ∃ topic, topic ≠ "index" ∧
      (ref = ⟨topic, topic⟩ ∧ other = ⟨topic, "index"⟩ ∨
        ref = ⟨topic, "index"⟩ ∧ other = ⟨topic, topic⟩) := by
  obtain ⟨first, chapter⟩ := ref
  obtain ⟨second, otherChapter⟩ := other
  obtain rfl : first = second := topic
  simp only [pageName, isIndex, beq_iff_eq] at name
  by_cases hfirst : first = chapter
  · by_cases hsecond : first = otherChapter
    · left
      rw [← hfirst, ← hsecond]
    · right
      rw [if_pos hfirst, if_neg hsecond] at name
      subst name
      exact ⟨first, hsecond, Or.inl ⟨by rw [← hfirst], rfl⟩⟩
  · by_cases hsecond : first = otherChapter
    · right
      rw [if_neg hfirst, if_pos hsecond] at name
      subst name
      exact ⟨first, hfirst, Or.inr ⟨rfl, by rw [← hsecond]⟩⟩
    · left
      rw [if_neg hfirst, if_neg hsecond] at name
      rw [name]

end ChapterRef

namespace Plan

variable {plan other : Plan} {ref otherRef : ChapterRef}

/-- The components of the place where a chapter is published. -/
theorem parts_pageTarget (sound : plan.Sound) (planned : ref ∈ plan.chapters) :
    Path.parts (plan.pageTarget ref) =
      ["courses".toList, plan.group.toList, plan.variant.toList, ref.topic.toList,
        ref.pageName.toList ++ ".md".toList] := by
  obtain ⟨htopic, hchapter⟩ := sound.named ref planned
  apply Path.parts_of_toList
  case joined =>
    unfold pageTarget ChapterRef.pageName
    split <;> simp [targetFolder, Text.join, ToString.toString]
  case full => exact List.cons_ne_nil _ _
  case h =>
    simp only [List.forall_mem_cons, List.mem_append, not_or]
    exact ⟨by decide, slash_notMem_of_isSlug sound.group, slash_notMem_of_isSlug sound.variant,
      slash_notMem_of_isSlug htopic,
      ⟨slash_notMem_of_isSlug (ChapterRef.isSlug_pageName hchapter), by decide⟩,
      fun _ h => absurd h List.not_mem_nil⟩

/-- Two chapters are published in one place exactly when their courses, their topics and the names under
which they are published are the same. -/
theorem pageTarget_eq_iff (sound : plan.Sound) (planned : ref ∈ plan.chapters)
    (otherSound : other.Sound) (otherPlanned : otherRef ∈ other.chapters) :
    plan.pageTarget ref = other.pageTarget otherRef ↔
      plan.group = other.group ∧ plan.variant = other.variant ∧ ref.topic = otherRef.topic ∧
        ref.pageName = otherRef.pageName := by
  constructor
  · intro h
    have hparts := congrArg Path.parts h
    rw [parts_pageTarget sound planned, parts_pageTarget otherSound otherPlanned] at hparts
    simpa [String.toList_inj] using hparts
  · rintro ⟨group, variant, topic, name⟩
    have hmade : ∀ (plan : Plan) (ref : ChapterRef),
        plan.pageTarget ref = s!"{plan.targetFolder ref.topic}/{ref.pageName}.md" := by
      intro plan ref
      unfold pageTarget ChapterRef.pageName
      split <;> simp [ToString.toString, String.append_assoc]
    rw [hmade, hmade, targetFolder, targetFolder, group, variant, topic, name]

/-- The components of a file in the folder of a chapter. -/
theorem parts_chapterFile (sound : plan.Sound) (planned : ref ∈ plan.chapters) {file : String}
    (hfile : '/' ∉ file.toList) :
    Path.parts (plan.chapterFile ref file) =
      [plan.subject.toList, ref.topic.toList, "chapters".toList] ++
        ((if ref.isIndex then [] else [ref.chapter.toList]) ++ [file.toList]) := by
  obtain ⟨htopic, hchapter⟩ := sound.named ref planned
  apply Path.parts_of_toList
  case joined =>
    unfold chapterFile
    split <;> simp [sourceFolder, Text.join, ToString.toString]
  case full => exact List.cons_ne_nil _ _
  case h =>
    have hfolder : ∀ component ∈ (if ref.isIndex then [] else [ref.chapter.toList]),
        '/' ∉ component := by
      split
      · exact fun _ h => absurd h List.not_mem_nil
      · exact List.forall_mem_singleton.mpr (slash_notMem_of_isSlug hchapter)
    simp only [List.forall_mem_append, List.forall_mem_cons]
    exact ⟨⟨slash_notMem_of_isSlug sound.subject, slash_notMem_of_isSlug htopic, by decide,
      fun _ h => absurd h List.not_mem_nil⟩, hfolder, hfile,
      fun _ h => absurd h List.not_mem_nil⟩

/-- Chapters of a plan have sources of their own. -/
theorem eq_of_pageSource_eq (sound : plan.Sound) (planned : ref ∈ plan.chapters)
    (otherPlanned : otherRef ∈ plan.chapters) (h : plan.pageSource ref = plan.pageSource otherRef) :
    ref = otherRef := by
  have hparts := congrArg Path.parts h
  rw [pageSource, pageSource, parts_chapterFile sound planned (by decide),
    parts_chapterFile sound otherPlanned (by decide)] at hparts
  obtain ⟨first, chapter⟩ := ref
  obtain ⟨second, otherChapter⟩ := otherRef
  by_cases hfirst : first = chapter
  · by_cases hsecond : second = otherChapter
    · simp_all [ChapterRef.isIndex, String.toList_inj]
    · simp_all [ChapterRef.isIndex]
  · by_cases hsecond : second = otherChapter
    · simp_all [ChapterRef.isIndex]
    · simp_all [ChapterRef.isIndex, String.toList_inj]

/-! ## Worksheets -/

variable {sheet otherSheet : WorksheetRef}

/-- The components of the source of a worksheet. -/
theorem parts_worksheetSource (sound : plan.Sound) (current : sheet ∈ plan.worksheets) :
    Path.parts (plan.worksheetSource sheet) =
      [plan.subject.toList, sheet.topic.toList, "chapters".toList, sheet.chapter.toList,
        "worksheets".toList, sheet.worksheet.toList ++ ".md".toList] := by
  obtain ⟨hsheet, hplanned⟩ := sound.planned sheet current
  obtain ⟨htopic, hchapter⟩ := sound.named sheet.chapterRef hplanned
  apply Path.parts_of_toList
  case joined => simp [worksheetSource, sourceFolder, Text.join, ToString.toString]
  case full => exact List.cons_ne_nil _ _
  case h =>
    simp only [List.forall_mem_cons, List.mem_append, not_or]
    exact ⟨slash_notMem_of_isSlug sound.subject, slash_notMem_of_isSlug htopic, by decide,
      slash_notMem_of_isSlug hchapter, by decide, ⟨slash_notMem_of_isSlug hsheet, by decide⟩,
      fun _ h => absurd h List.not_mem_nil⟩

/-- Worksheets of a plan have sources of their own. -/
theorem eq_of_worksheetSource_eq (sound : plan.Sound) (current : sheet ∈ plan.worksheets)
    (otherCurrent : otherSheet ∈ plan.worksheets)
    (h : plan.worksheetSource sheet = plan.worksheetSource otherSheet) : sheet = otherSheet := by
  have hparts := congrArg Path.parts h
  rw [parts_worksheetSource sound current, parts_worksheetSource sound otherCurrent] at hparts
  simp only [List.cons.injEq, List.append_cancel_right_eq, String.toList_inj, true_and,
    and_true] at hparts
  obtain ⟨topic, chapter, worksheet⟩ := hparts
  cases sheet
  cases otherSheet
  simp_all

/-- The components of the place of a processed worksheet. -/
theorem parts_worksheetTarget (sound : plan.Sound) (current : sheet ∈ plan.worksheets)
    {ending : String} (hending : '/' ∉ ending.toList) :
    Path.parts (plan.worksheetTarget sheet ending) =
      ["pdf".toList, plan.group.toList, plan.variant.toList,
        sheet.worksheet.toList ++ ending.toList] := by
  obtain ⟨hsheet, _⟩ := sound.planned sheet current
  apply Path.parts_of_toList
  case joined => simp [worksheetTarget, Text.join, ToString.toString]
  case full => exact List.cons_ne_nil _ _
  case h =>
    simp only [List.forall_mem_cons, List.mem_append, not_or]
    exact ⟨by decide, slash_notMem_of_isSlug sound.group, slash_notMem_of_isSlug sound.variant,
      ⟨slash_notMem_of_isSlug hsheet, hending⟩, fun _ h => absurd h List.not_mem_nil⟩

/-- Two processed worksheets go to one place exactly when their courses and their file names are the
same. The chapters of the worksheets do not matter. -/
theorem worksheetTarget_eq_iff (sound : plan.Sound) (current : sheet ∈ plan.worksheets)
    (otherSound : other.Sound) (otherCurrent : otherSheet ∈ other.worksheets)
    {ending otherEnding : String} (hending : '/' ∉ ending.toList)
    (hotherEnding : '/' ∉ otherEnding.toList) :
    plan.worksheetTarget sheet ending = other.worksheetTarget otherSheet otherEnding ↔
      plan.group = other.group ∧ plan.variant = other.variant ∧
        sheet.worksheet ++ ending = otherSheet.worksheet ++ otherEnding := by
  constructor
  · intro h
    have hparts := congrArg Path.parts h
    rw [parts_worksheetTarget sound current hending,
      parts_worksheetTarget otherSound otherCurrent hotherEnding] at hparts
    simpa [String.toList_inj, ← String.toList_append] using hparts
  · rintro ⟨group, variant, name⟩
    have hmade : ∀ (plan : Plan) (sheet : WorksheetRef) (ending : String),
        plan.worksheetTarget sheet ending =
          s!"pdf/{plan.group}/{plan.variant}/" ++ (sheet.worksheet ++ ending) := by
      intro plan sheet ending
      simp [worksheetTarget, ToString.toString, String.append_assoc]
    rw [hmade, hmade, group, variant, name]

end Plan
end Courseware
