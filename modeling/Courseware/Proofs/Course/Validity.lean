import Mathlib.Data.List.Nodup
import Courseware.Course.Validation

/-!
# Valid plans

A set of plans is valid when every plan is sound by itself and no two plans have the same id. The
checks look for the first defect and carry along what they have seen, the chapters of a plan in one and
the ids of plans in the other; each is shown to find nothing exactly when there is nothing to be found.
`Plan.validate_eq_ok_iff` puts them together, and what is proved of valid plans rests on it alone.
-/

namespace Courseware

namespace Plan

/-- What is asked of a plan whatever plans stand beside it. -/
structure Sound (plan : Plan) : Prop where
  group : isSlug plan.group = true
  subject : isSlug plan.subject = true
  variant : isSlug plan.variant = true
  taught : plan.chapters ≠ []
  named : ∀ ref ∈ plan.chapters, isSlug ref.topic = true ∧ isSlug ref.chapter = true
  once : plan.chapters.Nodup
  planned : ∀ ref ∈ plan.worksheets, isSlug ref.worksheet = true ∧ ref.chapterRef ∈ plan.chapters

theorem nameDefect?_eq_none_iff {plan : Plan} :
    plan.nameDefect? = none ↔
      isSlug plan.group = true ∧ isSlug plan.subject = true ∧ isSlug plan.variant = true := by
  simp [nameDefect?]

/-- No chapter has a defect when all of them have slugs for names and none is repeated, neither among
themselves nor from before. -/
theorem chapterDefect?_eq_none_iff {earlier refs : List ChapterRef} :
    chapterDefect? earlier refs = none ↔
      (∀ ref ∈ refs, isSlug ref.topic = true ∧ isSlug ref.chapter = true) ∧ refs.Nodup ∧
        ∀ ref ∈ refs, ref ∉ earlier := by
  induction refs generalizing earlier with
  | nil => simp [chapterDefect?]
  | cons ref rest ih =>
    rw [chapterDefect?, List.forall_mem_cons, List.forall_mem_cons, List.nodup_cons]
    by_cases hslug : isSlug ref.topic = true ∧ isSlug ref.chapter = true
    · rw [hslug.1, hslug.2, Bool.and_self, Bool.not_true, if_neg Bool.false_ne_true]
      by_cases hearlier : ref ∈ earlier
      · simp [hearlier]
      · rw [if_neg (by simpa using hearlier), ih]
        simp only [hearlier, and_self, true_and, List.mem_cons, not_or, not_false_eq_true]
        constructor
        · rintro ⟨hnames, hnodup, hfresh⟩
          have hnotMem : ref ∉ rest := fun hmem => (hfresh ref hmem).1 rfl
          exact ⟨hnames, ⟨hnotMem, hnodup⟩, fun other hother => (hfresh other hother).2⟩
        · rintro ⟨hnames, ⟨hnotMem, hnodup⟩, hfresh⟩
          refine ⟨hnames, hnodup, fun other hother => ⟨?_, hfresh other hother⟩⟩
          rintro rfl
          exact hnotMem hother
    · rw [if_pos (by rwa [Bool.not_eq_true', ← Bool.not_eq_true, Bool.and_eq_true])]
      simp [hslug]

theorem worksheetDefect?_eq_none_iff {plan : Plan} {ref : WorksheetRef} :
    plan.worksheetDefect? ref = none ↔
      isSlug ref.worksheet = true ∧ ref.chapterRef ∈ plan.chapters := by
  by_cases hslug : isSlug ref.worksheet = true
  · simp [worksheetDefect?, hslug]
  · simp [worksheetDefect?, hslug]

/-- A plan has no defect when it is sound and its id is free. -/
theorem defect?_eq_none_iff {taken : List String} {plan : Plan} :
    plan.defect? taken = none ↔ plan.Sound ∧ plan.id ∉ taken := by
  have hplanned : plan.worksheets.findSome? plan.worksheetDefect? = none ↔
      ∀ ref ∈ plan.worksheets, isSlug ref.worksheet = true ∧ ref.chapterRef ∈ plan.chapters := by
    simp only [List.findSome?_eq_none_iff, worksheetDefect?_eq_none_iff]
  have htaken : (if taken.contains plan.id then some PlanDefect.idTaken else none) = none ↔
      plan.id ∉ taken := by
    simp
  have htaught : (if plan.chapters.isEmpty then some PlanDefect.noTopic else none) = none ↔
      plan.chapters ≠ [] := by
    simp
  rw [defect?, Option.or_eq_none_iff, Option.or_eq_none_iff, Option.or_eq_none_iff,
    Option.or_eq_none_iff, nameDefect?_eq_none_iff, htaken, htaught, chapterDefect?_eq_none_iff,
    hplanned]
  constructor
  · rintro ⟨⟨group, subject, variant⟩, free, taught, ⟨named, once, _⟩, planned⟩
    exact ⟨⟨group, subject, variant, taught, named, once, planned⟩, free⟩
  · rintro ⟨sound, free⟩
    exact ⟨⟨sound.group, sound.subject, sound.variant⟩, free, sound.taught,
      ⟨sound.named, sound.once, fun _ _ => List.not_mem_nil⟩, sound.planned⟩

/-- Plans are valid after others when each is sound and their ids differ, among themselves and from
those before. -/
theorem validateAfter_eq_ok_iff {taken : List String} {plans : List Plan} :
    validateAfter taken plans = .ok () ↔
      (∀ plan ∈ plans, plan.Sound) ∧ (plans.map Plan.id).Nodup ∧
        ∀ plan ∈ plans, plan.id ∉ taken := by
  induction plans generalizing taken with
  | nil => simp [validateAfter]
  | cons plan rest ih =>
    rw [validateAfter, List.forall_mem_cons, List.forall_mem_cons, List.map_cons, List.nodup_cons]
    cases hdefect : plan.defect? taken with
    | some defect =>
      have hunfit : ¬(plan.Sound ∧ plan.id ∉ taken) := by
        rw [← defect?_eq_none_iff, hdefect]
        exact Option.some_ne_none defect
      constructor
      · intro h
        cases h
      · rintro ⟨⟨sound, _⟩, _, free, _⟩
        exact absurd ⟨sound, free⟩ hunfit
    | none =>
      obtain ⟨sound, free⟩ := defect?_eq_none_iff.mp hdefect
      rw [ih]
      simp only [sound, free, true_and, List.mem_cons, not_or, List.mem_map, not_exists, not_and,
        not_false_eq_true]
      constructor
      · rintro ⟨hsound, hnodup, hfresh⟩
        exact ⟨hsound, ⟨fun other hother heq => (hfresh other hother).1 heq, hnodup⟩,
          fun other hother => (hfresh other hother).2⟩
      · rintro ⟨hsound, ⟨hnew, hnodup⟩, hfresh⟩
        exact ⟨hsound, hnodup, fun other hother => ⟨hnew other hother, hfresh other hother⟩⟩

/-- Plans are valid when each of them is sound and no two have one id. -/
theorem validate_eq_ok_iff {plans : List Plan} :
    validate plans = .ok () ↔ (∀ plan ∈ plans, plan.Sound) ∧ (plans.map Plan.id).Nodup := by
  rw [validate, validateAfter_eq_ok_iff]
  simp

/-- Valid plans whose courses have one folder are one plan. -/
theorem eq_of_folder_eq {plans : List Plan} (valid : validate plans = .ok ())
    {plan other : Plan} (hplan : plan ∈ plans) (hother : other ∈ plans)
    (group : plan.group = other.group) (variant : plan.variant = other.variant) : plan = other := by
  apply List.inj_on_of_nodup_map (validate_eq_ok_iff.mp valid).2 hplan hother
  rw [id, id, group, variant]

/-- A plan with some chapters and worksheets, all else as small as it can be. -/
def lessons (variant : String) (chapters : List ChapterRef) (worksheets : List WorksheetRef) : Plan :=
  ⟨"g", "math", variant, none, "gray", [], none, true, true, none, chapters, worksheets⟩

end Plan
end Courseware
