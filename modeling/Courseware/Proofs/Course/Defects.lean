import Mathlib
import Courseware.Proofs.Course.Validity

/-!
# What a report about plans says

Plans are checked one after the other, each beside those before it, up to the first that has a defect. A
shorter list of valid plans is valid as well, so there is one plan with which a list ceases to be valid, and
it is the one that the report names. What the report says is wrong with it is so: `PlanDefect.Arises` says
for each kind of defect what is to be found in the plan, or in those before it.
-/

namespace Courseware

/-- A character is an ASCII letter or digit, a hyphen or an underscore exactly when it may stand in a slug. -/
theorem isSlugLetter_iff {letter : Char} :
    isSlugLetter letter = true ↔
      ('A' ≤ letter ∧ letter ≤ 'Z') ∨ ('a' ≤ letter ∧ letter ≤ 'z') ∨ ('0' ≤ letter ∧ letter ≤ '9') ∨
        letter = '-' ∨ letter = '_' := by
  simp only [isSlugLetter, Char.isAlphanum, Char.isAlpha, Char.isUpper, Char.isLower, Char.isDigit,
    Bool.or_eq_true, Bool.and_eq_true, decide_eq_true_eq, beq_iff_eq, or_assoc, ge_iff_le]
  rfl

theorem isSlug_iff {name : String} :
    isSlug name = true ↔ name ≠ "" ∧ ∀ letter ∈ name.toList,
      ('A' ≤ letter ∧ letter ≤ 'Z') ∨ ('a' ≤ letter ∧ letter ≤ 'z') ∨ ('0' ≤ letter ∧ letter ≤ '9') ∨
        letter = '-' ∨ letter = '_' := by
  simp only [isSlug, Bool.and_eq_true, List.all_eq_true, isSlugLetter_iff]
  simp

/-- What a defect says of a plan that comes after others. -/
def PlanDefect.Arises (before : List Plan) (plan : Plan) : PlanDefect → Prop
  | notSlug field value =>
    isSlug value = false ∧
      (field, value) ∈
        [("group", plan.group), ("subject", plan.subject), ("course_variant", plan.variant)]
  | idTaken => ∃ other ∈ before, other.id = plan.id
  | noTopic => plan.chapters = []
  | invalidChapter ref => ref ∈ plan.chapters ∧ (isSlug ref.topic && isSlug ref.chapter) = false
  | chapterTwice ref => 2 ≤ plan.chapters.count ref
  | invalidWorksheet name => isSlug name = false ∧ ∃ ref ∈ plan.worksheets, ref.worksheet = name
  | unplannedWorksheet ref => ref ∈ plan.worksheets ∧ ref.chapterRef ∉ plan.chapters

namespace Plan

variable {plan : Plan} {before plans : List Plan} {defect : PlanDefect}

/-- All plans are sound, and no two of them have one id. -/
structure Valid (plans : List Plan) : Prop where
  sound : ∀ plan ∈ plans, plan.Sound
  distinct : (plans.map Plan.id).Nodup

theorem Valid.of_sublist {shorter : List Plan} (valid : Valid plans) (h : shorter.Sublist plans) :
    Valid shorter where
  sound := fun plan hplan => valid.sound plan (h.subset hplan)
  distinct := valid.distinct.sublist (h.map Plan.id)

theorem chapterDefect?_eq_some {earlier refs : List ChapterRef}
    (h : chapterDefect? earlier refs = some defect) :
    (∃ ref ∈ refs, defect = .invalidChapter ref ∧ (isSlug ref.topic && isSlug ref.chapter) = false) ∨
      ∃ ref, defect = .chapterTwice ref ∧ 2 ≤ (earlier ++ refs).count ref := by
  induction refs generalizing earlier with
  | nil => cases h
  | cons ref rest ih =>
    rw [chapterDefect?] at h
    split at h
    · next hslug =>
      exact .inl ⟨ref, List.mem_cons_self, (Option.some.inj h).symm, by rwa [Bool.not_eq_true'] at hslug⟩
    · split at h
      · next hearlier =>
        refine .inr ⟨ref, (Option.some.inj h).symm, ?_⟩
        have hcount : 0 < earlier.count ref := List.count_pos_iff.mpr (by simpa using hearlier)
        rw [List.count_append, List.count_cons_self]
        omega
      · rcases ih h with ⟨other, hother, hdefect⟩ | ⟨other, hdefect, hcount⟩
        · exact .inl ⟨other, List.mem_cons_of_mem ref hother, hdefect⟩
        · exact .inr ⟨other, hdefect, by rwa [List.perm_middle.count_eq]⟩

theorem worksheetDefect?_eq_some {ref : WorksheetRef} (hmem : ref ∈ plan.worksheets)
    (h : plan.worksheetDefect? ref = some defect) : defect.Arises before plan := by
  rw [worksheetDefect?] at h
  split at h
  · next hslug =>
    obtain rfl := Option.some.inj h
    exact ⟨by simpa using hslug, ref, hmem, rfl⟩
  · split at h
    · next hplanned =>
      obtain rfl := Option.some.inj h
      exact ⟨hmem, by simpa using hplanned⟩
    · cases h

/-- A defect that is found is one that the plan has. -/
theorem arises_of_defect? {taken : List String} (h : plan.defect? taken = some defect)
    (htaken : ∀ id ∈ taken, ∃ other ∈ before, other.id = id) : defect.Arises before plan := by
  rw [defect?, Option.or_eq_some_iff, Option.or_eq_some_iff, Option.or_eq_some_iff,
    Option.or_eq_some_iff] at h
  rcases h with hname | ⟨-, hid | ⟨-, htopic | ⟨-, hchapter | ⟨-, hworksheet⟩⟩⟩⟩
  · obtain ⟨⟨field, value⟩, hfield, hslug⟩ := List.exists_of_findSome?_eq_some hname
    change (if isSlug value then none else some (.notSlug field value)) = some defect at hslug
    split at hslug
    · cases hslug
    · next hvalue =>
      obtain rfl := Option.some.inj hslug
      exact ⟨by simpa using hvalue, hfield⟩
  · split at hid
    · next hcontains =>
      obtain rfl := Option.some.inj hid
      exact htaken _ (by simpa using hcontains)
    · cases hid
  · split at htopic
    · next hempty =>
      obtain rfl := Option.some.inj htopic
      exact List.isEmpty_iff.mp hempty
    · cases htopic
  · rcases chapterDefect?_eq_some hchapter with ⟨ref, hmem, rfl, hslug⟩ | ⟨ref, rfl, hcount⟩
    · exact ⟨hmem, hslug⟩
    · exact hcount
  · obtain ⟨ref, hmem, hdefect⟩ := List.exists_of_findSome?_eq_some hworksheet
    exact worksheetDefect?_eq_some hmem hdefect

/-- A report is about a plan that has a defect beside the plans before it, which have none. -/
theorem exists_of_validateAfter_eq_error {taken : List String} {report : InvalidPlan}
    (h : validateAfter taken plans = .error report) :
    ∃ before plan after, plans = before ++ plan :: after ∧ validateAfter taken before = .ok () ∧
      report.course = plan.id ∧
        plan.defect? ((before.map Plan.id).reverse ++ taken) = some report.defect := by
  induction plans generalizing taken with
  | nil => cases h
  | cons first rest ih =>
    rw [validateAfter] at h
    split at h
    · next defect hdefect =>
      obtain rfl := Except.error.inj h
      exact ⟨[], first, rest, rfl, rfl, rfl, hdefect⟩
    · next hnone =>
      obtain ⟨before, plan, after, rfl, hbefore, hcourse, hdefect⟩ := ih h
      refine ⟨first :: before, plan, after, rfl, ?_, hcourse, ?_⟩
      · rw [validateAfter, hnone]
        exact hbefore
      · rwa [List.map_cons, List.reverse_cons, List.append_assoc]

theorem validate_eq_ok_iff_valid : validate plans = .ok () ↔ Valid plans := by
  rw [validate_eq_ok_iff]
  exact ⟨fun h => ⟨h.1, h.2⟩, fun h => ⟨h.sound, h.distinct⟩⟩

/-- A defect beside valid plans makes the list with the plan invalid. -/
theorem not_valid_concat (h : plan.defect? (before.map Plan.id).reverse = some defect) :
    ¬Valid (before ++ [plan]) := by
  intro valid
  have hnone : plan.defect? (before.map Plan.id).reverse = none := by
    have hdistinct := valid.distinct
    rw [List.map_append, List.map_cons, List.map_nil, List.nodup_append] at hdistinct
    rw [defect?_eq_none_iff, List.mem_reverse]
    exact ⟨valid.sound plan List.mem_concat_self, fun hmem =>
      hdistinct.2.2 _ hmem _ (List.mem_singleton.mpr rfl) rfl⟩
  rw [hnone] at h
  cases h

/-- Plans are accepted exactly when they are valid, where a slug is a name of ASCII letters, digits, hyphens
and underscores that is not empty. A report names the plan with which the list ceases to be valid, and a
defect which that plan has. -/
theorem validate_reports_first (plans : List Plan) :
    (∀ name, isSlug name = true ↔ name ≠ "" ∧ ∀ letter ∈ name.toList,
      ('A' ≤ letter ∧ letter ≤ 'Z') ∨ ('a' ≤ letter ∧ letter ≤ 'z') ∨ ('0' ≤ letter ∧ letter ≤ '9') ∨
        letter = '-' ∨ letter = '_') ∧
    (validate plans = .ok () ↔ Valid plans) ∧
    ∀ report, validate plans = .error report →
      ∃ before plan after, plans = before ++ plan :: after ∧ report.course = plan.id ∧
        (∀ shorter, shorter <+: before → Valid shorter) ∧ ¬Valid (before ++ [plan]) ∧
        report.defect.Arises before plan := by
  refine ⟨fun name => isSlug_iff, validate_eq_ok_iff_valid, fun report hreport => ?_⟩
  obtain ⟨before, plan, after, rfl, hbefore, hcourse, hdefect⟩ :=
    exists_of_validateAfter_eq_error hreport
  rw [List.append_nil] at hdefect
  have valid : Valid before := validate_eq_ok_iff_valid.mp hbefore
  refine ⟨before, plan, after, rfl, hcourse, fun shorter hshorter => valid.of_sublist hshorter.sublist,
    not_valid_concat hdefect, arises_of_defect? hdefect fun id hid => ?_⟩
  exact List.mem_map.mp (List.mem_reverse.mp hid)

/-- Three plans, of which the second has the id of the first, and the third has no variant and no chapters. -/
def sameId : List Plan :=
  [lessons "a" [⟨"t", "t"⟩] [], lessons "a" [⟨"t", "c"⟩] [], lessons "" [] []]

/-- The second of the plans is reported. -/
theorem validate_reports_first_sameId :
    validate sameId = .error ⟨"g-a", .idTaken⟩ ∧
      ∃ before plan after, sameId = before ++ plan :: after ∧ "g-a" = plan.id ∧ Valid before ∧
        ¬Valid (before ++ [plan]) ∧ PlanDefect.idTaken.Arises before plan := by
  have reported : validate sameId = .error ⟨"g-a", .idTaken⟩ := by decide
  obtain ⟨-, -, reports⟩ := validate_reports_first sameId
  obtain ⟨before, plan, after, hplans, hcourse, valid, invalid, arises⟩ := reports _ reported
  exact ⟨reported, before, plan, after, hplans, hcourse, valid _ (List.prefix_refl before), invalid,
    arises⟩

end Plan
end Courseware
