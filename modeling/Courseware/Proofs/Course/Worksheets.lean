import Courseware.Course.Publication
import Courseware.Proofs.Course.Paths

/-!
# The worksheets of valid plans

A worksheet is printed twice, without and with its solution, and both documents are named after the
worksheet and lie in the folder of the course. The chapter of the worksheet is not part of the name. So two
worksheets of a course are kept apart only when their ids differ and neither is the other with "-solution"
behind it; validation asks for none of this. `Plan.allPrinted_apart_iff` says that nothing else is needed.
-/

namespace Courseware

namespace Plan

variable {plans : List Plan}

/-- The file name of a printed document, with the solution or without, up to its extension. -/
def stem (sheet : WorksheetRef) : Bool → String
  | false => sheet.worksheet
  | true => sheet.worksheet ++ "-solution"

/-- The document that is printed of a worksheet, with its solution or without. -/
def document (plan : Plan) (sheet : WorksheetRef) : Bool → Publication
  | false => ⟨plan.worksheetSource sheet, plan.worksheetTarget sheet ".pdf", .pdf⟩
  | true => ⟨plan.worksheetSource sheet, plan.worksheetTarget sheet "-solution.pdf", .pdfSolution⟩

/-- What is printed are the documents of the worksheets of all plans. -/
theorem mem_allPrinted_iff {printed : Publication} :
    printed ∈ allPrinted plans ↔
      ∃ plan ∈ plans, ∃ sheet ∈ plan.worksheets, ∃ solved, plan.document sheet solved = printed := by
  have hprinted : ∀ (plan : Plan) (sheet : WorksheetRef),
      printed ∈ plan.printed sheet ↔ ∃ solved, plan.document sheet solved = printed := by
    intro plan sheet
    rw [Bool.exists_bool, Plan.printed, List.mem_pair, eq_comm, @eq_comm _ printed]
    rfl
  simp only [allPrinted, List.mem_flatMap, hprinted]

/-- Documents of valid plans have one place exactly when they are of one course and have one file name. -/
theorem document_target_eq_iff (valid : validate plans = .ok ()) {plan other : Plan}
    (hplan : plan ∈ plans) (hother : other ∈ plans) {sheet otherSheet : WorksheetRef}
    (current : sheet ∈ plan.worksheets) (otherCurrent : otherSheet ∈ other.worksheets)
    {solved otherSolved : Bool} :
    (plan.document sheet solved).target = (other.document otherSheet otherSolved).target ↔
      plan = other ∧ stem sheet solved = stem otherSheet otherSolved := by
  have sound := (validate_eq_ok_iff.mp valid).1
  have hdocument : ∀ (plan : Plan) (sheet : WorksheetRef) (solved : Bool),
      ∃ ending, '/' ∉ ending.toList ∧
        (plan.document sheet solved).target = plan.worksheetTarget sheet ending ∧
        sheet.worksheet ++ ending = stem sheet solved ++ ".pdf" := by
    intro plan sheet solved
    cases solved with
    | false => exact ⟨".pdf", by decide, rfl, rfl⟩
    | true =>
      have hending : "-solution.pdf" = "-solution" ++ ".pdf" := rfl
      exact ⟨"-solution.pdf", by decide, rfl, by rw [hending, stem, String.append_assoc]⟩
  obtain ⟨ending, hending, htarget, hname⟩ := hdocument plan sheet solved
  obtain ⟨otherEnding, hotherEnding, hotherTarget, hotherName⟩ :=
    hdocument other otherSheet otherSolved
  rw [htarget, hotherTarget, worksheetTarget_eq_iff (sound plan hplan) current (sound other hother)
    otherCurrent hending hotherEnding, hname, hotherName, String.append_left_inj]
  constructor
  · rintro ⟨group, variant, name⟩
    exact ⟨eq_of_folder_eq valid hplan hother group variant, name⟩
  · rintro ⟨rfl, name⟩
    exact ⟨rfl, rfl, name⟩

/-- Whether the documents of two worksheets have file names of their own. -/
def KeepApart (first second : WorksheetRef) : Prop :=
  (first.worksheet = second.worksheet → first = second) ∧
    first.worksheet ≠ second.worksheet ++ "-solution"

/-- Documents of worksheets that are kept apart have one file name only when they are the same. -/
theorem eq_of_stem_eq {first second : WorksheetRef} (apart : KeepApart first second)
    (otherApart : KeepApart second first) {solved otherSolved : Bool}
    (h : stem first solved = stem second otherSolved) : first = second ∧ solved = otherSolved := by
  cases solved with
  | false =>
    cases otherSolved with
    | false => exact ⟨apart.1 h, rfl⟩
    | true => exact absurd h apart.2
  | true =>
    cases otherSolved with
    | false => exact absurd h.symm otherApart.2
    | true =>
      exact ⟨apart.1 ((String.append_left_inj _).mp h), rfl⟩

/-- The documents of valid plans that have one place have one source and one rendition, exactly when no two
worksheets of a course share an id and no id is that of another worksheet of the course with "-solution"
behind it. -/
theorem allPrinted_apart_iff (valid : validate plans = .ok ()) :
    (∀ first ∈ allPrinted plans, ∀ second ∈ allPrinted plans, first.target = second.target →
      first.source = second.source ∧ first.rendition = second.rendition) ↔
    ∀ plan ∈ plans, ∀ first ∈ plan.worksheets, ∀ second ∈ plan.worksheets,
      (first.worksheet = second.worksheet → first = second) ∧
        first.worksheet ≠ second.worksheet ++ "-solution" := by
  constructor
  · intro apart plan hplan first hfirst second hsecond
    have sound := (validate_eq_ok_iff.mp valid).1 plan hplan
    have hsame : ∀ solved otherSolved, stem first solved = stem second otherSolved →
        (plan.document first solved).source = (plan.document second otherSolved).source ∧
          (plan.document first solved).rendition =
            (plan.document second otherSolved).rendition := by
      intro solved otherSolved name
      apply apart
      · exact mem_allPrinted_iff.mpr ⟨plan, hplan, first, hfirst, solved, rfl⟩
      · exact mem_allPrinted_iff.mpr ⟨plan, hplan, second, hsecond, otherSolved, rfl⟩
      · exact (document_target_eq_iff valid hplan hplan hfirst hsecond).mpr ⟨rfl, name⟩
    constructor
    · intro name
      exact eq_of_worksheetSource_eq sound hfirst hsecond (hsame false false name).1
    · intro name
      cases (hsame false true name).2
  · intro apart first hfirst second hsecond htarget
    obtain ⟨plan, hplan, sheet, current, solved, rfl⟩ := mem_allPrinted_iff.mp hfirst
    obtain ⟨other, hother, otherSheet, otherCurrent, otherSolved, rfl⟩ :=
      mem_allPrinted_iff.mp hsecond
    obtain ⟨rfl, name⟩ :=
      (document_target_eq_iff valid hplan hother current otherCurrent).mp htarget
    obtain ⟨rfl, rfl⟩ := eq_of_stem_eq (apart plan hplan sheet current otherSheet otherCurrent)
      (apart plan hplan otherSheet otherCurrent sheet current) name
    exact ⟨rfl, rfl⟩

/-- Two courses with a worksheet of one id, and a second worksheet in the first of them. -/
def twoCourses : List Plan :=
  [lessons "v" [⟨"a", "a"⟩, ⟨"a", "b"⟩] [⟨"a", "a", "x"⟩, ⟨"a", "b", "y"⟩],
    lessons "w" [⟨"a", "a"⟩] [⟨"a", "a", "x"⟩]]

/-- The worksheets of the two courses are kept apart. -/
theorem allPrinted_apart_iff_twoCourses :
    validate twoCourses = .ok () ∧ (allPrinted twoCourses).length = 6 ∧
      ∀ first ∈ allPrinted twoCourses, ∀ second ∈ allPrinted twoCourses,
        first.target = second.target →
          first.source = second.source ∧ first.rendition = second.rendition := by
  have valid : validate twoCourses = .ok () := by decide
  exact ⟨valid, rfl, (allPrinted_apart_iff valid).mpr (by decide)⟩

/-- Valid plans do not keep worksheets apart in general: two chapters may each have a worksheet with one
id. -/
theorem allPrinted_overwrites :
    ¬∀ plans : List Plan, validate plans = .ok () →
      ∀ first ∈ allPrinted plans, ∀ second ∈ allPrinted plans, first.target = second.target →
        first.source = second.source ∧ first.rendition = second.rendition := by
  intro apart
  have valid : validate [lessons "v" [⟨"a", "a"⟩, ⟨"b", "b"⟩]
      [⟨"a", "a", "x"⟩, ⟨"b", "b", "x"⟩]] = .ok () := by decide
  have hsame := apart _ valid
    ⟨"math/a/chapters/a/worksheets/x.md", "pdf/g/v/x.pdf", .pdf⟩ (by decide)
    ⟨"math/b/chapters/b/worksheets/x.md", "pdf/g/v/x.pdf", .pdf⟩ (by decide) rfl
  exact absurd hsame.1 (by decide)

end Plan
end Courseware
