import Courseware.Markdown.Gfm
import Courseware.Proofs.Project.Artifacts

/-!
# Building again

What a build reads are sources, and what it writes are artifacts. While no artifact takes the place of a source,
a second build reads what the first has read, so it is about to emit the same, and each of its emissions finds
done what the first has done.
-/

namespace Courseware.Project

variable {dialect : Markdown.Dialect} {project : Project} {files : FileMap} {pages : List Publication}

/-- A build does not change what a later one compiles. -/
theorem compilationsIn_afterAll (dryRun : Bool) (apart : project.KeepsApart files)
    (hpages : project.pages = .ok pages) :
    project.compilationsIn dialect
        (Emission.afterAll dryRun files (project.emissionsIn dialect files pages)) =
      project.compilationsIn dialect files := by
  apply compilationsIn_eq (Emission.alike_afterAll _ _ _)
  intro source hsource
  exact Emission.bytes?_afterAll_of_notMem (apart.notMem_targetPlaces hpages hsource)

/-- What a second build is about to emit is what the first has emitted. -/
theorem emissionsIn_afterAll (dryRun : Bool) (apart : project.KeepsApart files)
    (hpages : project.pages = .ok pages) :
    project.emissionsIn dialect
        (Emission.afterAll dryRun files (project.emissionsIn dialect files pages)) pages =
      project.emissionsIn dialect files pages := by
  rw [emissionsIn, compilationsIn_afterAll dryRun apart hpages, emissionsIn]

/-- When a project that keeps its artifacts apart from its sources has been built, building it again writes
nothing and leaves all files as they are. It finds unchanged what was written before and what was unchanged
before, and it reports the same documents that compiled, the same failures and the same courses. -/
theorem build_again (dialect : Markdown.Dialect) (project : Project) (files : FileMap)
    (apart : project.KeepsApart files) {report : BuildReport} {after : FileMap}
    (built : (project.build dialect false : StateM FileMap (Except Problem BuildReport)).run files =
      (.ok report, after)) :
    ∃ again, (project.build dialect false : StateM FileMap (Except Problem BuildReport)).run after =
        (.ok again, after) ∧
      EmissionRecord.targets .written again.records = [] ∧
      again.unchanged = (EmissionRecord.targets .written report.records).length + report.unchanged ∧
      (EmissionRecord.targets .unchanged again.records).Perm
        (EmissionRecord.targets .written report.records ++
          EmissionRecord.targets .unchanged report.records) ∧
      Compilation.compiled again.compilations = Compilation.compiled report.compilations ∧
      Compilation.failures again.compilations = Compilation.failures report.compilations ∧
      EmissionRecord.failures again.records = EmissionRecord.failures report.records ∧
      again.courses = report.courses := by
  obtain ⟨pages, hpages, rfl, hafter⟩ := spec_of_build built
  have hcompilations : project.compilationsIn dialect after = project.compilationsIn dialect files :=
    hafter ▸ compilationsIn_afterAll false apart hpages
  have hemissions : project.emissionsIn dialect after pages = project.emissionsIn dialect files pages :=
    hafter ▸ emissionsIn_afterAll false apart hpages
  have hrecords : (project.reportIn dialect false after pages).records =
      (project.reportIn dialect false files pages).records.map (EmissionRecord.withWritten .unchanged) := by
    rw [reportIn, hemissions, hafter]
    exact (apart.emissions hpages).recordsIn_afterAll
  have hunchanged : (EmissionRecord.targets .unchanged
      (project.reportIn dialect false after pages).records).Perm
      (EmissionRecord.targets .written (project.reportIn dialect false files pages).records ++
        EmissionRecord.targets .unchanged (project.reportIn dialect false files pages).records) := by
    rw [hrecords]
    exact EmissionRecord.perm_targets_unchanged_map_withWritten
  refine ⟨project.reportIn dialect false after pages, ?_, ?_, ?_, hunchanged, ?_, ?_, ?_, ?_⟩
  · rw [build_run, hpages]
    simp only
    rw [hemissions, hafter, (apart.emissions hpages).afterAll_afterAll]
  · rw [hrecords]
    exact EmissionRecord.targets_written_map_withWritten (by decide)
  · rw [BuildReport.unchanged, hunchanged.length_eq, List.length_append]
    rfl
  · exact congrArg Compilation.compiled hcompilations
  · exact congrArg Compilation.failures hcompilations
  · rw [hrecords]
    exact EmissionRecord.failures_map_withWritten
  · exact congrArg project.courses hcompilations

/-- The first build writes six files, although one of the documents is missing. The second finds all six. -/
theorem build_again_twoChapters :
    twoChapters.KeepsApart (chapterFiles none) ∧
      ∃ report after again,
        (twoChapters.build .gfm false : StateM FileMap (Except Problem BuildReport)).run (chapterFiles none) =
          (.ok report, after) ∧
        EmissionRecord.targets .written report.records =
          ["p/generated/math/a/a.json", "p/generated/config/courses.json",
            "p/generated/navbar.config.json", "p/scripts/courses.sql", "p/generated/worksheets.json",
            "p/website/courses/g/v/a/index.md"] ∧
        (twoChapters.build .gfm false : StateM FileMap (Except Problem BuildReport)).run after =
          (.ok again, after) ∧
        again.unchanged = 6 ∧ Compilation.compiled again.compilations = ["math/a/a"] := by
  have apart : twoChapters.KeepsApart (chapterFiles none) := by decide +kernel
  have hpages : twoChapters.pages = .ok (Plan.allPages twoChapters.settings.plans) := by decide +kernel
  have built := build_run .gfm false twoChapters (chapterFiles none)
  rw [hpages] at built
  obtain ⟨again, hagain, _, hunchanged, _, hcompiled, _⟩ :=
    build_again .gfm twoChapters (chapterFiles none) apart built
  refine ⟨apart, _, _, again, built, ?_, hagain, ?_, ?_⟩
  · decide +kernel
  · rw [hunchanged]
    decide +kernel
  · rw [hcompiled]
    decide +kernel

end Courseware.Project
