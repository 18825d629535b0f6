import Courseware.Cli.Run
import Courseware.Proofs.Project.Artifacts

/-!
# Checks

A check runs a build dry. Since the emissions of a build do not notice each other, a dry run finds out of each of
them what a real run would find, although a real run has changed files by then. So what a dry run has pending is
what a real run would write, and a check succeeds exactly when building would succeed and change nothing.
-/

namespace Courseware

variable {dialect : Markdown.Dialect} {project : Project} {files : FileMap} {pages : List Publication}

/-- Whether a report foretells another one: what is pending in the one is written in the other, and all else is
the same. -/
structure BuildReport.Foretells (predicted report : BuildReport) : Prop where
  pending : EmissionRecord.targets .pending predicted.records =
    EmissionRecord.targets .written report.records
  unchanged : predicted.unchanged = report.unchanged
  compiled : Compilation.compiled predicted.compilations = Compilation.compiled report.compilations
  failedDocuments : Compilation.failures predicted.compilations =
    Compilation.failures report.compilations
  failedTargets : EmissionRecord.failures predicted.records = EmissionRecord.failures report.records
  courses : predicted.courses = report.courses

theorem BuildReport.Foretells.isOk_eq {predicted report : BuildReport}
    (foretells : predicted.Foretells report) : predicted.isOk = report.isOk := by
  rw [isOk, foretells.failedDocuments, foretells.failedTargets, isOk]

namespace Project

/-- A dry run leaves the files as they are. -/
theorem keeps_build_true (project : Project) :
    Keeps (project.build dialect true : StateM FileMap (Except Problem BuildReport)) := by
  intro files
  rw [build_run]
  cases project.pages with
  | error problem => rfl
  | ok pages => exact Emission.afterAll_true

/-- A dry run foretells a real one, where writing succeeds. -/
theorem foretells_reportIn (apart : project.KeepsApart files) (hpages : project.pages = .ok pages)
    (writable : ∀ place, files.isWritable place = true) :
    (project.reportIn dialect true files pages).Foretells (project.reportIn dialect false files pages) := by
  have hrecords : (project.reportIn dialect true files pages).records =
      (project.reportIn dialect false files pages).records.map (EmissionRecord.withWritten .pending) :=
    (apart.emissions hpages).recordsIn_true writable
  refine ⟨?_, ?_, rfl, rfl, ?_, rfl⟩
  · rw [hrecords]
    exact EmissionRecord.targets_pending_map_withWritten
      fun record => Emission.ne_pending_of_mem_recordsIn
  · rw [BuildReport.unchanged, hrecords, EmissionRecord.targets_unchanged_map_withWritten,
      BuildReport.unchanged]
  · rw [hrecords]
    exact EmissionRecord.failures_map_withWritten

/-- A real run that writes nothing is one that leaves the files as they are. -/
theorem targets_written_eq_nil_iff (apart : project.KeepsApart files)
    (hpages : project.pages = .ok pages) :
    EmissionRecord.targets .written (project.reportIn dialect false files pages).records = [] ↔
      Emission.afterAll false files (project.emissionsIn dialect files pages) = files :=
  (apart.emissions hpages).targets_written_eq_nil_iff

/-! ## Loading a project -/

theorem keeps_load (data? : Text → Option Json) (root : String) :
    Keeps (load data? root : StateM FileMap (Except Problem Project)) := by
  have hfind : Keeps (find? data? root : StateM FileMap (Except Problem (Option Project))) := by
    apply Keeps.bind
    · exact Keeps.findM? FileMap.keeps_isFile _
    · intro found
      cases found with
      | none => exact Keeps.pure _
      | some path =>
        apply (keeps_readText path).bind
        intro text
        cases text <;> exact Keeps.pure _
  apply hfind.bind
  intro found
  rcases found with problem | _ | project <;> exact Keeps.pure _

end Project

namespace Cli

variable {readers : Readers} {isVerbose isColored : Bool}

theorem statusOf_eq_zero_iff {isOk : Bool} : statusOf isOk = 0 ↔ isOk = true := by
  cases isOk <;> decide

/-- A build succeeds when nothing fails. -/
theorem status_buildTranscript {dryRun : Bool} {report : BuildReport} :
    (buildTranscript isVerbose isColored dryRun project report).status = 0 ↔ report.isOk = true :=
  statusOf_eq_zero_iff

/-- A check succeeds when nothing fails and nothing is pending. -/
theorem status_checkTranscript {report : BuildReport} :
    (checkTranscript isColored project report).status = 0 ↔
      report.isOk = true ∧ EmissionRecord.targets .pending report.records = [] := by
  rw [checkTranscript]
  cases EmissionRecord.targets .pending report.records with
  | nil => exact statusOf_eq_zero_iff.trans (and_iff_left rfl).symm
  | cons target rest => exact ⟨fun h => (nomatch h), fun h => (nomatch h.2)⟩

/-- Checking a project succeeds when building it would succeed and leave the files as they are. -/
theorem runOn_check_iff (apart : project.KeepsApart files)
    (writable : ∀ place, files.isWritable place = true) :
    ((runOn dialect isVerbose isColored project .check :
        StateM FileMap Transcript).run files).1.status = 0 ↔
      ((runOn dialect isVerbose isColored project (.build false) :
          StateM FileMap Transcript).run files).1.status = 0 ∧
        ((runOn dialect isVerbose isColored project (.build false) :
          StateM FileMap Transcript).run files).2 = files := by
  rw [runOn, runOn, StateT.run_bind, StateT.run_bind, Project.build_run, Project.build_run]
  cases hpages : project.pages with
  | error problem => exact ⟨fun h => (nomatch h), fun h => (nomatch h.1)⟩
  | ok pages =>
    have foretells : (project.reportIn dialect true files pages).Foretells
        (project.reportIn dialect false files pages) :=
      Project.foretells_reportIn apart hpages writable
    change (checkTranscript isColored project (project.reportIn dialect true files pages)).status = 0 ↔
      (buildTranscript isVerbose isColored false project
          (project.reportIn dialect false files pages)).status = 0 ∧
        Emission.afterAll false files (project.emissionsIn dialect files pages) = files
    rw [status_checkTranscript, status_buildTranscript, foretells.isOk_eq, foretells.pending,
      Project.targets_written_eq_nil_iff apart hpages]

/-- Running a command in a folder is running it on the project there, if there is one and it is valid. -/
theorem runIn_run (request : Request) (folder : String) (command : Command) (files : FileMap) :
    (request.runIn readers folder isColored command : StateM FileMap Transcript).run files =
      match ((Project.load readers.settings folder :
          StateM FileMap (Except Problem Project)).run files).1 with
      | .error problem => (.ofProblem problem, files)
      | .ok project =>
        match project.settings.validate with
        | .error problem => (.ofProblem problem, files)
        | .ok () =>
          (runOn readers.markdown request.isVerbose isColored project command :
            StateM FileMap Transcript).run files := by
  rw [Request.runIn, (Project.keeps_load readers.settings folder).run_bind]
  cases ((Project.load readers.settings folder : StateM FileMap (Except Problem Project)).run files).1 with
  | error problem => rfl
  | ok project =>
    simp only
    cases project.settings.validate <;> rfl

/-- What is requested is run in the folder that is named, or else in the working folder. -/
theorem run_run (request : Request) (command : Command) (workingFolder : String) (noColor : Bool)
    (files : FileMap) :
    let inner := (request.runIn readers (request.root.getD workingFolder) (request.isColored noColor) command :
      StateM FileMap Transcript).run files
    let outer := (({ request with command := some command } : Request).run readers workingFolder noColor :
      StateM FileMap Transcript).run files
    outer.1.status = inner.1.status ∧ outer.2 = inner.2 := ⟨rfl, rfl⟩

/-- A dry run touches nothing and foretells the real run: it stops for the same problem, or what it has pending
is what the real run writes, in the same order, and all else that it reports is the same. So a check succeeds
exactly when a build in its place would succeed and change no file. This holds where writing succeeds, for
every project that keeps its artifacts apart from its sources, however documents and settings are read. -/
theorem check_iff_build (readers : Readers) (files : FileMap)
    (writable : ∀ place, files.isWritable place = true) :
    (∀ project : Project, project.KeepsApart files →
      let build := fun dryRun => (project.build readers.markdown dryRun :
        StateM FileMap (Except Problem BuildReport)).run files
      let dry := build true
      let real := build false
      dry.2 = files ∧ (∀ problem, dry.1 = .error problem ↔ real.1 = .error problem) ∧
        ∀ predicted, dry.1 = .ok predicted →
          ∃ report, real.1 = .ok report ∧ predicted.Foretells report) ∧
    ∀ (request : Request) (workingFolder : String) (noColor : Bool),
      (∀ project, ((Project.load readers.settings (request.root.getD workingFolder) :
        StateM FileMap (Except Problem Project)).run files).1 = .ok project →
          project.KeepsApart files) →
      let check := (({ request with command := some .check } : Request).run readers workingFolder noColor :
        StateM FileMap Transcript).run files
      let build := (({ request with command := some (.build false) } : Request).run readers workingFolder
        noColor : StateM FileMap Transcript).run files
      check.1.status = 0 ↔ build.1.status = 0 ∧ build.2 = files := by
  constructor
  · intro project apart build dry real
    refine ⟨project.keeps_build_true files, fun problem => ?_, fun predicted hpredicted => ?_⟩
    · have hdry := congrArg Prod.fst (Project.build_run readers.markdown true project files)
      have hreal := congrArg Prod.fst (Project.build_run readers.markdown false project files)
      cases hpages : project.pages with
      | error found =>
        rw [hpages] at hdry hreal
        rw [hdry, hreal]
      | ok pages =>
        rw [hpages] at hdry hreal
        rw [hdry, hreal]
        exact ⟨fun h => (nomatch h), fun h => (nomatch h)⟩
    · obtain ⟨pages, hpages, rfl, _⟩ := Project.spec_of_build (Prod.ext hpredicted rfl)
      refine ⟨project.reportIn readers.markdown false files pages, ?_,
        Project.foretells_reportIn apart hpages writable⟩
      have hreal := congrArg Prod.fst (Project.build_run readers.markdown false project files)
      rw [hpages] at hreal
      exact hreal
  · intro request workingFolder noColor apart check build
    obtain ⟨hcheck, _⟩ := run_run request .check workingFolder noColor files
    obtain ⟨hbuild, hafter⟩ := run_run request (.build false) workingFolder noColor files
    rw [hcheck, hbuild, hafter, runIn_run, runIn_run]
    cases hload : ((Project.load readers.settings (request.root.getD workingFolder) :
        StateM FileMap (Except Problem Project)).run files).1 with
    | error problem => exact ⟨fun h => (nomatch h), fun h => (nomatch h.1)⟩
    | ok project =>
      simp only
      cases project.settings.validate with
      | error problem => exact ⟨fun h => (nomatch h), fun h => (nomatch h.1)⟩
      | ok done => exact runOn_check_iff (apart project hload) writable

/-- A project in the working folder: settings that plan one chapter, and its page. -/
def oneChapter : FileMap where
  bytes? place :=
    if place = ["coursec.toml"] then
      some ("[[courses]]\ngroup = \"g\"\nsubject = \"math\"\ncourse_variant = \"v\"\n" ++
        "topics = [\x7b topic = \"a\", chapter = \"a\" \x7d]").toUTF8
    else if place = ["content", "math", "a", "chapters", "website.md"] then some "# A".toUTF8
    else none
  isReadable _ := true
  isWritable _ := true
  folder := []

/-- A check fails although nothing is wrong, because a build would still write. -/
theorem check_iff_build_oneChapter :
    let request : Request := ⟨none, none, false, false⟩
    let check := (({ request with command := some .check } : Request).run .standard "" true :
      StateM FileMap Transcript).run oneChapter
    let build := (({ request with command := some (.build false) } : Request).run .standard "" true :
      StateM FileMap Transcript).run oneChapter
    (∀ place, oneChapter.isWritable place = true) ∧
      (∀ project, ((Project.load Toml.parse? "" :
        StateM FileMap (Except Problem Project)).run oneChapter).1 = .ok project →
          project.KeepsApart oneChapter) ∧
      check.1.status = 1 ∧ build.1.status = 0 ∧ build.2 ≠ oneChapter := by
  intro request check build
  have writable : ∀ place, oneChapter.isWritable place = true := fun _ => rfl
  have apart : ∀ project, ((Project.load Toml.parse? "" :
      StateM FileMap (Except Problem Project)).run oneChapter).1 = .ok project →
        project.KeepsApart oneChapter := by
    intro project hload
    have hproject : ((Project.load Toml.parse? "" :
        StateM FileMap (Except Problem Project)).run oneChapter).1.toOption =
          some ⟨"", ⟨.standard, none, true, true, [.lessons "v" [⟨"a", "a"⟩] []]⟩⟩ := by
      decide +kernel
    rw [hload] at hproject
    obtain rfl := Option.some.inj hproject
    decide +kernel
  have hcheck : check.1.status = 1 := by decide +kernel
  have hbuild : build.1.status = 0 := by decide +kernel
  refine ⟨writable, apart, hcheck, hbuild, fun same => ?_⟩
  have hstatus := ((check_iff_build .standard oneChapter writable).2 request "" true apart).mpr ⟨hbuild, same⟩
  exact absurd (hcheck.symm.trans hstatus) (by decide)

end Cli
end Courseware
