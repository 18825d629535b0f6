import Courseware.Proofs.Except
import Courseware.Proofs.Files.Apart
import Courseware.Proofs.Project.Jobs

/-!
# What a build does

A build first looks at files only: it finds out the jobs, and compiles each of them from the text of its
source. What it then emits is given by the results. So a build that is stopped has written nothing, and one
that is not stopped carries out a list of emissions that is known from the files of the start. This is so in
any dialect of Markdown, which only decides what comes of a text.
-/

namespace Courseware.Project

variable {dialect : Markdown.Dialect} {project : Project} {files : FileMap} {job : Job}
  {pages : List Publication}

/-- The text of the source of a job, if it can be read. -/
def sourceText? (project : Project) (files : FileMap) (job : Job) : Option Text :=
  match files.read (Path.join project.folders.content job.source) with
  | .ok bytes => Text.ofBytes? bytes
  | .error _ => none

/-- What comes of a job. -/
def resultIn (dialect : Markdown.Dialect) (project : Project) (files : FileMap) (job : Job) :
    Except Problem DocumentTree :=
  job.compile dialect .standard (project.sourceText? files job)

/-- Whether the document of a job compiles. -/
def compilesIn (dialect : Markdown.Dialect) (project : Project) (files : FileMap) (job : Job) : Bool :=
  (project.resultIn dialect files job).isOk

/-- The jobs of a project, done. -/
def compilationsIn (dialect : Markdown.Dialect) (project : Project) (files : FileMap) : List Compilation :=
  (project.jobsIn files).map fun job => ⟨job, project.resultIn dialect files job⟩

/-- The emissions of the documents that compile. -/
def documentEmissionsIn (dialect : Markdown.Dialect) (project : Project) (files : FileMap) : List Emission :=
  (project.compilationsIn dialect files).filterMap (Compilation.emission? project.folders.generated)

/-- The emissions of the catalogue. -/
def catalogueEmissionsIn (dialect : Markdown.Dialect) (project : Project) (files : FileMap) : List Emission :=
  project.catalogueEmissions (project.courses (project.compilationsIn dialect files))

/-- The emissions of the pages whose sources do not fail to compile. -/
def pageEmissionsIn (dialect : Markdown.Dialect) (project : Project) (files : FileMap)
    (pages : List Publication) : List Emission :=
  project.pageEmissions pages
    ((Compilation.failures (project.compilationsIn dialect files)).map fun (job, _) => job.source)

/-- What a project emits that publishes some pages. -/
def emissionsIn (dialect : Markdown.Dialect) (project : Project) (files : FileMap)
    (pages : List Publication) : List Emission :=
  project.emissions pages (project.compilationsIn dialect files)

/-- What a build reports that publishes some pages. -/
def reportIn (dialect : Markdown.Dialect) (dryRun : Bool) (project : Project) (files : FileMap)
    (pages : List Publication) : BuildReport :=
  ⟨project.compilationsIn dialect files, project.courses (project.compilationsIn dialect files),
    Emission.recordsIn dryRun files (project.emissionsIn dialect files pages)⟩

/-! ## Running a build -/

theorem keeps_readText (path : String) : Keeps (readText path : StateM FileMap (Option Text)) := by
  apply (FileMap.keeps_read path).bind
  intro found
  cases found <;> exact Keeps.pure _

theorem compile_run (dialect : Markdown.Dialect) (project : Project) (files : FileMap) (job : Job) :
    (project.compile dialect job : StateM FileMap Compilation).run files =
      (⟨job, project.resultIn dialect files job⟩, files) := by
  have hread : ((readText (Path.join project.folders.content job.source) :
      StateM FileMap (Option Text)).run files).1 = project.sourceText? files job := by
    rw [readText, (FileMap.keeps_read _).run_bind, sourceText?]
    change ((match files.read (Path.join project.folders.content job.source) with
      | .ok bytes => pure (Text.ofBytes? bytes)
      | .error _ => pure none : StateM FileMap (Option Text)).run files).1 = _
    cases files.read (Path.join project.folders.content job.source) <;> rfl
  rw [compile, (keeps_readText _).run_bind, hread]
  rfl

/-- A build that is stopped has done nothing. Else it emits what comes of the files of the start. -/
theorem build_run (dialect : Markdown.Dialect) (dryRun : Bool) (project : Project) (files : FileMap) :
    (project.build dialect dryRun : StateM FileMap (Except Problem BuildReport)).run files =
      match project.pages with
      | .error problem => (.error problem, files)
      | .ok pages => (.ok (project.reportIn dialect dryRun files pages),
          Emission.afterAll dryRun files (project.emissionsIn dialect files pages)) := by
  rw [build]
  cases project.pages with
  | error problem => rfl
  | ok pages =>
    have keeps : ∀ job : Job, Keeps (project.compile dialect job : StateM FileMap Compilation) := by
      intro job state
      rw [compile_run]
    have hcompile := Keeps.run_mapM keeps (project.jobsIn files) files
    simp only [compile_run] at hcompile
    simp only
    rw [StateT.run_bind, jobs_run]
    change (((project.jobsIn files).mapM (project.compile dialect) >>= _ :
      StateM FileMap (Except Problem BuildReport))).run files = _
    rw [StateT.run_bind, hcompile]
    change ((Emission.runAll dryRun (project.emissionsIn dialect files pages) >>= fun records =>
      return .ok ⟨_, _, records⟩ : StateM FileMap (Except Problem BuildReport))).run files = _
    rw [StateT.run_bind, Emission.runAll_run]
    rfl

/-- The pages of a project are found when it is valid and its pages do not collide. -/
theorem spec_of_pages (h : project.pages = .ok pages) :
    project.settings.validate = .ok () ∧ Plan.pages project.settings.plans = .ok pages := by
  obtain ⟨_, valid, hpages⟩ := exists_of_bind_eq_ok h
  refine ⟨valid, ?_⟩
  cases hfound : Plan.pages project.settings.plans with
  | error collision =>
    rw [hfound] at hpages
    cases hpages
  | ok found =>
    rw [hfound] at hpages
    exact congrArg Except.ok (Except.ok.inj hpages)

/-- What has happened when a build was not stopped. -/
theorem spec_of_build {dryRun : Bool} {report : BuildReport} {after : FileMap}
    (h : (project.build dialect dryRun : StateM FileMap (Except Problem BuildReport)).run files =
      (.ok report, after)) :
    ∃ pages, project.pages = .ok pages ∧ report = project.reportIn dialect dryRun files pages ∧
      after = Emission.afterAll dryRun files (project.emissionsIn dialect files pages) := by
  rw [build_run] at h
  cases hpages : project.pages with
  | error problem =>
    rw [hpages] at h
    cases h
  | ok pages =>
    rw [hpages] at h
    obtain ⟨hreport, hafter⟩ := Prod.mk.inj h
    exact ⟨pages, rfl, (Except.ok.inj hreport).symm, hafter.symm⟩

/-! ## What compiled -/

/-- The documents that compiled, in the order of the jobs. -/
theorem compiled_compilationsIn :
    Compilation.compiled (project.compilationsIn dialect files) =
      ((project.jobsIn files).filter (project.compilesIn dialect files)).map Job.id := by
  rw [compilationsIn, Compilation.compiled, List.filterMap_map]
  induction project.jobsIn files with
  | nil => rfl
  | cons job rest ih =>
    rw [List.filterMap_cons, ih, List.filter_cons, compilesIn, Function.comp_apply]
    cases project.resultIn dialect files job <;> rfl

/-- The jobs that failed, in their order. -/
theorem failures_compilationsIn :
    (Compilation.failures (project.compilationsIn dialect files)).map Prod.fst =
      (project.jobsIn files).filter fun job => !project.compilesIn dialect files job := by
  rw [compilationsIn, Compilation.failures, List.filterMap_map]
  induction project.jobsIn files with
  | nil => rfl
  | cons job rest ih =>
    rw [List.filterMap_cons, List.filter_cons, ← ih, compilesIn, Function.comp_apply]
    cases project.resultIn dialect files job <;> rfl

/-- A source did not fail to compile when all its jobs have compiled. -/
theorem notMem_failures_iff {source : String} :
    source ∉ ((Compilation.failures (project.compilationsIn dialect files)).map
        fun (job, _) => job.source) ↔
      ∀ job ∈ project.jobsIn files, job.source = source → project.compilesIn dialect files job = true := by
  have hsources : ((Compilation.failures (project.compilationsIn dialect files)).map
      fun (job, _) => job.source) =
        ((project.jobsIn files).filter fun job => !project.compilesIn dialect files job).map Job.source := by
    rw [← failures_compilationsIn, List.map_map]
    rfl
  rw [hsources]
  simp only [List.mem_map, List.mem_filter, Bool.not_eq_true', not_exists, not_and, and_imp]
  constructor
  · intro h job hjob hsource
    by_contra hfails
    exact h job hjob (Bool.eq_false_iff.mpr hfails) hsource
  · intro h job hjob hfails hsource
    rw [h job hjob hsource] at hfails
    cases hfails

/-! ## What is emitted -/

/-- The documents that are emitted are those that compiled. -/
theorem mem_documentEmissionsIn_iff {emission : Emission} :
    emission ∈ project.documentEmissionsIn dialect files ↔
      ∃ job ∈ project.jobsIn files, ∃ tree, project.resultIn dialect files job = .ok tree ∧
        emission = .text (outputPath project.folders.generated job.id) tree.toJson.file := by
  rw [documentEmissionsIn, compilationsIn, List.filterMap_map, List.mem_filterMap]
  apply exists_congr
  intro job
  apply and_congr_right
  intro _
  rw [Function.comp_apply, Compilation.emission?]
  cases project.resultIn dialect files job with
  | error problem => exact ⟨fun h => (nomatch h), fun ⟨_, h, _⟩ => (nomatch h)⟩
  | ok tree =>
    constructor
    · exact fun h => ⟨tree, rfl, (Option.some.inj h).symm⟩
    · rintro ⟨_, hsame, rfl⟩
      rw [Except.ok.inj hsame]

/-- The pages that are published are those whose sources did not fail to compile. -/
theorem mem_pageEmissionsIn_iff {emission : Emission} :
    emission ∈ project.pageEmissionsIn dialect files pages ↔
      project.settings.publishes = true ∧ ∃ page ∈ pages,
        (∀ job ∈ project.jobsIn files, job.source = page.source →
          project.compilesIn dialect files job = true) ∧
        emission = .copy (Path.join project.folders.website page.target)
          (Path.join project.folders.content page.source) := by
  simp only [← notMem_failures_iff, pageEmissionsIn, pageEmissions]
  split
  · next publishes =>
    simp only [publishes, true_and, List.mem_map, List.mem_filter, Bool.not_eq_true',
      List.contains_eq_mem, decide_eq_false_iff_not, and_assoc, @eq_comm _ _ emission]
  · next publishes => simp [publishes]

theorem emissionsIn_eq :
    project.emissionsIn dialect files pages =
      project.documentEmissionsIn dialect files ++
        (project.catalogueEmissionsIn dialect files ++ project.pageEmissionsIn dialect files pages) :=
  List.append_assoc _ _ _

/-! ## What is looked at -/

/-- The jobs that the plans ask for if every chapter has slides. -/
def plannedJobs (project : Project) : List Job :=
  project.settings.plans.flatMap (Job.ofPlan fun _ => true)

/-- The paths of the sources that the plans name: of every chapter the page and the slides, and of every
current worksheet. -/
def sourcePaths (project : Project) : List String :=
  project.plannedJobs.map fun job => Path.join project.folders.content job.source

theorem mem_plannedJobs_of_mem_jobsIn (h : job ∈ project.jobsIn files) : job ∈ project.plannedJobs := by
  obtain ⟨plan, listed, hasked⟩ := (Job.spec_of_ofPlans _ _).2.1 job h
  refine List.mem_flatMap.mpr ⟨plan, listed, Job.mem_ofPlan_iff.mpr ?_⟩
  rcases Job.mem_ofPlan_iff.mp hasked with page | ⟨ref, planned, _, hjob⟩ | worksheet
  · exact .inl page
  · exact .inr (.inl ⟨ref, planned, rfl, hjob⟩)
  · exact .inr (.inr worksheet)

theorem mem_sourcePaths_of_mem_jobsIn (h : job ∈ project.jobsIn files) :
    Path.join project.folders.content job.source ∈ project.sourcePaths :=
  List.mem_map_of_mem (mem_plannedJobs_of_mem_jobsIn h)

/-- The slides that are looked for are sources. -/
theorem mem_sourcePaths_of_mem_slidesSources {source : String}
    (h : source ∈ project.settings.slidesSources) :
    Path.join project.folders.content source ∈ project.sourcePaths := by
  rw [Settings.slidesSources] at h
  split at h
  · obtain ⟨plan, listed, hslides⟩ := List.mem_flatMap.mp h
    obtain ⟨ref, planned, rfl⟩ := List.mem_map.mp hslides
    have hjob : (⟨plan.slidesSource ref, .slides, .ofChapter plan ref⟩ : Job) ∈
        Job.ofPlan (fun _ => true) plan :=
      Job.mem_ofPlan_iff.mpr (.inr (.inl ⟨ref, planned, rfl, rfl⟩))
    exact List.mem_map.mpr ⟨_, List.mem_flatMap.mpr ⟨plan, listed, hjob⟩, rfl⟩
  · exact absurd h List.not_mem_nil

variable {other : FileMap}

/-- Which jobs there are depends on which sources there are. -/
theorem jobsIn_eq (alike : FileMap.Alike files other)
    (same : ∀ source ∈ project.sourcePaths, (other.bytes? (files.placeOf source)).isSome =
      (files.bytes? (files.placeOf source)).isSome) :
    project.jobsIn other = project.jobsIn files := by
  have hslides : project.slidesIn other = project.slidesIn files := by
    apply List.filter_congr
    intro source hsource
    rw [FileMap.isFile, FileMap.isFile, alike.placeOf_eq,
      same _ (mem_sourcePaths_of_mem_slidesSources hsource)]
  rw [jobsIn, jobsIn, hslides]

/-- What comes of a job depends on its source. -/
theorem resultIn_eq (alike : FileMap.Alike files other)
    (same : other.bytes? (files.placeOf (Path.join project.folders.content job.source)) =
      files.bytes? (files.placeOf (Path.join project.folders.content job.source))) :
    project.resultIn dialect other job = project.resultIn dialect files job := by
  rw [resultIn, resultIn, sourceText?, sourceText?, alike.read_eq same]

/-- What a build compiles depends on the sources. -/
theorem compilationsIn_eq (alike : FileMap.Alike files other)
    (same : ∀ source ∈ project.sourcePaths,
      other.bytes? (files.placeOf source) = files.bytes? (files.placeOf source)) :
    project.compilationsIn dialect other = project.compilationsIn dialect files := by
  have hjobs : project.jobsIn other = project.jobsIn files :=
    jobsIn_eq alike fun source hsource => congrArg Option.isSome (same source hsource)
  rw [compilationsIn, compilationsIn, hjobs]
  apply List.map_congr_left
  intro job hjob
  rw [resultIn_eq alike (same _ (mem_sourcePaths_of_mem_jobsIn hjob))]

end Courseware.Project
