import Mathlib.Data.String.Basic
import Courseware.Files.Map
import Courseware.Project.Build
import Courseware.Proofs.Course.Keys
import Courseware.Proofs.Course.Validity
import Courseware.Proofs.Files.Map

/-!
# The jobs of valid plans

Jobs are taken up by their sources, while what they compile is put where their ids say. The two agree for
valid plans, because a source and an id are both made of what the document is known by (`DocumentKey`). So
each document that the plans call for has one job and one file, and which jobs there are does not depend on
the order of the plans.
-/

namespace Courseware

namespace Job

variable {job other : Job} {jobs : List Job}

/-! ## Taking up jobs -/

/-- Whether jobs are ordered by their sources, each source once. -/
def Ordered (jobs : List Job) : Prop := jobs.Pairwise fun first second => first.source < second.source

theorem Ordered.nodup_source (ordered : Ordered jobs) : (jobs.map source).Nodup :=
  List.pairwise_map.mpr (ordered.imp fun hless => ne_of_lt hless)

/-- A source has one job. -/
theorem Ordered.eq_of_source_eq (ordered : Ordered jobs) (hjob : job ∈ jobs) (hother : other ∈ jobs)
    (h : job.source = other.source) : job = other :=
  List.inj_on_of_nodup_map ordered.nodup_source hjob hother h

theorem mem_or_eq_of_mem_insert (h : other ∈ insert job jobs) : other ∈ jobs ∨ other = job := by
  induction jobs with
  | nil => exact .inr (List.mem_singleton.mp h)
  | cons first rest ih =>
    rw [insert] at h
    split at h
    · rcases List.mem_cons.mp h with rfl | h
      · exact .inr rfl
      · exact .inl h
    · split at h
      · exact .inl h
      · rcases List.mem_cons.mp h with rfl | h
        · exact .inl List.mem_cons_self
        · exact (ih h).imp_left (List.mem_cons_of_mem first)

theorem subset_insert : jobs ⊆ insert job jobs := by
  induction jobs with
  | nil => exact List.nil_subset _
  | cons first rest ih =>
    rw [insert]
    split
    · exact List.subset_cons_self _ _
    · split
      · exact List.Subset.refl _
      · exact List.cons_subset_cons first ih

/-- After a job has been taken up, its source has a job. -/
theorem exists_mem_insert (job : Job) (jobs : List Job) :
    ∃ taken ∈ insert job jobs, taken.source = job.source := by
  induction jobs with
  | nil => exact ⟨job, List.mem_singleton_self job, rfl⟩
  | cons first rest ih =>
    rw [insert]
    split
    · exact ⟨job, List.mem_cons_self, rfl⟩
    · split
      · next h => exact ⟨first, List.mem_cons_self, h.symm⟩
      · obtain ⟨taken, htaken, hsource⟩ := ih
        exact ⟨taken, List.mem_cons_of_mem _ htaken, hsource⟩

theorem Ordered.insert (ordered : Ordered jobs) (job : Job) : Ordered (insert job jobs) := by
  induction jobs with
  | nil => exact List.pairwise_singleton _ _
  | cons first rest ih =>
    obtain ⟨hfirst, hrest⟩ := List.pairwise_cons.mp ordered
    rw [Job.insert]
    split
    · next hless =>
      refine List.pairwise_cons.mpr ⟨?_, ordered⟩
      exact List.forall_mem_cons.mpr ⟨hless, fun later h => hless.trans (hfirst later h)⟩
    · next hnotLess =>
      split
      · exact ordered
      · next hne =>
        refine List.pairwise_cons.mpr ⟨?_, ih hrest⟩
        intro later hlater
        rcases mem_or_eq_of_mem_insert hlater with hlater | rfl
        · exact hfirst later hlater
        · exact lt_of_le_of_ne (not_lt.mp hnotLess) (Ne.symm hne)

/-- When jobs have been taken up one after the other, they are ordered, each of them was asked for, and every
source that was asked for has one. -/
theorem spec_of_foldl_insert (requests : List Job) (ordered : Ordered jobs) :
    let taken := requests.foldl (fun jobs job => insert job jobs) jobs
    Ordered taken ∧ jobs ⊆ taken ∧ taken ⊆ jobs ++ requests ∧
      ∀ request ∈ requests, ∃ job ∈ taken, job.source = request.source := by
  induction requests generalizing jobs with
  | nil =>
    exact ⟨ordered, List.Subset.refl _, List.subset_append_left _ _,
      fun request h => absurd h List.not_mem_nil⟩
  | cons request rest ih =>
    obtain ⟨hordered, hkept, hasked, hsources⟩ := ih (ordered.insert request)
    refine ⟨hordered, List.Subset.trans subset_insert hkept, ?_, ?_⟩
    · intro job hjob
      rcases List.mem_append.mp (hasked hjob) with hjob | hjob
      · rcases mem_or_eq_of_mem_insert hjob with hjob | rfl
        · exact List.mem_append_left _ hjob
        · exact List.mem_append_right _ List.mem_cons_self
      · exact List.mem_append_right _ (List.mem_cons_of_mem _ hjob)
    · refine List.forall_mem_cons.mpr ⟨?_, hsources⟩
      obtain ⟨job, hjob, hsource⟩ := exists_mem_insert request jobs
      exact ⟨job, hkept hjob, hsource⟩

/-- The jobs of plans are ordered, each of them was asked for by a plan, and every source that a plan asks
for has one. -/
theorem spec_of_ofPlans (hasSlides : String → Bool) (plans : List Plan) :
    Ordered (ofPlans hasSlides plans) ∧
      (∀ job ∈ ofPlans hasSlides plans, ∃ plan ∈ plans, job ∈ ofPlan hasSlides plan) ∧
      ∀ plan ∈ plans, ∀ request ∈ ofPlan hasSlides plan,
        ∃ job ∈ ofPlans hasSlides plans, job.source = request.source := by
  have hnone : Ordered [] := List.Pairwise.nil
  obtain ⟨hordered, _, hasked, hsources⟩ :=
    spec_of_foldl_insert (plans.flatMap (ofPlan hasSlides)) hnone
  refine ⟨hordered, ?_, ?_⟩
  · intro job hjob
    exact List.mem_flatMap.mp (hasked hjob)
  · intro plan hplan request hrequest
    exact hsources request (List.mem_flatMap.mpr ⟨plan, hplan, hrequest⟩)

/-! ## What a job is about -/

/-- Whether a job is to compile the document that is known by a key. -/
structure Concerns (job : Job) (key : DocumentKey) : Prop where
  sound : key.Sound
  context : job.context = key.context
  id : job.id = key.id
  source : Path.parts job.source = key.sourceParts

variable {key otherKey : DocumentKey}

theorem Concerns.source_eq_iff (concerns : job.Concerns key) (otherConcerns : other.Concerns otherKey) :
    job.source = other.source ↔ key = otherKey := by
  rw [← Path.parts_inj, concerns.source, otherConcerns.source, DocumentKey.sourceParts_inj]

theorem Concerns.id_eq_iff (concerns : job.Concerns key) (otherConcerns : other.Concerns otherKey) :
    job.id = other.id ↔ key = otherKey := by
  have hparts : ∀ {key : DocumentKey}, key.Sound → Path.parts key.id = key.idParts [] := by
    intro key sound
    rw [← String.append_empty (s := key.id)]
    exact sound.parts_id_append List.not_mem_nil
  rw [concerns.id, otherConcerns.id, ← Path.parts_inj, hparts concerns.sound,
    hparts otherConcerns.sound, DocumentKey.idParts_inj]

/-- The names that lead from the folder of the compiled documents to the file of a document. -/
theorem Concerns.parts_output (concerns : job.Concerns key) :
    Path.parts s!"{job.id}.json" = key.idParts ".json".toList := by
  rw [concerns.id]
  exact concerns.sound.parts_id_append (by decide)

theorem Concerns.isPlain_output (concerns : job.Concerns key) : Path.IsPlain s!"{job.id}.json" := by
  rw [Path.IsPlain, concerns.parts_output]
  exact concerns.sound.isName_idParts _

/-- The source of a document is made of names. -/
theorem Concerns.isPlain_source (concerns : job.Concerns key) : Path.IsPlain job.source := by
  rw [Path.IsPlain, concerns.source]
  exact concerns.sound.isName_sourceParts

variable {plan : Plan} {hasSlides : String → Bool}

theorem concerns_page (sound : plan.Sound) {ref : ChapterRef} (planned : ref ∈ plan.chapters) :
    Concerns ⟨plan.pageSource ref, .page, .ofChapter plan ref⟩
      ⟨plan.subject, ref.topic, ref.chapter, .page⟩ := by
  obtain ⟨htopic, hchapter⟩ := sound.named ref planned
  refine ⟨⟨sound.subject, htopic, hchapter, fun _ h => nomatch h⟩, rfl, rfl, ?_⟩
  rw [Plan.pageSource, Plan.parts_chapterFile sound planned (by decide)]
  simp [DocumentKey.sourceParts, DocumentKey.fileParts, DocumentKey.folder, ChapterRef.isIndex]

theorem concerns_slides (sound : plan.Sound) {ref : ChapterRef} (planned : ref ∈ plan.chapters) :
    Concerns ⟨plan.slidesSource ref, .slides, .ofChapter plan ref⟩
      ⟨plan.subject, ref.topic, ref.chapter, .slides⟩ := by
  obtain ⟨htopic, hchapter⟩ := sound.named ref planned
  refine ⟨⟨sound.subject, htopic, hchapter, fun _ h => nomatch h⟩, rfl, rfl, ?_⟩
  rw [Plan.slidesSource, Plan.parts_chapterFile sound planned (by decide)]
  simp [DocumentKey.sourceParts, DocumentKey.fileParts, DocumentKey.folder, ChapterRef.isIndex]

theorem concerns_worksheet (sound : plan.Sound) {sheet : WorksheetRef}
    (current : sheet ∈ plan.worksheets) :
    Concerns (ofWorksheet plan sheet)
      ⟨plan.subject, sheet.topic, sheet.chapter, .worksheet sheet.worksheet⟩ := by
  obtain ⟨hsheet, hplanned⟩ := sound.planned sheet current
  obtain ⟨htopic, hchapter⟩ := sound.named sheet.chapterRef hplanned
  refine ⟨⟨sound.subject, htopic, hchapter, fun _ h => ChapterPart.worksheet.inj h ▸ hsheet⟩, rfl,
    rfl, ?_⟩
  exact Plan.parts_worksheetSource sound current

/-- The jobs that a plan asks for are the pages of its chapters, the slides that there are, and its
worksheets. -/
theorem mem_ofPlan_iff :
    job ∈ ofPlan hasSlides plan ↔
      (∃ ref ∈ plan.chapters, job = ⟨plan.pageSource ref, .page, .ofChapter plan ref⟩) ∨
      (∃ ref ∈ plan.chapters, hasSlides (plan.slidesSource ref) = true ∧
        job = ⟨plan.slidesSource ref, .slides, .ofChapter plan ref⟩) ∨
      ∃ sheet ∈ plan.worksheets, job = ofWorksheet plan sheet := by
  have hchapter : ∀ ref, job ∈ ofChapter hasSlides plan ref ↔
      job = ⟨plan.pageSource ref, .page, .ofChapter plan ref⟩ ∨
        hasSlides (plan.slidesSource ref) = true ∧
          job = ⟨plan.slidesSource ref, .slides, .ofChapter plan ref⟩ := by
    intro ref
    rw [ofChapter, List.mem_cons]
    split <;> simp_all
  simp only [ofPlan, List.mem_append, List.mem_flatMap, List.mem_map, hchapter, and_or_left,
    exists_or, or_assoc, @eq_comm _ _ job]

/-- Every job that a sound plan asks for is about a document with a sound key. -/
theorem exists_concerns (sound : plan.Sound) (h : job ∈ ofPlan hasSlides plan) :
    ∃ key, job.Concerns key := by
  rcases mem_ofPlan_iff.mp h with ⟨ref, planned, rfl⟩ | ⟨ref, planned, _, rfl⟩ |
    ⟨sheet, current, rfl⟩
  · exact ⟨_, concerns_page sound planned⟩
  · exact ⟨_, concerns_slides sound planned⟩
  · exact ⟨_, concerns_worksheet sound current⟩

/-- A document is compiled to a file below the folder of the compiled documents. -/
theorem Concerns.placeOf_outputPath (concerns : job.Concerns key) (files : FileMap) (folder : String) :
    files.placeOf (outputPath folder job.id) =
      files.placeOf folder ++ (key.idParts ".json".toList).map String.ofList := by
  rw [← concerns.parts_output]
  exact Path.placeFrom_join concerns.isPlain_output

/-- Documents that are known by different keys are compiled to files in different places. -/
theorem Concerns.placeOf_outputPath_ne (concerns : job.Concerns key)
    (otherConcerns : other.Concerns otherKey) (hne : key ≠ otherKey) (files : FileMap)
    (folder : String) :
    files.placeOf (outputPath folder job.id) ≠ files.placeOf (outputPath folder other.id) := by
  rw [concerns.placeOf_outputPath, otherConcerns.placeOf_outputPath]
  intro h
  have hparts := (List.map_inj_right fun _ _ h => String.ofList_injective h).mp
    (List.append_cancel_left h)
  exact hne (DocumentKey.idParts_inj.mp hparts)

/-- No document is compiled to a path of fewer than three names. -/
theorem Concerns.placeOf_outputPath_ne_join (concerns : job.Concerns key) {path : String}
    (plain : Path.IsPlain path) (short : (Path.names path).length < 3) (files : FileMap)
    (folder : String) :
    files.placeOf (outputPath folder job.id) ≠ files.placeOf (Path.join folder path) := by
  intro h
  have hlong := key.three_le_length_idParts ".json".toList
  rw [concerns.placeOf_outputPath, FileMap.placeOf, FileMap.placeOf, Path.placeFrom_join plain] at h
  have hlength := congrArg List.length (List.append_cancel_left h)
  rw [List.length_map] at hlength
  omega

end Job

/-! ## The jobs of a project -/

/-- What the plans of a project call for: the page of every planned chapter, its slides when slides are
asked for and there are any, and every current worksheet. Each has a source, a context and an id. -/
inductive Project.CallsFor (project : Project) (files : FileMap) : String → Context → String → Prop
  | page {plan : Plan} {ref : ChapterRef} (listed : plan ∈ project.settings.plans)
      (planned : ref ∈ plan.chapters) :
      CallsFor project files (plan.pageSource ref) .page
        s!"{plan.subject}/{ref.topic}/{ref.chapter}"
  | slides {plan : Plan} {ref : ChapterRef} (listed : plan ∈ project.settings.plans)
      (planned : ref ∈ plan.chapters) (asked : project.settings.withSlides = true)
      (present : files.isFile (Path.join project.folders.content (plan.slidesSource ref)) = true) :
      CallsFor project files (plan.slidesSource ref) .slides
        s!"{plan.subject}/{ref.topic}/{ref.chapter}/slides"
  | worksheet {plan : Plan} {sheet : WorksheetRef} (listed : plan ∈ project.settings.plans)
      (current : sheet ∈ plan.worksheets) :
      CallsFor project files (plan.worksheetSource sheet) .worksheet
        s!"{plan.subject}/{sheet.topic}/{sheet.chapter}/worksheets/{sheet.worksheet}"

/-- Settings are valid when they do not ask for no threads, and when the plans are valid. -/
theorem Settings.validate_eq_ok_iff {settings : Settings} :
    settings.validate = .ok () ↔ settings.threads ≠ some 0 ∧ Plan.validate settings.plans = .ok () := by
  rw [validate]
  split
  · next hnone => simp [hnone]
  · next hsome =>
    cases Plan.validate settings.plans with
    | error report => simp [Except.mapError]
    | ok done => simp [Except.mapError, hsome]

namespace Project

variable {project : Project} {files : FileMap}

/-- The slides that the plans may call for and that are there. -/
def slidesIn (project : Project) (files : FileMap) : List String :=
  project.settings.slidesSources.filter fun source =>
    files.isFile (Path.join project.folders.content source)

/-- Finding out the jobs of a project changes no file. -/
theorem jobs_run (project : Project) (files : FileMap) :
    (project.jobs : StateM FileMap (List Job)).run files =
      (Job.ofPlans (project.slidesIn files).contains project.settings.plans, files) := by
  have keeps : ∀ source : String, Keeps (FileAccess.isFile
      (Path.join project.folders.content source) : StateM FileMap Bool) :=
    fun source => FileMap.keeps_isFile _
  have hrun := Keeps.run_filterM keeps project.settings.slidesSources files
  have hkeeps : Keeps (project.settings.slidesSources.filterM fun source =>
      (FileAccess.isFile (Path.join project.folders.content source) : StateM FileMap Bool)) := by
    intro state
    rw [Keeps.run_filterM keeps]
  rw [jobs, hkeeps.run_bind, hrun]
  rfl

theorem mem_slidesIn_iff {source : String} :
    source ∈ project.slidesIn files ↔
      project.settings.withSlides = true ∧
        (∃ plan ∈ project.settings.plans, ∃ ref ∈ plan.chapters, plan.slidesSource ref = source) ∧
        files.isFile (Path.join project.folders.content source) = true := by
  rw [slidesIn, List.mem_filter, Settings.slidesSources]
  split <;> simp_all

/-- What a plan asks for is called for. -/
theorem callsFor_of_mem_ofPlan {plan : Plan} (listed : plan ∈ project.settings.plans) {job : Job}
    (h : job ∈ Job.ofPlan (project.slidesIn files).contains plan) :
    project.CallsFor files job.source job.context job.id := by
  rcases Job.mem_ofPlan_iff.mp h with ⟨ref, planned, rfl⟩ | ⟨ref, planned, hslides, rfl⟩ |
    ⟨sheet, current, rfl⟩
  · exact .page listed planned
  · obtain ⟨asked, _, present⟩ := mem_slidesIn_iff.mp (List.contains_iff_mem.mp hslides)
    exact .slides listed planned asked present
  · exact .worksheet listed current

/-- What is called for is asked for by a plan. -/
theorem exists_mem_ofPlan {source id : String} {context : Context}
    (calls : project.CallsFor files source context id) :
    ∃ plan ∈ project.settings.plans, ∃ job ∈ Job.ofPlan (project.slidesIn files).contains plan,
      job.source = source ∧ job.context = context ∧ job.id = id := by
  cases calls with
  | page listed planned =>
    exact ⟨_, listed, _, Job.mem_ofPlan_iff.mpr (.inl ⟨_, planned, rfl⟩), rfl, rfl, rfl⟩
  | slides listed planned asked present =>
    have hslides := List.contains_iff_mem.mpr
      (mem_slidesIn_iff.mpr ⟨asked, ⟨_, listed, _, planned, rfl⟩, present⟩)
    exact ⟨_, listed, _, Job.mem_ofPlan_iff.mpr (.inr (.inl ⟨_, planned, hslides, rfl⟩)), rfl, rfl,
      rfl⟩
  | worksheet listed current =>
    exact ⟨_, listed, _, Job.mem_ofPlan_iff.mpr (.inr (.inr ⟨_, current, rfl⟩)), rfl, rfl, rfl⟩

/-- The jobs of a project, by the files that are there. -/
def jobsIn (project : Project) (files : FileMap) : List Job :=
  Job.ofPlans (project.slidesIn files).contains project.settings.plans

theorem ordered_jobsIn (project : Project) (files : FileMap) : Job.Ordered (project.jobsIn files) :=
  (Job.spec_of_ofPlans _ _).1

/-- What is called for depends on which plans there are, not on their order. -/
theorem CallsFor.of_subset {plans : List Plan} (h : project.settings.plans ⊆ plans)
    {source id : String} {context : Context} (calls : project.CallsFor files source context id) :
    ({ project with settings := { project.settings with plans := plans } } : Project).CallsFor files
      source context id := by
  cases calls with
  | page listed planned => exact .page (h listed) planned
  | slides listed planned asked present => exact .slides (h listed) planned asked present
  | worksheet listed current => exact .worksheet (h listed) current

section Valid

variable (valid : project.settings.validate = .ok ())

include valid

theorem sound_of_validate {plan : Plan} (listed : plan ∈ project.settings.plans) : plan.Sound :=
  (Plan.validate_eq_ok_iff.mp (Settings.validate_eq_ok_iff.mp valid).2).1 plan listed

/-- Every job of a valid project is about a document with a sound key. -/
theorem exists_concerns {job : Job} (hjob : job ∈ project.jobsIn files) :
    ∃ key, job.Concerns key := by
  obtain ⟨plan, listed, hasked⟩ := (Job.spec_of_ofPlans _ _).2.1 job hjob
  exact Job.exists_concerns (sound_of_validate valid listed) hasked

/-- The jobs of a valid project are what the plans call for. -/
theorem mem_jobsIn_iff {source id : String} {context : Context} :
    (∃ job ∈ project.jobsIn files, job.source = source ∧ job.context = context ∧ job.id = id) ↔
      project.CallsFor files source context id := by
  obtain ⟨_, hasked, hsources⟩ :=
    Job.spec_of_ofPlans (project.slidesIn files).contains project.settings.plans
  constructor
  · rintro ⟨job, hjob, rfl, rfl, rfl⟩
    obtain ⟨plan, listed, h⟩ := hasked job hjob
    exact callsFor_of_mem_ofPlan listed h
  · intro calls
    obtain ⟨plan, listed, request, hrequest, rfl, rfl, rfl⟩ := exists_mem_ofPlan calls
    obtain ⟨job, hjob, hsource⟩ := hsources plan listed request hrequest
    obtain ⟨key, concerns⟩ := exists_concerns valid hjob
    obtain ⟨otherKey, otherConcerns⟩ :=
      Job.exists_concerns (sound_of_validate valid listed) hrequest
    obtain rfl := (concerns.source_eq_iff otherConcerns).mp hsource
    exact ⟨job, hjob, hsource, concerns.context.trans otherConcerns.context.symm,
      concerns.id.trans otherConcerns.id.symm⟩

/-- Different jobs of a valid project are about different documents. -/
theorem pairwise_jobsIn {relation : Job → Job → Prop}
    (h : ∀ first second key otherKey, first.Concerns key → second.Concerns otherKey →
      key ≠ otherKey → relation first second) :
    (project.jobsIn files).Pairwise relation := by
  apply (ordered_jobsIn project files).imp_of_mem
  intro first second hfirst hsecond hless
  obtain ⟨key, concerns⟩ := exists_concerns valid hfirst
  obtain ⟨otherKey, otherConcerns⟩ := exists_concerns valid hsecond
  apply h first second key otherKey concerns otherConcerns
  rintro rfl
  rw [(concerns.source_eq_iff otherConcerns).mpr rfl] at hless
  exact lt_irrefl _ hless

/-- Which jobs there are, and in which order, depends on what is called for only. -/
theorem map_jobsIn_eq {other : Project} (otherValid : other.settings.validate = .ok ())
    (same : ∀ source context id, project.CallsFor files source context id ↔
      other.CallsFor files source context id) :
    (project.jobsIn files).map (fun job => (job.source, job.context, job.id)) =
      (other.jobsIn files).map fun job => (job.source, job.context, job.id) := by
  have hordered : ∀ project : Project,
      ((project.jobsIn files).map fun job => (job.source, job.context, job.id)).Pairwise
        fun first second => first.1 < second.1 := by
    intro project
    exact List.pairwise_map.mpr (ordered_jobsIn project files)
  have hnodup : ∀ project : Project,
      ((project.jobsIn files).map fun job => (job.source, job.context, job.id)).Nodup := by
    intro project
    apply (hordered project).imp
    rintro first second hless rfl
    exact lt_irrefl _ hless
  apply List.Perm.eq_of_pairwise _ (hordered project) (hordered other)
  · rw [List.perm_ext_iff_of_nodup (hnodup project) (hnodup other)]
    rintro ⟨source, context, id⟩
    simpa [List.mem_map] using
      (mem_jobsIn_iff valid).trans ((same source context id).trans (mem_jobsIn_iff otherValid).symm)
  · intro first second _ _ hless hgreater
    exact absurd (hless.trans hgreater) (lt_irrefl _)

/-- A valid project is valid with its plans in any order. -/
theorem validate_of_perm {plans : List Plan} (perm : plans.Perm project.settings.plans) :
    ({ project.settings with plans := plans } : Settings).validate = .ok () := by
  obtain ⟨hthreads, hplans⟩ := Settings.validate_eq_ok_iff.mp valid
  obtain ⟨sound, hids⟩ := Plan.validate_eq_ok_iff.mp hplans
  refine Settings.validate_eq_ok_iff.mpr ⟨hthreads, Plan.validate_eq_ok_iff.mpr ⟨?_, ?_⟩⟩
  · exact fun plan hplan => sound plan (perm.subset hplan)
  · exact (perm.map Plan.id).nodup_iff.mpr hids

end Valid

/-- The jobs of a valid project are ordered by their sources. There is exactly one for each document that the
plans call for, with the context and the id that belong to it, and none besides. No two jobs have one id. Each
is compiled to a file of its own, which is none of the files of the catalogue, and which lies below the
generated folder: each component of the path to it from there is a name. Which sources, contexts and ids there
are, and in which order, does not depend on the order of the plans. -/
theorem jobs_one_for_each (project : Project) (files : FileMap)
    (valid : project.settings.validate = .ok ()) :
    let jobs := ((project.jobs : StateM FileMap (List Job)).run files).1
    let output := fun job : Job => outputPath project.folders.generated job.id
    jobs.Pairwise (fun first second => first.source < second.source) ∧
    (∀ job ∈ jobs, project.CallsFor files job.source job.context job.id) ∧
    (∀ source context id, project.CallsFor files source context id →
      ∃ job ∈ jobs, (job.source = source ∧ job.context = context ∧ job.id = id) ∧
        ∀ other ∈ jobs, other.source = source → other = job) ∧
    jobs.Pairwise (fun first second => first.id ≠ second.id) ∧
    jobs.Pairwise (fun first second => files.placeOf (output first) ≠ files.placeOf (output second)) ∧
    (∀ job ∈ jobs, ∀ path ∈ ["config/courses.json", "navbar.config.json", "worksheets.json"],
      files.placeOf (output job) ≠ files.placeOf (Path.join project.folders.generated path)) ∧
    (∀ job ∈ jobs,
      (∀ part ∈ Path.parts s!"{job.id}.json", part ≠ [] ∧ part ≠ ['.'] ∧ part ≠ ['.', '.']) ∧
      files.placeOf (output job) = files.placeOf project.folders.generated ++
        (Path.parts s!"{job.id}.json").map String.ofList) ∧
    ∀ plans : List Plan, plans.Perm project.settings.plans →
      let other : Project := { project with settings := { project.settings with plans := plans } }
      (((other.jobs : StateM FileMap (List Job)).run files).1.map fun job =>
        (job.source, job.context, job.id)) = jobs.map fun job => (job.source, job.context, job.id) := by
  intro jobs output
  have hjobs : jobs = project.jobsIn files := congrArg Prod.fst (jobs_run project files)
  have ordered := ordered_jobsIn project files
  rw [hjobs]
  refine ⟨ordered, ?_, ?_, ?_, ?_, ?_, ?_, ?_⟩
  · intro job hjob
    exact (mem_jobsIn_iff valid).mp ⟨job, hjob, rfl, rfl, rfl⟩
  · intro source context id calls
    obtain ⟨job, hjob, hsame⟩ := (mem_jobsIn_iff valid).mpr calls
    refine ⟨job, hjob, hsame, fun other hother h => ?_⟩
    exact ordered.eq_of_source_eq hother hjob (h.trans hsame.1.symm)
  · apply pairwise_jobsIn valid
    intro first second key otherKey concerns otherConcerns hne hid
    exact hne ((concerns.id_eq_iff otherConcerns).mp hid)
  · apply pairwise_jobsIn valid
    intro first second key otherKey concerns otherConcerns hne
    exact concerns.placeOf_outputPath_ne otherConcerns hne files _
  · intro job hjob path hpath
    obtain ⟨key, concerns⟩ := exists_concerns valid hjob
    have hcatalogue : ∀ path ∈ ["config/courses.json", "navbar.config.json", "worksheets.json"],
        Path.IsPlain path ∧ (Path.names path).length < 3 := by decide
    obtain ⟨plain, hshort⟩ := hcatalogue path hpath
    exact concerns.placeOf_outputPath_ne_join plain hshort files _
  · intro job hjob
    obtain ⟨key, concerns⟩ := exists_concerns valid hjob
    exact ⟨concerns.isPlain_output, Path.placeFrom_join concerns.isPlain_output⟩
  · intro plans perm other
    have hother : ((other.jobs : StateM FileMap (List Job)).run files).1 = other.jobsIn files :=
      congrArg Prod.fst (jobs_run other files)
    have otherValid : other.settings.validate = .ok () := validate_of_perm valid perm
    rw [hother]
    apply map_jobsIn_eq otherValid valid
    intro source context id
    constructor
    · exact fun calls => calls.of_subset perm.subset
    · exact fun calls => calls.of_subset perm.symm.subset

/-- Two courses that share a chapter, with slides for one of the chapters. -/
def sharedLessons : Project where
  root := "p"
  settings := ⟨.standard, none, true, true,
    [.lessons "v" [⟨"a", "a"⟩, ⟨"a", "b"⟩] [⟨"a", "b", "x"⟩], .lessons "w" [⟨"a", "a"⟩] []]⟩

/-- The only file of the two courses: the slides of the chapter that they share. -/
def sharedSlides : FileMap where
  bytes? place :=
    if place = ["p", "content", "math", "a", "chapters", "slides.md"] then some ByteArray.empty else none
  isReadable _ := true
  isWritable _ := true
  folder := []

/-- The shared chapter is compiled once, with its slides. -/
theorem jobs_one_for_each_shared :
    sharedLessons.settings.validate = .ok () ∧
      ((sharedLessons.jobs : StateM FileMap (List Job)).run sharedSlides).1.map Job.source =
        ["math/a/chapters/b/website.md", "math/a/chapters/b/worksheets/x.md",
          "math/a/chapters/slides.md", "math/a/chapters/website.md"] ∧
      ((sharedLessons.jobs : StateM FileMap (List Job)).run sharedSlides).1.Pairwise
        fun first second => first.id ≠ second.id := by
  have valid : sharedLessons.settings.validate = .ok () := by decide
  refine ⟨valid, ?_, (jobs_one_for_each sharedLessons sharedSlides valid).2.2.2.1⟩
  rw [jobs_run]
  decide +kernel

end Project
end Courseware
