import Courseware.Markdown.Gfm
import Courseware.Proofs.Project.Artifacts

/-!
# Failures stay isolated

A build that is stopped has written nothing. One that is not stopped carries out a list of emissions in which each
document and each page has a place of its own, which is taken exactly if the document, or the source of the page,
compiled. What is put there depends on this one source; so another source, and whether it compiles, makes no
difference to it.
-/

namespace Courseware

/-! ## The database script -/

/-- The row of a course in the database does not depend on the titles of its pages. -/
theorem SqlScript.row_ofPlan (titles otherTitles : PageTitles) (plan : Plan) :
    row (Course.ofPlan otherTitles plan) = row (Course.ofPlan titles plan) := by
  unfold row Course.current? Course.ofPlan
  simp only
  -- The row names the first topic and its first chapter, if there are such.
  rcases plan.topics with _ | ⟨⟨topic, _ | ⟨ref, refs⟩⟩, rest⟩
  · rfl
  · rfl
  · rfl

/-- The database script does not depend on the titles of pages. -/
theorem SqlScript.ofCourses_catalogue (titles otherTitles : PageTitles) (plans : List Plan) :
    ofCourses (Course.catalogue otherTitles plans) = ofCourses (Course.catalogue titles plans) := by
  rw [ofCourses, ofCourses, Course.catalogue, Course.catalogue, List.flatMap_map, List.flatMap_map]
  apply List.flatMap_congr
  intro plan _
  rw [statement, statement, row_ofPlan]

namespace Project

open Emission (targetPlaces)

variable {dialect : Markdown.Dialect} {project : Project} {files other : FileMap}
  {pages : List Publication} {page : Publication} {job : Job}

/-! ## What is emitted where -/

/-- There is a job for the source of every page. -/
theorem exists_mem_jobsIn_of_mem_allPages (files : FileMap)
    (h : page ∈ Plan.allPages project.settings.plans) :
    ∃ job ∈ project.jobsIn files, job.source = page.source := by
  obtain ⟨plan, listed, ref, planned, rfl⟩ := Plan.mem_allPages_iff.mp h
  have hasked : (⟨plan.pageSource ref, .page, .ofChapter plan ref⟩ : Job) ∈
      Job.ofPlan (project.slidesIn files).contains plan :=
    Job.mem_ofPlan_iff.mpr (.inl ⟨ref, planned, rfl⟩)
  exact (Job.spec_of_ofPlans _ _).2.2 plan listed _ hasked

section Pages

variable (hpages : project.pages = .ok pages)

include hpages

/-- What is emitted to the place of a document is the document, if it compiled. -/
theorem mem_emissionsIn_document_iff (hjob : job ∈ project.jobsIn files) {emission : Emission} :
    (emission ∈ project.emissionsIn dialect files pages ∧
      files.placeOf emission.target = files.placeOf (outputPath project.folders.generated job.id)) ↔
    ∃ tree, project.resultIn dialect files job = .ok tree ∧
      emission = .text (outputPath project.folders.generated job.id) tree.toJson.file := by
  have valid := (spec_of_pages hpages).1
  obtain ⟨key, concerns⟩ := exists_concerns valid hjob
  rw [emissionsIn_eq, List.mem_append, List.mem_append]
  constructor
  · rintro ⟨hdocument | hcatalogue | hpage, hplace⟩
    · obtain ⟨found, hfound, tree, hresult, rfl⟩ := mem_documentEmissionsIn_iff.mp hdocument
      obtain ⟨foundKey, foundConcerns⟩ := exists_concerns valid hfound
      obtain rfl : foundKey = key := by
        by_contra hne
        exact foundConcerns.placeOf_outputPath_ne concerns hne files _ hplace
      obtain rfl := (ordered_jobsIn project files).eq_of_source_eq hfound hjob
        ((foundConcerns.source_eq_iff concerns).mpr rfl)
      exact ⟨tree, hresult, rfl⟩
    -- Neither the catalogue nor a page is put where a document belongs.
    · have hmem := Emission.mem_targetPlaces files hcatalogue
      rw [hplace] at hmem
      exact absurd hmem (placeOf_outputPath_notMem_catalogue concerns)
    · have hending := ending?_of_mem_pages hpages (Emission.mem_targetPlaces files hpage)
      rw [hplace, concerns.ending?_output] at hending
      exact absurd hending (by decide)
  · rintro ⟨tree, hresult, rfl⟩
    exact ⟨.inl (mem_documentEmissionsIn_iff.mpr ⟨job, hjob, tree, hresult, rfl⟩), rfl⟩

/-- What is emitted to the place of a page is a copy of its source, if pages are published and the source
compiled. -/
theorem mem_emissionsIn_page_iff (planned : page ∈ Plan.allPages project.settings.plans)
    {emission : Emission} :
    (emission ∈ project.emissionsIn dialect files pages ∧
      files.placeOf emission.target =
        files.placeOf (Path.join project.folders.website page.target)) ↔
    project.settings.publishes = true ∧
      (∃ job ∈ project.jobsIn files, job.source = page.source ∧
        project.compilesIn dialect files job = true) ∧
      emission = .copy (Path.join project.folders.website page.target)
        (Path.join project.folders.content page.source) := by
  have valid := (spec_of_pages hpages).1
  obtain ⟨hnodup, _, hpublished⟩ := Plan.spec_of_published (spec_of_pages hpages).2
  obtain ⟨published, hmem, htarget, hsource⟩ := hpublished page planned
  obtain ⟨job, hjob, hjobSource⟩ := exists_mem_jobsIn_of_mem_allPages files planned
  have hending := Plan.ending?_target (sound_of_pages hpages) planned files project.folders.website
  rw [emissionsIn_eq, List.mem_append, List.mem_append]
  constructor
  · rintro ⟨hdocument | hcatalogue | hpage, hplace⟩
    · obtain ⟨found, key, concerns, hfound⟩ :=
        exists_of_mem_documents valid (Emission.mem_targetPlaces files hdocument)
      rw [← hplace, hfound, concerns.ending?_output] at hending
      exact absurd hending (by decide)
    · rw [← hplace] at hending
      rcases ending?_of_mem_catalogue (Emission.mem_targetPlaces files hcatalogue) with h | h
      · exact absurd (h.symm.trans hending) (by decide)
      · exact absurd (h.symm.trans hending) (by decide)
    -- A page with this target is the one that is published there, so it has this source.
    · obtain ⟨publishes, found, listed, hcompiled, rfl⟩ := mem_pageEmissionsIn_iff.mp hpage
      have hsame : found.target = page.target :=
        (Plan.placeOf_target_eq_iff (sound_of_pages hpages) (mem_allPages hpages listed) planned files
          _).mp hplace
      obtain rfl : found = published :=
        List.inj_on_of_nodup_map hnodup listed hmem (hsame.trans htarget.symm)
      refine ⟨publishes, ⟨job, hjob, hjobSource, hcompiled job hjob (hjobSource.trans hsource.symm)⟩, ?_⟩
      rw [htarget, hsource]
  · rintro ⟨publishes, ⟨found, hfound, hfoundSource, hcompiles⟩, rfl⟩
    refine ⟨.inr (.inr (mem_pageEmissionsIn_iff.mpr ⟨publishes, published, hmem, ?_, ?_⟩)), rfl⟩
    · intro another hanother hanotherSource
      have hsame := (ordered_jobsIn project files).eq_of_source_eq hanother hfound
        (hanotherSource.trans (hsource.trans hfoundSource.symm))
      rw [hsame]
      exact hcompiles
    · rw [htarget, hsource]

/-- Nothing is emitted to the place of a document that failed. -/
theorem notMem_targetPlaces_document (hjob : job ∈ project.jobsIn files)
    (hfailed : ∀ tree, project.resultIn dialect files job ≠ .ok tree) :
    files.placeOf (outputPath project.folders.generated job.id) ∉
      targetPlaces files (project.emissionsIn dialect files pages) := by
  intro h
  obtain ⟨emission, hemission, hplace⟩ := List.mem_map.mp h
  obtain ⟨tree, hresult, _⟩ := (mem_emissionsIn_document_iff hpages hjob).mp ⟨hemission, hplace⟩
  exact hfailed tree hresult

/-- Nothing is emitted to the place of a page whose source failed. -/
theorem notMem_targetPlaces_page (planned : page ∈ Plan.allPages project.settings.plans)
    (hjob : job ∈ project.jobsIn files) (hsource : job.source = page.source)
    (hfailed : project.compilesIn dialect files job = false) :
    files.placeOf (Path.join project.folders.website page.target) ∉
      targetPlaces files (project.emissionsIn dialect files pages) := by
  intro h
  obtain ⟨emission, hemission, hplace⟩ := List.mem_map.mp h
  obtain ⟨_, ⟨found, hfound, hfoundSource, hcompiles⟩, _⟩ :=
    (mem_emissionsIn_page_iff hpages planned).mp ⟨hemission, hplace⟩
  obtain rfl := (ordered_jobsIn project files).eq_of_source_eq hfound hjob
    (hfoundSource.trans hsource.symm)
  rw [hcompiles] at hfailed
  cases hfailed

end Pages

/-! ## Another source -/

/-- Different jobs have their sources in different places. -/
theorem placeOf_source_ne (valid : project.settings.validate = .ok ()) {changed : Job}
    (hjob : job ∈ project.jobsIn files) (hchanged : changed ∈ project.jobsIn files)
    (hne : job ≠ changed) :
    files.placeOf (Path.join project.folders.content job.source) ≠
      files.placeOf (Path.join project.folders.content changed.source) := by
  obtain ⟨key, concerns⟩ := exists_concerns valid hjob
  obtain ⟨otherKey, otherConcerns⟩ := exists_concerns valid hchanged
  intro h
  have hsource := Path.parts_inj.mp
    ((Path.placeFrom_join_inj concerns.isPlain_source otherConcerns.isPlain_source).mp h)
  exact hne ((ordered_jobsIn project files).eq_of_source_eq hjob hchanged hsource)

/-- The database script is emitted, and so is the list of worksheets. Both depend on the plans only. -/
theorem mem_emissionsIn_script (titles : PageTitles) :
    .text (Path.join project.folders.scripts "courses.sql")
        (SqlScript.ofCourses (Course.catalogue titles project.settings.plans)) ∈
      project.emissionsIn dialect files pages := by
  rw [SqlScript.ofCourses_catalogue (Compilation.titles (project.compilationsIn dialect files)) titles,
    emissionsIn_eq]
  apply List.mem_append_right
  apply List.mem_append_left
  exact List.mem_cons_of_mem _ (List.mem_cons_of_mem _ List.mem_cons_self)

theorem mem_emissionsIn_worksheets :
    .text (Path.join project.folders.generated "worksheets.json")
        (Json.array ((Plan.allPrinted project.settings.plans).map Publication.toJson)).file ∈
      project.emissionsIn dialect files pages := by
  rw [emissionsIn_eq]
  apply List.mem_append_right
  apply List.mem_append_left
  exact List.mem_cons_of_mem _ (List.mem_cons_of_mem _ (List.mem_cons_of_mem _ List.mem_cons_self))

section Changed

variable {changed : Job} (hpages : project.pages = .ok pages)
  (hchanged : changed ∈ project.jobsIn files)

include hpages hchanged in
/-- A source is a Markdown file. -/
theorem ending?_source :
    Path.ending? (files.placeOf (Path.join project.folders.content changed.source)) =
      some "md".toList := by
  obtain ⟨key, concerns⟩ := exists_concerns (spec_of_pages hpages).1 hchanged
  exact concerns.ending?_source files _

variable (alike : FileMap.AlikeBut
  (files.placeOf (Path.join project.folders.content changed.source)) files other)

include alike in
theorem jobsIn_eq_of_alikeBut : project.jobsIn other = project.jobsIn files :=
  jobsIn_eq alike.alike fun source _ => alike.isSome_eq (files.placeOf source)

include hpages hchanged alike

/-- Other jobs come out the same. -/
theorem resultIn_eq_of_ne (hjob : job ∈ project.jobsIn files) (hne : job ≠ changed) :
    project.resultIn dialect other job = project.resultIn dialect files job :=
  resultIn_eq alike.alike
    (alike.elsewhere _ (placeOf_source_ne (spec_of_pages hpages).1 hjob hchanged hne))

/-- What is no Markdown file is alike. -/
theorem bytes?_eq_of_ending {path : String}
    (hending : Path.ending? (files.placeOf path) ≠ some "md".toList) :
    other.bytes? (files.placeOf path) = files.bytes? (files.placeOf path) := by
  apply alike.elsewhere
  intro h
  exact hending (h ▸ ending?_source hpages hchanged)

/-- A text that is emitted in both builds to what is no Markdown file leaves the same there. -/
theorem bytes?_afterAll_text (dryRun : Bool) {path : String} {content : Text}
    (hending : Path.ending? (files.placeOf path) ≠ some "md".toList)
    (hfiles : .text path content ∈ project.emissionsIn dialect files pages)
    (hother : .text path content ∈ project.emissionsIn dialect other pages) :
    (Emission.afterAll dryRun other (project.emissionsIn dialect other pages)).bytes? (files.placeOf path) =
      (Emission.afterAll dryRun files (project.emissionsIn dialect files pages)).bytes?
        (files.placeOf path) := by
  have same : (Emission.text path content).FindsSame files other :=
    ⟨alike.alike, bytes?_eq_of_ending hpages hchanged alike hending, fun _ h => nomatch h⟩
  exact Emission.bytes?_afterAll_eq dryRun same (nodup_targetPlaces hpages)
    (nodup_targetPlaces hpages) hfiles hother fun _ h => nomatch h

/-- Other documents are put into the same files. -/
theorem bytes?_afterAll_document (dryRun : Bool) (hjob : job ∈ project.jobsIn files)
    (hne : job ≠ changed) :
    (Emission.afterAll dryRun other (project.emissionsIn dialect other pages)).bytes?
        (files.placeOf (outputPath project.folders.generated job.id)) =
      (Emission.afterAll dryRun files (project.emissionsIn dialect files pages)).bytes?
        (files.placeOf (outputPath project.folders.generated job.id)) := by
  obtain ⟨key, concerns⟩ := exists_concerns (spec_of_pages hpages).1 hjob
  have hending : Path.ending? (files.placeOf (outputPath project.folders.generated job.id)) ≠
      some "md".toList := by
    rw [concerns.ending?_output]
    decide
  have hother : job ∈ project.jobsIn other := jobsIn_eq_of_alikeBut alike ▸ hjob
  have hresult : project.resultIn dialect other job = project.resultIn dialect files job :=
    resultIn_eq_of_ne hpages hchanged alike hjob hne
  cases hfound : project.resultIn dialect files job with
  | ok tree =>
    apply bytes?_afterAll_text hpages hchanged alike dryRun hending
    · exact ((mem_emissionsIn_document_iff hpages hjob).mpr ⟨tree, hfound, rfl⟩).1
    · exact ((mem_emissionsIn_document_iff hpages hother).mpr ⟨tree, hresult.trans hfound, rfl⟩).1
  | error problem =>
    have hfiles := notMem_targetPlaces_document hpages hjob
      fun tree h => nomatch hfound.symm.trans h
    have hnone := notMem_targetPlaces_document hpages hother
      fun tree h => nomatch (hresult.trans hfound).symm.trans h
    rw [alike.alike.placeOf_eq] at hnone
    rw [Emission.bytes?_afterAll_of_notMem hfiles, Emission.bytes?_afterAll_of_notMem hnone]
    exact bytes?_eq_of_ending hpages hchanged alike hending

/-- The database script and the list of worksheets are the same. -/
theorem bytes?_afterAll_catalogue (dryRun : Bool) {path : String}
    (h : path ∈ [Path.join project.folders.scripts "courses.sql",
      Path.join project.folders.generated "worksheets.json"]) :
    (Emission.afterAll dryRun other (project.emissionsIn dialect other pages)).bytes? (files.placeOf path) =
      (Emission.afterAll dryRun files (project.emissionsIn dialect files pages)).bytes?
        (files.placeOf path) := by
  simp only [List.mem_cons, List.not_mem_nil, or_false] at h
  rcases h with rfl | rfl
  · have hending : Path.ending? (files.placeOf (Path.join project.folders.scripts "courses.sql")) ≠
        some "md".toList := by
      rw [ending?_script]
      decide
    exact bytes?_afterAll_text hpages hchanged alike dryRun hending
      (mem_emissionsIn_script fun _ => none) (mem_emissionsIn_script fun _ => none)
  · have hending : Path.ending? (files.placeOf
        (Path.join project.folders.generated "worksheets.json")) ≠ some "md".toList := by
      rw [ending?_catalogue project (by decide)]
      decide
    exact bytes?_afterAll_text hpages hchanged alike dryRun hending mem_emissionsIn_worksheets
      mem_emissionsIn_worksheets

/-- Copying a page of another source finds the same, if no artifact takes the place of a source. -/
theorem findsSame_page (apart : project.KeepsApart files)
    (publishes : project.settings.publishes = true)
    (planned : page ∈ Plan.allPages project.settings.plans) (hjob : job ∈ project.jobsIn files)
    (hsource : job.source = page.source) (hne : job ≠ changed) :
    (Emission.copy (Path.join project.folders.website page.target)
      (Path.join project.folders.content page.source)).FindsSame files other where
  alike := alike.alike
  target := alike.elsewhere _ (apart _ (mem_artifactPaths_of_mem_allPages publishes planned) _
    (mem_sourcePaths_of_mem_jobsIn hchanged))
  source path h := by
    obtain rfl := Option.some.inj h
    rw [← hsource]
    exact alike.elsewhere _ (placeOf_source_ne (spec_of_pages hpages).1 hjob hchanged hne)

/-- Other pages are published in the same way, if no artifact takes the place of a source. -/
theorem bytes?_afterAll_page (dryRun : Bool) (apart : project.KeepsApart files)
    (publishes : project.settings.publishes = true)
    (planned : page ∈ Plan.allPages project.settings.plans) (hne : page.source ≠ changed.source) :
    (Emission.afterAll dryRun other (project.emissionsIn dialect other pages)).bytes?
        (files.placeOf (Path.join project.folders.website page.target)) =
      (Emission.afterAll dryRun files (project.emissionsIn dialect files pages)).bytes?
        (files.placeOf (Path.join project.folders.website page.target)) := by
  obtain ⟨pageJob, hjob, hsource⟩ := exists_mem_jobsIn_of_mem_allPages files planned
  have hjobNe : pageJob ≠ changed := fun h => hne (by rw [← h, hsource])
  have hother : pageJob ∈ project.jobsIn other := jobsIn_eq_of_alikeBut alike ▸ hjob
  have same := findsSame_page hpages hchanged alike apart publishes planned hjob hsource hjobNe
  have hcompiles : project.compilesIn dialect other pageJob = project.compilesIn dialect files pageJob := by
    rw [compilesIn, resultIn_eq_of_ne hpages hchanged alike hjob hjobNe, compilesIn]
  cases hfound : project.compilesIn dialect files pageJob with
  | true =>
    have hfiles := ((mem_emissionsIn_page_iff hpages planned).mpr
      ⟨publishes, ⟨pageJob, hjob, hsource, hfound⟩, rfl⟩).1
    have hothers := ((mem_emissionsIn_page_iff hpages planned).mpr
      ⟨publishes, ⟨pageJob, hother, hsource, hcompiles.trans hfound⟩, rfl⟩).1
    have hagree := Emission.bytes?_afterAll_eq dryRun same (nodup_targetPlaces hpages)
      (nodup_targetPlaces hpages) hfiles hothers fun source h =>
        ⟨(apart.emissions hpages).sources _ hfiles source h,
          ((apart.of_alike alike.alike).emissions hpages).sources _ hothers source h⟩
    exact hagree
  | false =>
    have hfiles := notMem_targetPlaces_page hpages planned hjob hsource hfound
    have hnone := notMem_targetPlaces_page hpages planned hother hsource (hcompiles.trans hfound)
    rw [alike.alike.placeOf_eq] at hnone
    rw [Emission.bytes?_afterAll_of_notMem hfiles, Emission.bytes?_afterAll_of_notMem hnone]
    exact same.target

end Changed

/-! ## Isolation -/

/-- Different jobs have different ids. -/
theorem eq_of_id_eq (valid : project.settings.validate = .ok ()) {another : Job}
    (hjob : job ∈ project.jobsIn files) (hanother : another ∈ project.jobsIn files)
    (h : job.id = another.id) : job = another := by
  obtain ⟨key, concerns⟩ := exists_concerns valid hjob
  obtain ⟨otherKey, otherConcerns⟩ := exists_concerns valid hanother
  apply (ordered_jobsIn project files).eq_of_source_eq hjob hanother
  exact (concerns.source_eq_iff otherConcerns).mpr ((concerns.id_eq_iff otherConcerns).mp h)

/-- A job is reported either as compiled or as failed. -/
theorem mem_compiled_iff_notMem_failures (valid : project.settings.validate = .ok ())
    (hjob : job ∈ project.jobsIn files) :
    job.id ∈ Compilation.compiled (project.compilationsIn dialect files) ↔
      job.id ∉ (Compilation.failures (project.compilationsIn dialect files)).map fun (job, _) => job.id := by
  have hids : ((Compilation.failures (project.compilationsIn dialect files)).map fun (job, _) => job.id) =
      ((project.jobsIn files).filter fun job => !project.compilesIn dialect files job).map Job.id := by
    rw [← failures_compilationsIn, List.map_map]
    rfl
  have hmem : ∀ test : Job → Bool,
      job.id ∈ ((project.jobsIn files).filter test).map Job.id ↔ test job = true := by
    intro test
    rw [List.mem_map]
    constructor
    · rintro ⟨found, hfound, hid⟩
      obtain ⟨hmem, htest⟩ := List.mem_filter.mp hfound
      exact eq_of_id_eq valid hmem hjob hid ▸ htest
    · exact fun htest => ⟨job, List.mem_filter.mpr ⟨hjob, htest⟩, rfl⟩
  rw [compiled_compilationsIn, hids, hmem, hmem]
  cases project.compilesIn dialect files job <;> decide

/-- A build that is stopped changes no file. One that is not stopped reports every job either as compiled or as
failed, both in the order of the sources. It carries out emissions of which one goes to the place of a document
exactly if the document compiled, and then it is the document; and one goes to the place of a page exactly if
pages are published and its source compiled, and then it is a copy of the source. A build of the same project
with another text in the source of one job leaves the same bytes in the places of all other documents, in the
database script and in the list of worksheets, and also in the places of all other pages if the project keeps
its artifacts apart from its sources. -/
theorem build_isolates (dialect : Markdown.Dialect) (project : Project) (files : FileMap) (dryRun : Bool) :
    let run := fun files =>
      (project.build dialect dryRun : StateM FileMap (Except Problem BuildReport)).run files
    let jobs := ((project.jobs : StateM FileMap (List Job)).run files).1
    let output := fun job : Job => outputPath project.folders.generated job.id
    let website := fun page : Publication => Path.join project.folders.website page.target
    (∀ problem, (run files).1 = .error problem → (run files).2 = files) ∧
    ∀ report, (run files).1 = .ok report →
      jobs.Pairwise (fun first second => first.source < second.source) ∧
      Compilation.compiled report.compilations =
        (jobs.filter fun job => project.compilesIn dialect files job).map Job.id ∧
      (Compilation.failures report.compilations).map Prod.fst =
        (jobs.filter fun job => !project.compilesIn dialect files job) ∧
      (∀ job ∈ jobs, job.id ∈ Compilation.compiled report.compilations ↔
        job.id ∉ (Compilation.failures report.compilations).map fun (job, _) => job.id) ∧
      (∃ emissions, (Emission.runAll dryRun emissions : StateM FileMap (List EmissionRecord)).run files =
          (report.records, (run files).2) ∧
        (∀ job ∈ jobs, ∀ emission,
          (emission ∈ emissions ∧ files.placeOf emission.target = files.placeOf (output job)) ↔
          ∃ tree, project.resultIn dialect files job = .ok tree ∧
            emission = .text (output job) tree.toJson.file) ∧
        ∀ page ∈ Plan.allPages project.settings.plans, ∀ emission,
          (emission ∈ emissions ∧ files.placeOf emission.target = files.placeOf (website page)) ↔
          project.settings.publishes = true ∧
            (∃ job ∈ jobs, job.source = page.source ∧ project.compilesIn dialect files job = true) ∧
            emission = .copy (website page) (Path.join project.folders.content page.source)) ∧
      ∀ changed ∈ jobs, ∀ other, FileMap.AlikeBut
          (files.placeOf (Path.join project.folders.content changed.source)) files other →
        (∃ otherReport, (run other).1 = .ok otherReport) ∧
        (∀ job ∈ jobs, job ≠ changed →
          (run other).2.bytes? (files.placeOf (output job)) =
            (run files).2.bytes? (files.placeOf (output job))) ∧
        (∀ path ∈ [Path.join project.folders.scripts "courses.sql",
            Path.join project.folders.generated "worksheets.json"],
          (run other).2.bytes? (files.placeOf path) = (run files).2.bytes? (files.placeOf path)) ∧
        (project.KeepsApart files → project.settings.publishes = true →
          ∀ page ∈ Plan.allPages project.settings.plans, page.source ≠ changed.source →
            (run other).2.bytes? (files.placeOf (website page)) =
              (run files).2.bytes? (files.placeOf (website page))) := by
  intro run jobs output website
  have hjobs : jobs = project.jobsIn files := congrArg Prod.fst (jobs_run project files)
  cases hpages : project.pages with
  | error problem =>
    have hrun : run files = (.error problem, files) := by
      have h := build_run dialect dryRun project files
      rwa [hpages] at h
    rw [hrun]
    exact ⟨fun _ _ => rfl, fun report h => nomatch h⟩
  | ok pages =>
    have hrun : ∀ files, run files = (.ok (project.reportIn dialect dryRun files pages),
        Emission.afterAll dryRun files (project.emissionsIn dialect files pages)) := by
      intro files
      have h := build_run dialect dryRun project files
      rwa [hpages] at h
    have valid := (spec_of_pages hpages).1
    simp only [hrun, hjobs]
    refine ⟨fun problem h => (nomatch h), ?_⟩
    rintro report h
    obtain rfl := Except.ok.inj h
    refine ⟨ordered_jobsIn project files, compiled_compilationsIn, failures_compilationsIn,
      fun job hjob => mem_compiled_iff_notMem_failures valid hjob, ?_, ?_⟩
    · exact ⟨project.emissionsIn dialect files pages, Emission.runAll_run _ _ _,
        fun job hjob emission => mem_emissionsIn_document_iff hpages hjob,
        fun page planned emission => mem_emissionsIn_page_iff hpages planned⟩
    · intro changed hchanged other alike
      exact ⟨⟨_, rfl⟩,
        fun job hjob hne => bytes?_afterAll_document hpages hchanged alike dryRun hjob hne,
        fun path hpath => bytes?_afterAll_catalogue hpages hchanged alike dryRun hpath,
        fun apart publishes page planned hne =>
          bytes?_afterAll_page hpages hchanged alike dryRun apart publishes planned hne⟩

/-- When the second page fails instead of compiling, the file of the first page is the same. -/
theorem build_isolates_twoChapters :
    let run := fun second => (twoChapters.build .gfm false :
      StateM FileMap (Except Problem BuildReport)).run (chapterFiles (some second))
    let compiled := fun second => (run second).1.toOption.map fun report =>
      Compilation.compiled report.compilations
    compiled "# B" = some ["math/a/b", "math/a/a"] ∧ compiled "$a" = some ["math/a/a"] ∧
      FileMap.AlikeBut ["p", "content", "math", "a", "chapters", "b", "website.md"]
        (chapterFiles (some "# B")) (chapterFiles (some "$a")) ∧
      (run "$a").2.bytes? ["p", "generated", "math", "a", "a.json"] =
        (run "# B").2.bytes? ["p", "generated", "math", "a", "a.json"] := by
  intro run compiled
  have hcompiled : compiled "# B" = some ["math/a/b", "math/a/a"] := by decide +kernel
  have alike : FileMap.AlikeBut ["p", "content", "math", "a", "chapters", "b", "website.md"]
      (chapterFiles (some "# B")) (chapterFiles (some "$a")) := by
    refine ⟨⟨rfl, rfl, rfl⟩, fun place h => ?_, rfl⟩
    simp [chapterFiles, h]
  obtain ⟨report, hreport⟩ : ∃ report, (run "# B").1 = .ok report := by
    cases h : (run "# B").1 with
    | error problem =>
      simp only [compiled, h] at hcompiled
      cases hcompiled
    | ok report => exact ⟨report, rfl⟩
  have hjobs : ((twoChapters.jobs : StateM FileMap (List Job)).run (chapterFiles (some "# B"))).1 =
      [⟨"math/a/chapters/b/website.md", .page, ⟨"g", "math", "v", "a", "b", none⟩⟩,
        ⟨"math/a/chapters/website.md", .page, ⟨"g", "math", "v", "a", "a", none⟩⟩] := by
    decide +kernel
  have hsource : (chapterFiles (some "# B")).placeOf
      (Path.join twoChapters.folders.content "math/a/chapters/b/website.md") =
        ["p", "content", "math", "a", "chapters", "b", "website.md"] := by
    decide +kernel
  have houtput : (chapterFiles (some "# B")).placeOf
      (outputPath twoChapters.folders.generated "math/a/a") =
        ["p", "generated", "math", "a", "a.json"] := by
    decide +kernel
  obtain ⟨_, _, _, _, _, hisolated⟩ :=
    (build_isolates .gfm twoChapters (chapterFiles (some "# B")) false).2 report hreport
  rw [hjobs] at hisolated
  obtain ⟨_, hdocument, _⟩ := hisolated _ List.mem_cons_self (chapterFiles (some "$a"))
    (by rw [hsource]; exact alike)
  have hsame := hdocument _ (List.mem_cons_of_mem _ List.mem_cons_self) (by decide)
  refine ⟨hcompiled, by decide +kernel, alike, ?_⟩
  rw [← houtput]
  exact hsame

end Project
end Courseware
