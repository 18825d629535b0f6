import Courseware.Proofs.Course.Pages
import Courseware.Proofs.Project.Build

/-!
# The places of artifacts

A build of a valid project puts each of its artifacts into a place of its own: compiled documents, because
their ids differ; the files of the catalogue, because their paths are shorter than the paths of documents; the
database script and the published pages, because their names end in other ways. Only published pages can take
the place of a source, as both are Markdown files.
-/

namespace Courseware

namespace Job

variable {job : Job} {key : DocumentKey}

/-- Documents are compiled to JSON files. -/
theorem Concerns.ending?_output (concerns : job.Concerns key) (files : FileMap) (folder : String) :
    Path.ending? (files.placeOf (outputPath folder job.id)) = some "json".toList := by
  obtain ⟨stem, hlast⟩ := key.exists_getLast?_idParts ".json".toList
  rw [← concerns.parts_output] at hlast
  exact Path.ending?_placeFrom_join concerns.isPlain_output hlast (by decide)

/-- Documents are compiled from Markdown files. -/
theorem Concerns.ending?_source (concerns : job.Concerns key) (files : FileMap) (folder : String) :
    Path.ending? (files.placeOf (Path.join folder job.source)) = some "md".toList := by
  obtain ⟨stem, hlast⟩ := key.exists_getLast?_sourceParts
  rw [← concerns.source] at hlast
  exact Path.ending?_placeFrom_join concerns.isPlain_source hlast (by decide)

end Job

namespace Plan

variable {plan : Plan} {ref : ChapterRef} {plans : List Plan} {page other : Publication}

/-- The place of a page is made of names. -/
theorem isPlain_pageTarget (sound : plan.Sound) (planned : ref ∈ plan.chapters) :
    Path.IsPlain (plan.pageTarget ref) := by
  obtain ⟨htopic, hchapter⟩ := sound.named ref planned
  have hcourses : Path.IsName "courses".toList := by decide
  have hpage := Path.isName_append_of_isSlug (ChapterRef.isSlug_pageName hchapter) ".md".toList
  rw [Path.IsPlain, parts_pageTarget sound planned]
  simp only [List.forall_mem_cons]
  exact ⟨hcourses, Path.isName_of_isSlug sound.group, Path.isName_of_isSlug sound.variant,
    Path.isName_of_isSlug htopic, hpage, fun _ h => absurd h List.not_mem_nil⟩

theorem isPlain_target (sound : ∀ plan ∈ plans, plan.Sound) (h : page ∈ allPages plans) :
    Path.IsPlain page.target := by
  obtain ⟨plan, listed, ref, planned, rfl⟩ := mem_allPages_iff.mp h
  exact isPlain_pageTarget (sound plan listed) planned

/-- Pages are published as Markdown files. -/
theorem ending?_target (sound : ∀ plan ∈ plans, plan.Sound) (h : page ∈ allPages plans)
    (files : FileMap) (folder : String) :
    Path.ending? (files.placeOf (Path.join folder page.target)) = some "md".toList := by
  have plain := isPlain_target sound h
  obtain ⟨plan, listed, ref, planned, rfl⟩ := mem_allPages_iff.mp h
  have hlast := congrArg List.getLast? (parts_pageTarget (sound plan listed) planned)
  exact Path.ending?_placeFrom_join plain hlast (by decide)

/-- Pages with different targets are published in different places. -/
theorem placeOf_target_eq_iff (sound : ∀ plan ∈ plans, plan.Sound) (h : page ∈ allPages plans)
    (hother : other ∈ allPages plans) (files : FileMap) (folder : String) :
    files.placeOf (Path.join folder page.target) = files.placeOf (Path.join folder other.target) ↔
      page.target = other.target :=
  (Path.placeFrom_join_inj (isPlain_target sound h) (isPlain_target sound hother)).trans Path.parts_inj

end Plan

namespace Project

open Emission (targetPlaces)

variable {dialect : Markdown.Dialect} {project : Project} {files : FileMap} {pages : List Publication}
  {page : Publication} {job : Job}

/-! ## The catalogue -/

/-- The paths of the JSON files of the catalogue, as seen from the generated folder. -/
def cataloguePaths : List String := ["config/courses.json", "navbar.config.json", "worksheets.json"]

theorem targetPlaces_catalogueEmissionsIn (project : Project) (files : FileMap) :
    targetPlaces files (project.catalogueEmissionsIn dialect files) =
      [files.placeOf (Path.join project.folders.generated "config/courses.json"),
        files.placeOf (Path.join project.folders.generated "navbar.config.json"),
        files.placeOf (Path.join project.folders.scripts "courses.sql"),
        files.placeOf (Path.join project.folders.generated "worksheets.json")] := rfl

theorem ending?_script (project : Project) (files : FileMap) :
    Path.ending? (files.placeOf (Path.join project.folders.scripts "courses.sql")) =
      some "sql".toList :=
  Path.ending?_placeFrom_join (by decide) (rfl : _ = some ("courses".toList ++ _)) (by decide)

theorem ending?_catalogue (project : Project) {path : String} (h : path ∈ cataloguePaths)
    (files : FileMap) :
    Path.ending? (files.placeOf (Path.join project.folders.generated path)) = some "json".toList := by
  simp only [cataloguePaths, List.mem_cons, List.not_mem_nil, or_false] at h
  rcases h with rfl | rfl | rfl
  · exact Path.ending?_placeFrom_join (by decide) (rfl : _ = some ("courses".toList ++ _)) (by decide)
  · exact Path.ending?_placeFrom_join (by decide) (rfl : _ = some ("navbar.config".toList ++ _)) (by decide)
  · exact Path.ending?_placeFrom_join (by decide) (rfl : _ = some ("worksheets".toList ++ _)) (by decide)

theorem nodup_targetPlaces_catalogueEmissionsIn :
    (targetPlaces files (project.catalogueEmissionsIn dialect files)).Nodup := by
  have hinj : ∀ {path other : String}, Path.IsPlain path → Path.IsPlain other →
      Path.parts path ≠ Path.parts other →
      files.placeOf (Path.join project.folders.generated path) ≠
        files.placeOf (Path.join project.folders.generated other) :=
    fun plain otherPlain hne h => hne ((Path.placeFrom_join_inj plain otherPlain).mp h)
  have hscript : ∀ path ∈ cataloguePaths,
      files.placeOf (Path.join project.folders.generated path) ≠
        files.placeOf (Path.join project.folders.scripts "courses.sql") := by
    intro path hpath h
    have hending := ending?_catalogue project hpath files
    rw [h, ending?_script] at hending
    exact absurd hending (by decide)
  rw [targetPlaces_catalogueEmissionsIn]
  simp only [List.nodup_cons, List.mem_cons, List.not_mem_nil, or_false, not_or, not_false_eq_true,
    List.nodup_nil, and_true]
  exact ⟨⟨hinj (by decide) (by decide) (by decide), hscript _ (by decide),
      hinj (by decide) (by decide) (by decide)⟩,
    ⟨hscript _ (by decide), hinj (by decide) (by decide) (by decide)⟩,
    (hscript _ (by decide)).symm⟩

/-- The files of the catalogue are JSON files or database scripts. -/
theorem ending?_of_mem_catalogue {place : List String}
    (h : place ∈ targetPlaces files (project.catalogueEmissionsIn dialect files)) :
    Path.ending? place = some "json".toList ∨ Path.ending? place = some "sql".toList := by
  rw [targetPlaces_catalogueEmissionsIn] at h
  simp only [List.mem_cons, List.not_mem_nil, or_false] at h
  rcases h with rfl | rfl | rfl | rfl
  · exact .inl (ending?_catalogue project (by decide) files)
  · exact .inl (ending?_catalogue project (by decide) files)
  · exact .inr (ending?_script project files)
  · exact .inl (ending?_catalogue project (by decide) files)

/-- No document takes the place of a file of the catalogue. -/
theorem placeOf_outputPath_notMem_catalogue {key : DocumentKey} (concerns : job.Concerns key) :
    files.placeOf (outputPath project.folders.generated job.id) ∉
      targetPlaces files (project.catalogueEmissionsIn dialect files) := by
  rw [targetPlaces_catalogueEmissionsIn]
  simp only [List.mem_cons, List.not_mem_nil, or_false, not_or]
  refine ⟨?_, ?_, ?_, ?_⟩
  · exact concerns.placeOf_outputPath_ne_join (by decide) (by decide) files _
  · exact concerns.placeOf_outputPath_ne_join (by decide) (by decide) files _
  · intro h
    have hending := concerns.ending?_output files project.folders.generated
    rw [h, ending?_script] at hending
    exact absurd hending (by decide)
  · exact concerns.placeOf_outputPath_ne_join (by decide) (by decide) files _

/-! ## All emissions -/

section Valid

/-- The documents are put where their ids say. -/
theorem exists_of_mem_documents (valid : project.settings.validate = .ok ()) {place : List String}
    (h : place ∈ targetPlaces files (project.documentEmissionsIn dialect files)) :
    ∃ job key, Job.Concerns job key ∧
      place = files.placeOf (outputPath project.folders.generated job.id) := by
  obtain ⟨emission, hemission, rfl⟩ := List.mem_map.mp h
  obtain ⟨job, hjob, tree, _, rfl⟩ := mem_documentEmissionsIn_iff.mp hemission
  obtain ⟨key, concerns⟩ := exists_concerns valid hjob
  exact ⟨job, key, concerns, rfl⟩

theorem nodup_targetPlaces_documentEmissionsIn (valid : project.settings.validate = .ok ()) :
    (targetPlaces files (project.documentEmissionsIn dialect files)).Nodup := by
  have htarget : ∀ {compilation : Compilation} {emission : Emission},
      compilation.emission? project.folders.generated = some emission →
        emission.target = outputPath project.folders.generated compilation.job.id := by
    intro compilation emission h
    rw [Compilation.emission?] at h
    split at h
    · exact congrArg Emission.target (Option.some.inj h).symm
    · cases h
  rw [targetPlaces, documentEmissionsIn, List.Nodup, List.pairwise_map, List.pairwise_filterMap,
    compilationsIn, List.pairwise_map]
  apply pairwise_jobsIn valid
  intro first second key otherKey concerns otherConcerns hne emission hemission other hother
  rw [htarget hemission, htarget hother]
  exact concerns.placeOf_outputPath_ne otherConcerns hne files _

variable (hpages : project.pages = .ok pages)

include hpages

theorem sound_of_pages : ∀ plan ∈ project.settings.plans, plan.Sound :=
  fun _ listed => sound_of_validate (spec_of_pages hpages).1 listed

/-- What is published is planned. -/
theorem mem_allPages (h : page ∈ pages) : page ∈ Plan.allPages project.settings.plans :=
  (Plan.spec_of_published (spec_of_pages hpages).2).2.1 h

theorem ending?_of_mem_pages {place : List String}
    (h : place ∈ targetPlaces files (project.pageEmissionsIn dialect files pages)) :
    Path.ending? place = some "md".toList := by
  obtain ⟨emission, hemission, rfl⟩ := List.mem_map.mp h
  obtain ⟨_, page, listed, _, rfl⟩ := mem_pageEmissionsIn_iff.mp hemission
  exact Plan.ending?_target (sound_of_pages hpages) (mem_allPages hpages listed) files _

theorem nodup_targetPlaces_pageEmissionsIn :
    (targetPlaces files (project.pageEmissionsIn dialect files pages)).Nodup := by
  have hnodup := (Plan.spec_of_published (spec_of_pages hpages).2).1
  rw [pageEmissionsIn, pageEmissions]
  split
  · rw [targetPlaces, List.map_map, List.Nodup, List.pairwise_map]
    apply List.Pairwise.filter
    apply (List.pairwise_map.mp hnodup).imp_of_mem
    intro page other hpage hother hne h
    exact hne ((Plan.placeOf_target_eq_iff (sound_of_pages hpages) (mem_allPages hpages hpage)
      (mem_allPages hpages hother) files _).mp h)
  · exact List.nodup_nil

/-- Each emission has a place of its own. -/
theorem nodup_targetPlaces : (targetPlaces files (project.emissionsIn dialect files pages)).Nodup := by
  have valid := (spec_of_pages hpages).1
  rw [emissionsIn_eq, targetPlaces, List.map_append, List.map_append]
  -- Each of the three parts has places of its own; between them names end differently or paths are too short.
  apply List.Nodup.append
  · exact nodup_targetPlaces_documentEmissionsIn valid
  · apply List.Nodup.append
    · exact nodup_targetPlaces_catalogueEmissionsIn
    · exact nodup_targetPlaces_pageEmissionsIn hpages
    · intro place hcatalogue hpage
      have hending := ending?_of_mem_pages hpages hpage
      rcases ending?_of_mem_catalogue hcatalogue with h | h
      · exact absurd (h.symm.trans hending) (by decide)
      · exact absurd (h.symm.trans hending) (by decide)
  · intro place hdocument hother
    obtain ⟨job, key, concerns, rfl⟩ := exists_of_mem_documents valid hdocument
    rcases List.mem_append.mp hother with hcatalogue | hpage
    · exact placeOf_outputPath_notMem_catalogue concerns hcatalogue
    · have hending := concerns.ending?_output files project.folders.generated
      exact absurd (hending.symm.trans (ending?_of_mem_pages hpages hpage)) (by decide)

end Valid

/-! ## Artifacts and sources -/

/-- The paths of the artifacts of a project: of every document, of the catalogue, and of every page if pages
are published. -/
def artifactPaths (project : Project) : List String :=
  (project.plannedJobs.map fun job => outputPath project.folders.generated job.id) ++
    (project.catalogueEmissions []).map Emission.target ++
    if project.settings.publishes then
      (Plan.allPages project.settings.plans).map fun page =>
        Path.join project.folders.website page.target
    else
      []

/-- Whether no artifact of a project takes the place of a source. -/
def KeepsApart (project : Project) (files : FileMap) : Prop :=
  ∀ artifact ∈ project.artifactPaths, ∀ source ∈ project.sourcePaths,
    files.placeOf artifact ≠ files.placeOf source

instance (project : Project) (files : FileMap) : Decidable (project.KeepsApart files) :=
  inferInstanceAs (Decidable (∀ artifact ∈ project.artifactPaths, ∀ source ∈ project.sourcePaths,
    files.placeOf artifact ≠ files.placeOf source))

/-- Pages are compiled from sources. -/
theorem mem_sourcePaths_of_mem_allPages (h : page ∈ Plan.allPages project.settings.plans) :
    Path.join project.folders.content page.source ∈ project.sourcePaths := by
  obtain ⟨plan, listed, ref, planned, rfl⟩ := Plan.mem_allPages_iff.mp h
  have hjob : (⟨plan.pageSource ref, .page, .ofChapter plan ref⟩ : Job) ∈
      Job.ofPlan (fun _ => true) plan := Job.mem_ofPlan_iff.mpr (.inl ⟨ref, planned, rfl⟩)
  exact List.mem_map.mpr ⟨_, List.mem_flatMap.mpr ⟨plan, listed, hjob⟩, rfl⟩

/-- The pages that are published are artifacts. -/
theorem mem_artifactPaths_of_mem_allPages (publishes : project.settings.publishes = true)
    (h : page ∈ Plan.allPages project.settings.plans) :
    Path.join project.folders.website page.target ∈ project.artifactPaths := by
  rw [artifactPaths, if_pos publishes]
  exact List.mem_append_right _ (List.mem_map.mpr ⟨page, h, rfl⟩)

/-- What a build emits are artifacts. -/
theorem mem_artifactPaths (hpages : project.pages = .ok pages) {emission : Emission}
    (h : emission ∈ project.emissionsIn dialect files pages) : emission.target ∈ project.artifactPaths := by
  rw [emissionsIn_eq, List.mem_append, List.mem_append] at h
  rcases h with hdocument | hcatalogue | hpage
  · obtain ⟨job, hjob, tree, _, rfl⟩ := mem_documentEmissionsIn_iff.mp hdocument
    apply List.mem_append_left
    apply List.mem_append_left
    exact List.mem_map.mpr ⟨job, mem_plannedJobs_of_mem_jobsIn hjob, rfl⟩
  · have htargets : (project.catalogueEmissionsIn dialect files).map Emission.target =
        (project.catalogueEmissions []).map Emission.target := rfl
    apply List.mem_append_left
    apply List.mem_append_right
    rw [← htargets]
    exact List.mem_map_of_mem hcatalogue
  · obtain ⟨publishes, page, listed, _, rfl⟩ := mem_pageEmissionsIn_iff.mp hpage
    exact mem_artifactPaths_of_mem_allPages publishes (mem_allPages hpages listed)

namespace KeepsApart

theorem of_alike (apart : project.KeepsApart files) {other : FileMap}
    (alike : FileMap.Alike files other) : project.KeepsApart other := by
  intro artifact hartifact source hsource
  rw [alike.placeOf_eq, alike.placeOf_eq]
  exact apart artifact hartifact source hsource

variable (apart : project.KeepsApart files) (hpages : project.pages = .ok pages)

include apart hpages

/-- Nothing is emitted into a source. -/
theorem notMem_targetPlaces {source : String} (h : source ∈ project.sourcePaths) :
    files.placeOf source ∉ targetPlaces files (project.emissionsIn dialect files pages) := by
  intro hplace
  obtain ⟨emission, hemission, hsame⟩ := List.mem_map.mp hplace
  exact apart emission.target (mem_artifactPaths hpages hemission) source h hsame

theorem emissions : Emission.Apart files (project.emissionsIn dialect files pages) where
  targets := nodup_targetPlaces hpages
  sources emission hemission source hsource := by
    apply apart.notMem_targetPlaces hpages
    rw [emissionsIn_eq, List.mem_append, List.mem_append] at hemission
    rcases hemission with hdocument | hcatalogue | hpage
    · obtain ⟨job, _, tree, _, rfl⟩ := mem_documentEmissionsIn_iff.mp hdocument
      cases hsource
    · simp only [catalogueEmissionsIn, catalogueEmissions, List.mem_cons, List.not_mem_nil,
        or_false] at hcatalogue
      rcases hcatalogue with rfl | rfl | rfl | rfl <;> cases hsource
    · obtain ⟨_, page, listed, _, rfl⟩ := mem_pageEmissionsIn_iff.mp hpage
      cases hsource
      exact mem_sourcePaths_of_mem_allPages (mem_allPages hpages listed)

end KeepsApart

/-! ## An example -/

/-- A course of two chapters. -/
def twoChapters : Project where
  root := "p"
  settings := ⟨.standard, none, true, true, [.lessons "v" [⟨"a", "a"⟩, ⟨"a", "b"⟩] []]⟩

/-- The page of the first of the two chapters, and the page of the second one if it has any. -/
def chapterFiles (second : Option String) : FileMap where
  bytes? place :=
    if place = ["p", "content", "math", "a", "chapters", "website.md"] then some "# A".toUTF8
    else if place = ["p", "content", "math", "a", "chapters", "b", "website.md"] then
      second.map String.toUTF8
    else none
  isReadable _ := true
  isWritable _ := true
  folder := []

end Project
end Courseware
