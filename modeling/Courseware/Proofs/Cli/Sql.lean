import Courseware.Proofs.Cli.Check
import Courseware.Proofs.Course.Catalogue
import Courseware.Proofs.Course.Script
import Courseware.Proofs.Files.Emitter
import Courseware.Proofs.Project.Isolation

/-!
# The script that is printed and the script that is emitted

The script that registers the courses is printed by a command that reads no document, and emitted by a build whose
catalogue has the titles of the documents that compiled. Titles are labels only, so both are one text.

What the script says of a course it takes from the first chapter of the first topic in the catalogue. The catalogue
has the chapters by topic, but a group is opened by its first chapter and stands where it was opened: so this is the
first chapter of the plan.
-/

namespace Courseware

/-- The first chapter of a plan opens its first topic. -/
theorem Plan.exists_topics_eq_cons {plan : Plan} {first : ChapterRef} {rest : List ChapterRef}
    (h : plan.chapters = first :: rest) :
    ∃ refs groups, plan.topics = (first.topic, first :: refs) :: groups := by
  obtain ⟨holds, order⟩ := plan.holds_topics
  rw [h, List.map_cons, List.eraseDups_cons] at order
  obtain ⟨⟨topic, refs⟩, groups, htopics⟩ : ∃ group groups, plan.topics = group :: groups := by
    apply List.exists_cons_of_ne_nil
    intro hnone
    rw [hnone] at order
    cases order
  rw [htopics, List.map_cons] at order
  obtain rfl : topic = first.topic := (List.cons.inj order).1
  have hrefs := holds.values (first.topic, refs) (htopics ▸ List.mem_cons_self)
  have hrefs : refs = first :: rest.filter fun ref => ref.topic = first.topic := by
    simpa [h] using hrefs
  exact ⟨_, groups, htopics.trans (congrArg (fun refs => (first.topic, refs) :: groups) hrefs)⟩

namespace SqlScript

/-- How a statement registers the course of a plan: with its id, the topic and the name of its first chapter, and the
date until which registration is open, if there is one. -/
structure Registers (plan : Plan) (statement : Insertion) : Prop where
  table : statement.table = "courses"
  columns : statement.columns =
    ["course_id", "current_topic_id", "current_chapter_id", "registration_open_until"]
  key : statement.key = "course_id"
  values : ∃ first rest, plan.chapters = first :: rest ∧
    statement.values =
      [some plan.id, some first.topic, some first.chapter, plan.registrationOpenUntil]

variable {titles : PageTitles} {plan : Plan} {plans : List Plan}

/-- What is registered for the course of a plan is taken from its first chapter. -/
theorem values_ofPlan {first : ChapterRef} {rest : List ChapterRef} (h : plan.chapters = first :: rest) :
    values (Course.ofPlan titles plan) =
      [some plan.id, some first.topic, some first.chapter, plan.registrationOpenUntil] := by
  obtain ⟨refs, groups, htopics⟩ := Plan.exists_topics_eq_cons h
  have hcurrent : (Course.ofPlan titles plan).current? =
      some (CourseTopic.ofGroup titles plan first.topic (first :: refs),
        CourseChapter.ofRef titles plan first) := by
    rw [Course.current?, Course.ofPlan, htopics]
    rfl
  rw [values, hcurrent]
  rfl

theorem registers_insertion (sound : plan.Sound) :
    Registers plan (insertion (Course.ofPlan titles plan)) := by
  obtain ⟨first, rest, h⟩ := List.exists_cons_of_ne_nil sound.taught
  exact ⟨rfl, rfl, rfl, first, rest, h, values_ofPlan h⟩

/-- A script has one statement for each course, in their order. -/
theorem statements_ofCourses (courses : List Course) :
    read? (ofCourses courses) = some (courses.map insertion) := by
  rw [read?, tokens?_ofCourses]
  simp only [Option.bind_eq_bind, Option.bind_some, splitOnP_flatMap]
  rw [if_pos List.getLast?_concat, List.dropLast_concat]
  exact mapM_ofTokens? courses

/-- The statements of valid plans register their courses. -/
theorem registers_catalogue (valid : Plan.validate plans = .ok ()) :
    List.Forall₂ Registers plans ((Course.catalogue titles plans).map insertion) := by
  have sound := (Plan.validate_eq_ok_iff.mp valid).1
  rw [Course.catalogue, List.map_map, List.forall₂_map_right_iff, List.forall₂_same]
  exact fun plan hplan => registers_insertion (sound plan hplan)

end SqlScript

/-- A text that is emitted to a place of its own is there afterwards, unless a failure is reported. -/
theorem Emission.bytes?_afterAll_of_succeeds {files : FileMap} {emissions : List Emission} {path : String}
    {content : Text} (targets : (targetPlaces files emissions).Nodup)
    (hmem : .text path content ∈ emissions)
    (succeeds : ∀ problem,
      (path, problem) ∉ EmissionRecord.failures (recordsIn false files emissions)) :
    (afterAll false files emissions).bytes? (files.placeOf path) = some content.bytes := by
  obtain ⟨hrecord, hbytes⟩ := spec_of_mem false targets hmem fun _ h => nomatch h
  have does := EmitterCall.does_call false files (.text path content)
  cases houtcome : (text path content).outcomeIn false files with
  | error problem =>
    have hfailure : (path, problem) ∈ EmissionRecord.failures (recordsIn false files emissions) :=
      List.mem_filterMap.mpr ⟨_, hrecord, by rw [houtcome]; rfl⟩
    exact absurd hfailure (succeeds problem)
  | ok found =>
    rw [houtcome] at does
    obtain ⟨bytes, hcall⟩ := does.exists_succeeds
    obtain rfl : content.bytes = bytes := Except.ok.inj hcall.available
    exact hbytes.trans (does.bytes?_eq hcall)

namespace Project

variable {dialect : Markdown.Dialect} {project : Project} {files after : FileMap} {report : BuildReport}

/-- The path of the script. -/
def scriptPath (project : Project) : String := Path.join project.folders.scripts "courses.sql"

/-- The script is among what is emitted, whatever has become of the documents. -/
theorem mem_emissions_script (project : Project) (titles : PageTitles) (pages : List Publication)
    (compilations : List Compilation) :
    .text project.scriptPath (SqlScript.ofCourses (Course.catalogue titles project.settings.plans)) ∈
      project.emissions pages compilations := by
  rw [SqlScript.ofCourses_catalogue (Compilation.titles compilations) titles]
  apply List.mem_append_left
  apply List.mem_append_right
  exact List.mem_cons_of_mem _ (List.mem_cons_of_mem _ List.mem_cons_self)

/-- After a build that does not report a failure of the script, the file holds the script. -/
theorem bytes?_script_of_build (titles : PageTitles)
    (built : (project.build dialect false : StateM FileMap (Except Problem BuildReport)).run files =
      (.ok report, after))
    (succeeds : ∀ problem, (project.scriptPath, problem) ∉ EmissionRecord.failures report.records) :
    after.bytes? (files.placeOf project.scriptPath) =
      some (SqlScript.ofCourses (Course.catalogue titles project.settings.plans)).bytes := by
  obtain ⟨pages, hpages, rfl, rfl⟩ := spec_of_build built
  exact Emission.bytes?_afterAll_of_succeeds (nodup_targetPlaces hpages)
    (mem_emissions_script project titles pages (project.compilationsIn dialect files)) succeeds

end Project

namespace Cli

/-- What the command that prints the script does on a project that is valid. -/
theorem run_sql {readers : Readers} {request : Request} (hcommand : request.command = some .sql)
    (workingFolder : String) (noColor : Bool) {files : FileMap} {project : Project}
    (hload : ((Project.load readers.settings (request.root.getD workingFolder) :
      StateM FileMap (Except Problem Project)).run files).1 = .ok project)
    (valid : project.settings.validate = .ok ()) :
    (request.run readers workingFolder noColor : StateM FileMap Transcript).run files =
      ({ Transcript.ofOutput (String.ofList (SqlScript.ofCourses (project.courses []))) with
          isColored := request.isColored noColor }, files) := by
  have hinner := @runIn_run readers (request.isColored noColor) request
    (request.root.getD workingFolder) .sql files
  rw [hload] at hinner
  simp only [valid] at hinner
  rw [Request.run, hcommand]
  simp only
  rw [StateT.run_bind, hinner]
  rfl

/-- The script does not depend on titles, and its statements register the courses of valid plans, one for each plan and
in their order. So the command that prints it needs no document: it prints what a build of the project emits, whatever
becomes of the documents, and what the file holds after any build that does not report a failure of this file. -/
theorem sql_prints_script (readers : Readers) :
    (∀ plans, Plan.validate plans = .ok () → ∀ titles,
      (∀ other, SqlScript.ofCourses (Course.catalogue other plans) =
        SqlScript.ofCourses (Course.catalogue titles plans)) ∧
      ∃ statements, SqlScript.read? (SqlScript.ofCourses (Course.catalogue titles plans)) =
          some statements ∧
        List.Forall₂ SqlScript.Registers plans statements) ∧
    ∀ (request : Request) (workingFolder : String) (noColor : Bool) (files : FileMap) (project : Project),
      request.command = some .sql →
      ((Project.load readers.settings (request.root.getD workingFolder) :
        StateM FileMap (Except Problem Project)).run files).1 = .ok project →
      project.settings.validate = .ok () →
      let sql := (request.run readers workingFolder noColor : StateM FileMap Transcript).run files
      sql.1.status = 0 ∧ sql.1.notices = [] ∧ sql.2 = files ∧
        (∀ titles, sql.1.output =
          String.ofList (SqlScript.ofCourses (Course.catalogue titles project.settings.plans))) ∧
        (∀ pages compilations,
          .text project.scriptPath sql.1.output.toList ∈ project.emissions pages compilations) ∧
        ∀ sources report after,
          (project.build readers.markdown false :
            StateM FileMap (Except Problem BuildReport)).run sources = (.ok report, after) →
          (∀ problem, (project.scriptPath, problem) ∉ EmissionRecord.failures report.records) →
          after.bytes? (sources.placeOf project.scriptPath) = some sql.1.output.toUTF8 := by
  constructor
  · intro plans valid titles
    exact ⟨fun other => SqlScript.ofCourses_catalogue titles other plans, _,
      SqlScript.statements_ofCourses _, SqlScript.registers_catalogue valid⟩
  · intro request workingFolder noColor files project hcommand hload valid sql
    have hsql := run_sql hcommand workingFolder noColor hload valid
    have houtput : ∀ titles, sql.1.output =
        String.ofList (SqlScript.ofCourses (Course.catalogue titles project.settings.plans)) := by
      intro titles
      rw [SqlScript.ofCourses_catalogue (Compilation.titles []) titles]
      exact congrArg (fun result => result.1.output) hsql
    refine ⟨congrArg (fun result => result.1.status) hsql, congrArg (fun result => result.1.notices) hsql,
      congrArg Prod.snd hsql, houtput, fun pages compilations => ?_,
      fun sources report after built succeeds => ?_⟩
    · rw [houtput fun _ => none, String.toList_ofList]
      exact project.mem_emissions_script _ pages compilations
    · rw [houtput fun _ => none]
      exact Project.bytes?_script_of_build _ built succeeds

/-- The project whose files are `oneChapter`. -/
def oneChapterProject : Project where
  root := ""
  settings := ⟨.standard, none, true, true, [.lessons "v" [⟨"a", "a"⟩] []]⟩

/-- The first plan of `Course.twoListed` comes back to its first topic, and is registered with its first chapter. A
project with one chapter is printed as it is built. -/
theorem sql_prints_script_oneChapter :
    (∃ first rest, SqlScript.read? (SqlScript.ofCourses
        (Course.catalogue (fun _ => some "Title") Course.twoListed)) = some (first :: rest) ∧
      first.values = [some "g-a", some "t", some "t", none]) ∧
    ∃ report after, (oneChapterProject.build .gfm false :
        StateM FileMap (Except Problem BuildReport)).run oneChapter = (.ok report, after) ∧
      oneChapter.bytes? ["scripts", "courses.sql"] = none ∧
      after.bytes? ["scripts", "courses.sql"] =
        some ((Request.run .standard ⟨some .sql, none, false, false⟩ "" true :
          StateM FileMap Transcript).run oneChapter).1.output.toUTF8 := by
  obtain ⟨registers, prints⟩ := sql_prints_script .standard
  constructor
  · obtain ⟨-, statements, hread, hall⟩ :=
      registers Course.twoListed (by decide) fun _ => some "Title"
    cases hall with
    | @cons _ first _ rest hfirst _ =>
      obtain ⟨ref, refs, hchapters, hvalues⟩ := hfirst.values
      obtain ⟨rfl, -⟩ := List.cons.inj hchapters
      exact ⟨first, rest, hread, hvalues⟩
  · have hload : ((Project.load Toml.parse? "" : StateM FileMap (Except Problem Project)).run oneChapter).1 =
        .ok oneChapterProject := by
      decide +kernel
    have hfailures : ((oneChapterProject.build .gfm false :
        StateM FileMap (Except Problem BuildReport)).run oneChapter).1.map
          (fun report => EmissionRecord.failures report.records) = .ok [] := by
      decide +kernel
    obtain ⟨report, hreport, hnone⟩ := exists_of_map_eq_ok hfailures
    obtain ⟨-, -, -, -, -, hfile⟩ := prints ⟨some .sql, none, false, false⟩ "" true oneChapter
      oneChapterProject rfl hload (by decide +kernel)
    have hplace : oneChapter.placeOf oneChapterProject.scriptPath = ["scripts", "courses.sql"] := by
      decide +kernel
    cases hbuild : (oneChapterProject.build .gfm false :
        StateM FileMap (Except Problem BuildReport)).run oneChapter with
    | mk result after =>
      rw [hbuild] at hreport
      obtain rfl : result = .ok report := hreport
      have hscript := hfile oneChapter report after hbuild fun problem hmem => by
        rw [hnone] at hmem
        exact List.not_mem_nil hmem
      rw [hplace] at hscript
      exact ⟨report, after, rfl, rfl, hscript⟩

end Cli
end Courseware
