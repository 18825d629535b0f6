import Mathlib.Data.List.Basic
import Courseware.Proofs.Files.Emissions

/-!
# Emissions that lie apart

Emissions are carried out one after the other, each in the files that those before it have left. When their
targets lie in different places and none of them copies from the target of another, this makes no difference:
each finds the files of the start, and what it leaves at its target stays there. What is known of one emission
is then known of all of them, whether they are run dry or run again.
-/

namespace Courseware

namespace EmissionRecord

variable {outcome : WriteOutcome} {records : List EmissionRecord}

/-- A record, with another outcome in the place of `written`. -/
def withWritten (outcome : WriteOutcome) (record : EmissionRecord) : EmissionRecord :=
  ⟨record.target, Emission.withWritten outcome record.outcome⟩

theorem failures_map_withWritten :
    failures (records.map (withWritten outcome)) = failures records := by
  rw [failures, failures, List.filterMap_map]
  apply List.filterMap_congr
  intro record _
  obtain ⟨target, _ | found⟩ := record
  · rfl
  · cases found <;> rfl

/-- What was written is written no more. -/
theorem targets_written_map_withWritten (h : outcome ≠ .written) :
    targets .written (records.map (withWritten outcome)) = [] := by
  rw [targets, List.filterMap_map, List.filterMap_eq_nil_iff]
  intro record _
  obtain ⟨target, _ | found⟩ := record
  · rfl
  · cases found with
    | written => exact if_neg h
    | unchanged => rfl
    | pending => rfl

theorem targets_eq_nil_iff :
    targets outcome records = [] ↔ ∀ record ∈ records, record.outcome ≠ .ok outcome := by
  rw [targets, List.filterMap_eq_nil_iff]
  apply forall_congr'
  intro record
  apply imp_congr_right
  intro _
  obtain ⟨target, _ | found⟩ := record <;> simp

/-- What was written is pending, if nothing was pending before. -/
theorem targets_pending_map_withWritten (h : ∀ record ∈ records, record.outcome ≠ .ok .pending) :
    targets .pending (records.map (withWritten .pending)) = targets .written records := by
  rw [targets, targets, List.filterMap_map]
  apply List.filterMap_congr
  intro record hrecord
  obtain ⟨target, _ | found⟩ := record
  · rfl
  · cases found with
    | written => rfl
    | unchanged => rfl
    | pending => exact absurd rfl (h _ hrecord)

theorem targets_unchanged_map_withWritten :
    targets .unchanged (records.map (withWritten .pending)) = targets .unchanged records := by
  rw [targets, targets, List.filterMap_map]
  apply List.filterMap_congr
  intro record _
  obtain ⟨target, _ | found⟩ := record
  · rfl
  · cases found <;> rfl

/-- What was written is found unchanged, beside what was found unchanged before. -/
theorem perm_targets_unchanged_map_withWritten :
    (targets .unchanged (records.map (withWritten .unchanged))).Perm
      (targets .written records ++ targets .unchanged records) := by
  induction records with
  | nil => exact .nil
  | cons record rest ih =>
    obtain ⟨target, _ | found⟩ := record
    · exact ih
    · cases found with
      | written => exact ih.cons target
      | unchanged => exact (ih.cons target).trans List.perm_middle.symm
      | pending => exact ih

end EmissionRecord

namespace Emission

variable {dryRun : Bool} {files other : FileMap} {emission first : Emission} {emissions : List Emission}
  {place : List String}

/-! ## One after the other -/

/-- What becomes of emissions, one after the other. -/
def recordsIn (dryRun : Bool) (files : FileMap) : List Emission → List EmissionRecord
  | [] => []
  | first :: rest =>
    ⟨first.target, first.outcomeIn dryRun files⟩ :: recordsIn dryRun (first.after dryRun files) rest

/-- The files after emissions. -/
def afterAll (dryRun : Bool) (files : FileMap) (emissions : List Emission) : FileMap :=
  emissions.foldl (after dryRun) files

theorem runAll_run (dryRun : Bool) (files : FileMap) (emissions : List Emission) :
    (runAll dryRun emissions : StateM FileMap (List EmissionRecord)).run files =
      (recordsIn dryRun files emissions, afterAll dryRun files emissions) := by
  induction emissions generalizing files with
  | nil => rfl
  | cons first rest ih =>
    have hfirst : ((do return ⟨first.target, ← first.run dryRun⟩ :
        StateM FileMap EmissionRecord)).run files =
          (⟨first.target, first.outcomeIn dryRun files⟩, first.after dryRun files) := by
      rw [StateT.run_bind, run_eq]
      rfl
    rw [runAll, List.mapM_cons, StateT.run_bind, hfirst]
    have hrest := ih (first.after dryRun files)
    rw [runAll] at hrest
    change ((rest.mapM fun emission => do return ⟨emission.target, ← emission.run dryRun⟩) >>=
      fun records => pure (_ :: records) : StateM FileMap (List EmissionRecord)).run
        (first.after dryRun files) = _
    rw [StateT.run_bind, hrest]
    rfl

/-- The places at which emissions have their targets. -/
def targetPlaces (files : FileMap) (emissions : List Emission) : List (List String) :=
  emissions.map fun emission => files.placeOf emission.target

theorem targetPlaces_cons :
    targetPlaces files (first :: emissions) =
      files.placeOf first.target :: targetPlaces files emissions := rfl

theorem mem_targetPlaces (files : FileMap) (h : emission ∈ emissions) :
    files.placeOf emission.target ∈ targetPlaces files emissions :=
  List.mem_map_of_mem h

theorem targetPlaces_of_alike (alike : FileMap.Alike files other) :
    targetPlaces other emissions = targetPlaces files emissions :=
  List.map_congr_left fun _ _ => alike.placeOf_eq _

theorem alike_afterAll (dryRun : Bool) (files : FileMap) (emissions : List Emission) :
    FileMap.Alike files (afterAll dryRun files emissions) := by
  induction emissions generalizing files with
  | nil => exact FileMap.Alike.refl files
  | cons first rest ih => exact (alike_after dryRun files first).trans (ih (first.after dryRun files))

/-- Where no target is, nothing changes. -/
theorem bytes?_afterAll_of_notMem (h : place ∉ targetPlaces files emissions) :
    (afterAll dryRun files emissions).bytes? place = files.bytes? place := by
  induction emissions generalizing files with
  | nil => rfl
  | cons first rest ih =>
    obtain ⟨hfirst, hrest⟩ := List.ne_and_not_mem_of_not_mem_cons (targetPlaces_cons ▸ h)
    rw [← targetPlaces_of_alike (alike_after dryRun files first)] at hrest
    exact (ih hrest).trans (bytes?_after_of_ne hfirst)

/-- Emissions of which none writes leave the files as they are. -/
theorem afterAll_eq (h : ∀ emission ∈ emissions, emission.outcomeIn dryRun files ≠ .ok .written) :
    afterAll dryRun files emissions = files := by
  induction emissions with
  | nil => rfl
  | cons first rest ih =>
    obtain ⟨hfirst, hrest⟩ := List.forall_mem_cons.mp h
    rw [afterAll, List.foldl_cons]
    rcases after_cases dryRun files first with ⟨_, _, hwritten, _⟩ | ⟨_, hafter⟩
    · exact absurd hwritten hfirst
    · rw [hafter]
      exact ih hrest

/-- A dry run leaves the files as they are. -/
theorem afterAll_true : afterAll true files emissions = files :=
  afterAll_eq fun _ _ => outcomeIn_true_ne_written

/-! ## Apart -/

/-- Whether the targets of emissions lie in different places, and none is a source. -/
structure Apart (files : FileMap) (emissions : List Emission) : Prop where
  targets : (targetPlaces files emissions).Nodup
  sources : ∀ emission ∈ emissions, ∀ source, emission.source? = some source →
    files.placeOf source ∉ targetPlaces files emissions

/-- What an emission finds is not changed by others whose targets are neither its target nor its source. -/
theorem findsSame_afterAll (dryRun : Bool)
    (target : files.placeOf emission.target ∉ targetPlaces files emissions)
    (source : ∀ source, emission.source? = some source →
      files.placeOf source ∉ targetPlaces files emissions) :
    emission.FindsSame files (afterAll dryRun files emissions) where
  alike := alike_afterAll dryRun files emissions
  target := bytes?_afterAll_of_notMem target
  source path hpath := bytes?_afterAll_of_notMem (source path hpath)

theorem recordsIn_append {before after : List Emission} :
    recordsIn dryRun files (before ++ after) =
      recordsIn dryRun files before ++ recordsIn dryRun (afterAll dryRun files before) after := by
  induction before generalizing files with
  | nil => rfl
  | cons first rest ih =>
    rw [List.cons_append, recordsIn, ih]
    rfl

/-- Among emissions with targets in different places, one that copies from no target is carried out as if it
were alone, and what it leaves at its target stays there. -/
theorem spec_of_mem (dryRun : Bool) (targets : (targetPlaces files emissions).Nodup)
    (hemission : emission ∈ emissions)
    (source : ∀ source, emission.source? = some source →
      files.placeOf source ∉ targetPlaces files emissions) :
    ⟨emission.target, emission.outcomeIn dryRun files⟩ ∈ recordsIn dryRun files emissions ∧
      (afterAll dryRun files emissions).bytes? (files.placeOf emission.target) =
        (emission.after dryRun files).bytes? (files.placeOf emission.target) := by
  -- Those before it leave what it finds, and those after it leave what it has put at its target.
  obtain ⟨before, later, rfl⟩ := List.append_of_mem hemission
  have hplaces : targetPlaces files (before ++ emission :: later) =
      targetPlaces files before ++ files.placeOf emission.target :: targetPlaces files later :=
    List.map_append
  rw [hplaces] at targets source
  obtain ⟨_, hrest, hdisjoint⟩ := List.nodup_append.mp targets
  have hbefore : files.placeOf emission.target ∉ targetPlaces files before :=
    fun h => hdisjoint _ h _ List.mem_cons_self rfl
  have hlater : files.placeOf emission.target ∉ targetPlaces files later :=
    (List.nodup_cons.mp hrest).1
  have same : emission.FindsSame files (afterAll dryRun files before) :=
    findsSame_afterAll dryRun hbefore fun path hpath h =>
      source path hpath (List.mem_append_left _ h)
  constructor
  · rw [recordsIn_append, recordsIn, same.outcomeIn_eq]
    exact List.mem_append_right _ List.mem_cons_self
  · have alike := same.alike.trans (alike_after dryRun (afterAll dryRun files before) emission)
    rw [← targetPlaces_of_alike alike] at hlater
    rw [← same.bytes?_after_eq, afterAll, List.foldl_append, List.foldl_cons]
    exact bytes?_afterAll_of_notMem hlater

/-- An emission that finds the same in two maps of files leaves the same at its target, whatever else is
emitted into each of them. -/
theorem bytes?_afterAll_eq (dryRun : Bool) {otherEmissions : List Emission}
    (same : emission.FindsSame files other) (targets : (targetPlaces files emissions).Nodup)
    (otherTargets : (targetPlaces other otherEmissions).Nodup)
    (hemission : emission ∈ emissions) (hother : emission ∈ otherEmissions)
    (source : ∀ source, emission.source? = some source →
      files.placeOf source ∉ targetPlaces files emissions ∧
        other.placeOf source ∉ targetPlaces other otherEmissions) :
    (afterAll dryRun other otherEmissions).bytes? (files.placeOf emission.target) =
      (afterAll dryRun files emissions).bytes? (files.placeOf emission.target) := by
  have hfirst := (spec_of_mem dryRun targets hemission fun path hpath => (source path hpath).1).2
  have hsecond := (spec_of_mem dryRun otherTargets hother fun path hpath => (source path hpath).2).2
  rw [same.alike.placeOf_eq] at hsecond
  rw [hfirst, hsecond, same.bytes?_after_eq]

namespace Apart

theorem of_alike (apart : Apart files emissions) (alike : FileMap.Alike files other) :
    Apart other emissions where
  targets := by
    rw [targetPlaces_of_alike alike]
    exact apart.targets
  sources := by
    simp only [targetPlaces_of_alike alike, alike.placeOf_eq]
    exact apart.sources

theorem notMem_tail (apart : Apart files (first :: emissions)) :
    files.placeOf first.target ∉ targetPlaces files emissions :=
  (List.nodup_cons.mp apart.targets).1

theorem tail (apart : Apart files (first :: emissions)) : Apart files emissions where
  targets := (List.nodup_cons.mp apart.targets).2
  sources emission hemission source hsource h :=
    apart.sources emission (List.mem_cons_of_mem _ hemission) source hsource
      (List.mem_cons_of_mem _ h)

/-- The others do not notice the first emission. -/
theorem findsSame_of_mem (apart : Apart files (first :: emissions)) (h : emission ∈ emissions) :
    emission.FindsSame files (first.after dryRun files) := by
  apply FindsSame.of_after
  · intro same
    apply apart.notMem_tail
    rw [← same]
    exact mem_targetPlaces files h
  · intro source hsource same
    apply apart.sources emission (List.mem_cons_of_mem _ h) source hsource
    rw [same]
    exact mem_targetPlaces files List.mem_cons_self

/-- Each emission finds the files of the start. -/
theorem recordsIn_eq (apart : Apart files emissions) :
    recordsIn dryRun files emissions =
      emissions.map fun emission => ⟨emission.target, emission.outcomeIn dryRun files⟩ := by
  induction emissions generalizing files with
  | nil => rfl
  | cons first rest ih =>
    -- The others are apart in the files that the first one leaves, and find there what they find at the start.
    rw [recordsIn, List.map_cons, ih (apart.tail.of_alike (alike_after dryRun files first))]
    congr 1
    apply List.map_congr_left
    intro emission h
    rw [(apart.findsSame_of_mem h).outcomeIn_eq]

/-- Emissions do not copy from their own targets. -/
theorem source_ne (apart : Apart files emissions) (h : emission ∈ emissions) {source : String}
    (hsource : emission.source? = some source) :
    files.placeOf source ≠ files.placeOf emission.target := by
  intro same
  apply apart.sources emission h source hsource
  rw [same]
  exact mem_targetPlaces files h

/-- After all emissions, each of them finds done what it has done. -/
theorem outcomeIn_afterAll (apart : Apart files emissions) (h : emission ∈ emissions) :
    emission.outcomeIn dryRun (afterAll dryRun files emissions) =
      withWritten .unchanged (emission.outcomeIn dryRun files) := by
  -- After all emissions it finds what it would find if it alone had been carried out.
  have same : emission.FindsSame (emission.after dryRun files) (afterAll dryRun files emissions) := by
    have hplace := (alike_after dryRun files emission).placeOf_eq
    refine ⟨(alike_after dryRun files emission).symm.trans (alike_afterAll dryRun files emissions), ?_,
      fun source hsource => ?_⟩
    · rw [hplace]
      exact (spec_of_mem dryRun apart.targets h (apart.sources emission h)).2
    · rw [hplace, bytes?_afterAll_of_notMem (apart.sources emission h source hsource),
        bytes?_after_of_ne (apart.source_ne h hsource)]
  rw [same.outcomeIn_eq]
  apply outcomeIn_after
  intro source hsource
  exact apart.source_ne h hsource

/-- A second run finds unchanged what the first has written. -/
theorem recordsIn_afterAll (apart : Apart files emissions) :
    recordsIn dryRun (afterAll dryRun files emissions) emissions =
      (recordsIn dryRun files emissions).map (EmissionRecord.withWritten .unchanged) := by
  rw [apart.recordsIn_eq, (apart.of_alike (alike_afterAll dryRun files emissions)).recordsIn_eq,
    List.map_map]
  apply List.map_congr_left
  intro emission h
  rw [apart.outcomeIn_afterAll h]
  rfl

/-- A second run leaves the files as the first has left them. -/
theorem afterAll_afterAll (apart : Apart files emissions) :
    afterAll dryRun (afterAll dryRun files emissions) emissions = afterAll dryRun files emissions := by
  apply afterAll_eq
  intro emission h
  rw [apart.outcomeIn_afterAll h]
  cases emission.outcomeIn dryRun files with
  | error problem => exact fun h => nomatch h
  | ok found => cases found <;> exact fun h => nomatch h

/-- Emissions leave the files as they are exactly when none of them is written. -/
theorem targets_written_eq_nil_iff (apart : Apart files emissions) :
    EmissionRecord.targets .written (recordsIn dryRun files emissions) = [] ↔
      afterAll dryRun files emissions = files := by
  rw [EmissionRecord.targets_eq_nil_iff, apart.recordsIn_eq, List.forall_mem_map]
  refine ⟨afterAll_eq, fun same emission h hwritten => ?_⟩
  have hbytes := (spec_of_mem dryRun apart.targets h (apart.sources emission h)).2
  rw [same] at hbytes
  rcases after_cases dryRun files emission with ⟨bytes, _, _, hafter, _, hne⟩ | ⟨hnot, _⟩
  · rw [hafter, FileMap.bytes?_put_self] at hbytes
    exact hne hbytes
  · exact hnot hwritten

/-- A dry run reports as pending what a real one writes, where writing succeeds. -/
theorem recordsIn_true (apart : Apart files emissions)
    (writable : ∀ place, files.isWritable place = true) :
    recordsIn true files emissions =
      (recordsIn false files emissions).map (EmissionRecord.withWritten .pending) := by
  rw [apart.recordsIn_eq, apart.recordsIn_eq, List.map_map]
  apply List.map_congr_left
  intro emission _
  rw [outcomeIn_true (writable _)]
  rfl

end Apart

/-- A real run leaves nothing pending. -/
theorem ne_pending_of_mem_recordsIn {record : EmissionRecord}
    (h : record ∈ recordsIn false files emissions) : record.outcome ≠ .ok .pending := by
  induction emissions generalizing files with
  | nil => exact absurd h List.not_mem_nil
  | cons first rest ih =>
    rcases List.mem_cons.mp h with rfl | h
    · exact outcomeIn_false_ne_pending
    · exact ih h

end Emission
end Courseware
