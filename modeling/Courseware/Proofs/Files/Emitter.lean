import Mathlib.Data.List.Induction
import Courseware.Proofs.Files.Emissions

/-!
# The emitter accounts for every call

What a build emits is known when it starts: texts, and copies of files. The emitter as such takes any calls,
one after the other, with any bytes, with values that have no serial form, for targets that it has been given
before, and with sources that it has written itself. What a call does then depends on the calls before it.

`Accounts` says what a report means, with one rule for each place where a call can be recorded: the rule looks at
the files that the calls before have left. What one call does is said once (`EmitterCall.does_run`), and what each
call keeps holds of a whole run (`EmitterCall.run_induction`). So a report accounts for its calls, and a file that
has been written holds what the last call for it has put there that succeeded (`EmitterCall.IsLast`).
-/

namespace Courseware

/-- A call of the emitter: to put bytes into a target, or the serial form of a value if it has one, or the bytes
of another file. -/
inductive EmitterCall
  | emit (target : String) (bytes : ByteArray)
  | emitJson (target : String) (serialized : Except Problem ByteArray)
  | copy (target : String) (source : String)

/-- What an emitter reports: the targets that were written and those that are pending, how many calls found their
target unchanged, and the targets that failed. -/
structure EmitterReport where
  written : List String
  pending : List String
  unchanged : Nat
  failures : List (String × Problem)

namespace EmitterReport

/-- What is reported of records. -/
def ofRecords (records : List EmissionRecord) : EmitterReport where
  written := EmissionRecord.targets .written records
  pending := EmissionRecord.targets .pending records
  unchanged := (EmissionRecord.targets .unchanged records).length
  failures := EmissionRecord.failures records

/-- The report with what has become of one target more. -/
def add (report : EmitterReport) (target : String) : Except Problem WriteOutcome → EmitterReport
  | .ok .written => { report with written := report.written ++ [target] }
  | .ok .pending => { report with pending := report.pending ++ [target] }
  | .ok .unchanged => { report with unchanged := report.unchanged + 1 }
  | .error problem => { report with failures := report.failures ++ [(target, problem)] }

theorem ofRecords_concat (records : List EmissionRecord) (record : EmissionRecord) :
    ofRecords (records ++ [record]) = (ofRecords records).add record.target record.outcome := by
  obtain ⟨target, problem | found⟩ := record
  · simp [ofRecords, add, EmissionRecord.targets, EmissionRecord.failures]
  · cases found <;> simp [ofRecords, add, EmissionRecord.targets, EmissionRecord.failures]

end EmitterReport

/-- The call that carries out an emission. -/
def Emission.call : Emission → EmitterCall
  | text target content => .emit target content.bytes
  | copy target source => .copy target source

namespace EmitterCall

/-- The file that a call is for. -/
def target : EmitterCall → String
  | emit target _ | emitJson target _ | copy target _ => target

section Run

variable {m : Type → Type} [Monad m] [FileAccess m]

/-- Carry out a call. -/
def run (dryRun : Bool) (call : EmitterCall) : m (Except Problem WriteOutcome) := do
  match call with
  | emit target bytes => writeIfChanged dryRun target bytes
  | emitJson target (.ok bytes) => writeIfChanged dryRun target bytes
  | emitJson _ (.error problem) => return .error problem
  | copy target source =>
    match ← FileAccess.read source with
    | .ok bytes => writeIfChanged dryRun target bytes
    | .error _ => return .error (.notWritten source)

/-- Carry out calls in order. -/
def runAll (dryRun : Bool) (calls : List EmitterCall) : m (List EmissionRecord) :=
  calls.mapM fun call => do
    return ⟨call.target, ← call.run dryRun⟩

theorem run_call (dryRun : Bool) (emission : Emission) :
    (emission.call.run dryRun : m (Except Problem WriteOutcome)) = emission.run dryRun := by
  cases emission <;> rfl

/-- To carry out emissions is to carry out their calls. -/
theorem runAll_map_call [LawfulMonad m] (dryRun : Bool) (emissions : List Emission) :
    (runAll dryRun (emissions.map Emission.call) : m (List EmissionRecord)) =
      Emission.runAll dryRun emissions := by
  have htarget : ∀ emission : Emission, emission.call.target = emission.target := by
    intro emission
    cases emission <;> rfl
  simp only [runAll, Emission.runAll, List.mapM_map, Function.comp_def, run_call, htarget]

end Run

/-- The report of calls that start in some files. -/
def reportOf (dryRun : Bool) (files : FileMap) (calls : List EmitterCall) : EmitterReport :=
  .ofRecords ((runAll dryRun calls : StateM FileMap (List EmissionRecord)).run files).1

/-- The files that calls leave. -/
def filesAfter (dryRun : Bool) (files : FileMap) (calls : List EmitterCall) : FileMap :=
  ((runAll dryRun calls : StateM FileMap (List EmissionRecord)).run files).2

/-! ## One call -/

/-- The bytes that a call is to put into its target. -/
def bytesIn (files : FileMap) : EmitterCall → Except Problem ByteArray
  | emit _ bytes => .ok bytes
  | emitJson _ serialized => serialized
  | copy _ source =>
    match files.read source with
    | .ok bytes => .ok bytes
    | .error _ => .error (.notWritten source)

/-- What a call reports when it fails. -/
def blame (files : FileMap) (call : EmitterCall) : Problem :=
  match call.bytesIn files with
  | .ok _ => .notWritten call.target
  | .error problem => problem

/-- When a call succeeds with some bytes: they are the ones it is to put into its target, the target can be read,
and it holds them already, or it can be written, or it is not to be written since the run is dry. -/
structure SucceedsWith (dryRun : Bool) (files : FileMap) (call : EmitterCall) (bytes : ByteArray) :
    Prop where
  available : call.bytesIn files = .ok bytes
  readable : files.isReadable (files.placeOf call.target) = true
  writable : files.bytes? (files.placeOf call.target) = some bytes ∨ dryRun = true ∨
    files.isWritable (files.placeOf call.target) = true

/-- What a call does: what becomes of its target, and the files that it leaves. -/
inductive Does (dryRun : Bool) (files : FileMap) (call : EmitterCall) :
    Except Problem WriteOutcome → FileMap → Prop
  | writes {bytes : ByteArray} (real : dryRun = false) (succeeds : SucceedsWith dryRun files call bytes)
      (differs : files.bytes? (files.placeOf call.target) ≠ some bytes) :
      Does dryRun files call (.ok .written) (files.put call.target bytes)
  | postpones {bytes : ByteArray} (dry : dryRun = true) (succeeds : SucceedsWith dryRun files call bytes)
      (differs : files.bytes? (files.placeOf call.target) ≠ some bytes) :
      Does dryRun files call (.ok .pending) files
  | keeps {bytes : ByteArray} (succeeds : SucceedsWith dryRun files call bytes)
      (holds : files.bytes? (files.placeOf call.target) = some bytes) :
      Does dryRun files call (.ok .unchanged) files
  | fails (fails : ∀ bytes, ¬SucceedsWith dryRun files call bytes) :
      Does dryRun files call (.error (call.blame files)) files

variable {dryRun : Bool} {files : FileMap} {call : EmitterCall} {calls : List EmitterCall}
  {bytes : ByteArray} {place : List String}

/-- A target that can be read and does not hold some bytes is to change. -/
theorem outcomeAt_eq_changeAt {path : String} (readable : files.isReadable (files.placeOf path) = true)
    (differs : files.bytes? (files.placeOf path) ≠ some bytes) :
    Emission.outcomeAt dryRun files path bytes = Emission.changeAt dryRun files path := by
  rw [Emission.outcomeAt, FileMap.read, if_pos readable]
  cases hpresent : files.bytes? (files.placeOf path) with
  | none => rfl
  | some present =>
    have hdata : ¬present.data = bytes.data := fun same =>
      differs (hpresent.trans (congrArg some (ByteArray.ext same)))
    exact if_neg hdata

/-- What a call does that has its bytes. It comes down to whether the target can be read, whether it holds
the bytes already, whether the run is dry, and whether the target can be written. -/
theorem does_writeIfChanged (hbytes : call.bytesIn files = .ok bytes) :
    Does dryRun files call (Emission.outcomeAt dryRun files call.target bytes)
      (Emission.written files call.target bytes
        (Emission.outcomeAt dryRun files call.target bytes)) := by
  have hblame : call.blame files = .notWritten call.target := by rw [blame, hbytes]
  by_cases readable : files.isReadable (files.placeOf call.target) = true
  · by_cases holds : files.bytes? (files.placeOf call.target) = some bytes
    · have houtcome : Emission.outcomeAt dryRun files call.target bytes = .ok .unchanged := by
        simp [Emission.outcomeAt, FileMap.read, readable, holds]
      rw [houtcome]
      exact .keeps ⟨hbytes, readable, .inl holds⟩ holds
    · rw [outcomeAt_eq_changeAt readable holds, Emission.changeAt]
      cases dryRun with
      | true => exact .postpones rfl ⟨hbytes, readable, .inr (.inl rfl)⟩ holds
      | false =>
        rw [if_neg Bool.false_ne_true]
        by_cases writable : files.isWritable (files.placeOf call.target) = true
        · rw [if_pos writable]
          exact .writes rfl ⟨hbytes, readable, .inr (.inr writable)⟩ holds
        · rw [if_neg writable, ← hblame]
          refine .fails fun found succeeds => ?_
          obtain rfl : found = bytes := Except.ok.inj (succeeds.available.symm.trans hbytes)
          rcases succeeds.writable with h | h | h
          · exact holds h
          · exact Bool.false_ne_true h
          · exact writable h
  · have houtcome : Emission.outcomeAt dryRun files call.target bytes =
        .error (.notWritten call.target) := by
      rw [Emission.outcomeAt, FileMap.read, if_neg readable]
    rw [houtcome, ← hblame]
    exact .fails fun _ succeeds => readable succeeds.readable

/-- A call fails when its bytes cannot be had. -/
theorem does_nothing {problem : Problem} (h : call.bytesIn files = .error problem) :
    Does dryRun files call (.error problem) files := by
  have hblame : call.blame files = problem := by rw [blame, h]
  rw [← hblame]
  exact .fails fun _ succeeds => nomatch h.symm.trans succeeds.available

theorem does_run (dryRun : Bool) (files : FileMap) (call : EmitterCall) :
    Does dryRun files call ((call.run dryRun : StateM FileMap _).run files).1
      ((call.run dryRun : StateM FileMap _).run files).2 := by
  have hwrites : ∀ bytes, call.bytesIn files = .ok bytes →
      (call.run dryRun : StateM FileMap _).run files =
        (writeIfChanged dryRun call.target bytes : StateM FileMap _).run files →
      Does dryRun files call ((call.run dryRun : StateM FileMap _).run files).1
        ((call.run dryRun : StateM FileMap _).run files).2 := by
    intro bytes hbytes hrun
    rw [hrun, Emission.writeIfChanged_run]
    exact does_writeIfChanged hbytes
  cases call with
  | emit target bytes => exact hwrites bytes rfl rfl
  | emitJson target serialized =>
    cases serialized with
    | ok bytes => exact hwrites bytes rfl rfl
    | error problem => exact does_nothing rfl
  | copy target source =>
    have hread : ((FileAccess.read source : StateM FileMap (Except ReadFailure ByteArray)).run files).1 =
      files.read source := rfl
    have hrun : ((copy target source).run dryRun : StateM FileMap _).run files =
        (match files.read source with
          | .ok bytes => writeIfChanged dryRun target bytes
          | .error _ => return .error (.notWritten source) : StateM FileMap _).run files := by
      rw [run, (FileMap.keeps_read source).run_bind, hread]
    cases hfound : files.read source with
    | ok bytes =>
      have hbytes : (copy target source).bytesIn files = .ok bytes := by
        rw [bytesIn, hfound]
      rw [hfound] at hrun
      exact hwrites bytes hbytes hrun
    | error failure =>
      have hbytes : (copy target source).bytesIn files = .error (.notWritten source) := by
        rw [bytesIn, hfound]
      rw [hrun, hfound]
      exact does_nothing hbytes

/-- What an emission does is what its call does. -/
theorem does_call (dryRun : Bool) (files : FileMap) (emission : Emission) :
    Does dryRun files emission.call (emission.outcomeIn dryRun files)
      (emission.after dryRun files) := by
  have does := does_run dryRun files emission.call
  rw [run_call, Emission.run_eq] at does
  exact does

namespace Does

variable {outcome : Except Problem WriteOutcome} {after : FileMap}

/-- A call that reports no failure succeeds. -/
theorem exists_succeeds {found : WriteOutcome} (does : Does dryRun files call (.ok found) after) :
    ∃ bytes, SucceedsWith dryRun files call bytes := by
  cases does with
  | writes _ succeeds => exact ⟨_, succeeds⟩
  | postpones _ succeeds => exact ⟨_, succeeds⟩
  | keeps succeeds => exact ⟨_, succeeds⟩

/-- When a call succeeds that is not run dry, its target holds its bytes afterwards. -/
theorem bytes?_eq (does : Does false files call outcome after)
    (succeeds : SucceedsWith false files call bytes) :
    after.bytes? (files.placeOf call.target) = some bytes := by
  have hsame : ∀ found, SucceedsWith false files call found → found = bytes :=
    fun found other => Except.ok.inj (other.available.symm.trans succeeds.available)
  cases does with
  | writes _ found =>
    obtain rfl := hsame _ found
    exact FileMap.bytes?_put_self _ _ _
  | postpones dry => cases dry
  | keeps found holds =>
    obtain rfl := hsame _ found
    exact holds
  | fails fails => exact absurd succeeds (fails bytes)

end Does

/-! ## One call after the other -/

theorem runAll_concat_run (dryRun : Bool) (files : FileMap) (calls : List EmitterCall)
    (call : EmitterCall) :
    (runAll dryRun (calls ++ [call]) : StateM FileMap (List EmissionRecord)).run files =
      let now := filesAfter dryRun files calls
      (((runAll dryRun calls : StateM FileMap (List EmissionRecord)).run files).1 ++
          [⟨call.target, ((call.run dryRun : StateM FileMap _).run now).1⟩],
        ((call.run dryRun : StateM FileMap _).run now).2) := by
  rw [runAll, List.mapM_append]
  rfl

/-- One call more is carried out in the files that those before it have left, and reported behind them. -/
theorem exists_does_concat (dryRun : Bool) (files : FileMap) (calls : List EmitterCall)
    (call : EmitterCall) :
    ∃ outcome, Does dryRun (filesAfter dryRun files calls) call outcome
        (filesAfter dryRun files (calls ++ [call])) ∧
      reportOf dryRun files (calls ++ [call]) =
        (reportOf dryRun files calls).add call.target outcome := by
  have hrun := runAll_concat_run dryRun files calls call
  have hafter : filesAfter dryRun files (calls ++ [call]) =
      ((call.run dryRun : StateM FileMap _).run (filesAfter dryRun files calls)).2 :=
    congrArg Prod.snd hrun
  refine ⟨((call.run dryRun : StateM FileMap _).run (filesAfter dryRun files calls)).1, ?_, ?_⟩
  · rw [hafter]
    exact does_run dryRun (filesAfter dryRun files calls) call
  · rw [reportOf, hrun]
    exact EmitterReport.ofRecords_concat _ _

/-- What holds before any call and is kept by each call holds of a whole run. -/
theorem run_induction {motive : List EmitterCall → EmitterReport → FileMap → Prop} (dryRun : Bool)
    (files : FileMap) (start : motive [] ⟨[], [], 0, []⟩ files)
    (step : ∀ calls call outcome after,
      motive calls (reportOf dryRun files calls) (filesAfter dryRun files calls) →
      Does dryRun (filesAfter dryRun files calls) call outcome after →
      motive (calls ++ [call]) ((reportOf dryRun files calls).add call.target outcome) after)
    (calls : List EmitterCall) :
    motive calls (reportOf dryRun files calls) (filesAfter dryRun files calls) := by
  induction calls using List.reverseRecOn with
  | nil => exact start
  | append_singleton calls call ih =>
    obtain ⟨outcome, does, hreport⟩ := exists_does_concat dryRun files calls call
    rw [hreport]
    exact step calls call outcome _ ih does

/-- Calls change the bytes of files at most. -/
theorem alike_filesAfter (dryRun : Bool) (files : FileMap) (calls : List EmitterCall) :
    FileMap.Alike files (filesAfter dryRun files calls) := by
  refine run_induction (motive := fun _ _ after => FileMap.Alike files after) dryRun files
    (FileMap.Alike.refl files) ?_ calls
  intro calls call outcome after ih does
  cases does with
  | writes => exact ih.trans (FileMap.alike_put _ _ _)
  | postpones => exact ih
  | keeps => exact ih
  | fails => exact ih

/-- How a report accounts for calls: each of them is recorded in one place, behind those before it. It is among
the written where it has put bytes into a target that did not hold them, among the pending where it would have, it
is counted as unchanged where the target holds its bytes already, and among the failures where it does not
succeed. -/
inductive Accounts (dryRun : Bool) (files : FileMap) : List EmitterCall → EmitterReport → Prop
  | nil : Accounts dryRun files [] ⟨[], [], 0, []⟩
  | written {calls : List EmitterCall} {report : EmitterReport} {call : EmitterCall} {bytes : ByteArray}
      (accounts : Accounts dryRun files calls report) (real : dryRun = false)
      (succeeds : call.SucceedsWith dryRun (filesAfter dryRun files calls) bytes)
      (differs : (filesAfter dryRun files calls).bytes? (files.placeOf call.target) ≠ some bytes) :
      Accounts dryRun files (calls ++ [call]) { report with written := report.written ++ [call.target] }
  | pending {calls : List EmitterCall} {report : EmitterReport} {call : EmitterCall} {bytes : ByteArray}
      (accounts : Accounts dryRun files calls report) (dry : dryRun = true)
      (succeeds : call.SucceedsWith dryRun (filesAfter dryRun files calls) bytes)
      (differs : (filesAfter dryRun files calls).bytes? (files.placeOf call.target) ≠ some bytes) :
      Accounts dryRun files (calls ++ [call]) { report with pending := report.pending ++ [call.target] }
  | unchanged {calls : List EmitterCall} {report : EmitterReport} {call : EmitterCall} {bytes : ByteArray}
      (accounts : Accounts dryRun files calls report)
      (succeeds : call.SucceedsWith dryRun (filesAfter dryRun files calls) bytes)
      (holds : (filesAfter dryRun files calls).bytes? (files.placeOf call.target) = some bytes) :
      Accounts dryRun files (calls ++ [call]) { report with unchanged := report.unchanged + 1 }
  | failed {calls : List EmitterCall} {report : EmitterReport} {call : EmitterCall}
      (accounts : Accounts dryRun files calls report)
      (fails : ∀ bytes, ¬call.SucceedsWith dryRun (filesAfter dryRun files calls) bytes) :
      Accounts dryRun files (calls ++ [call])
        { report with
          failures := report.failures ++ [(call.target, call.blame (filesAfter dryRun files calls))] }

/-- The report of calls accounts for them. -/
theorem accounts_reportOf (dryRun : Bool) (files : FileMap) (calls : List EmitterCall) :
    Accounts dryRun files calls (reportOf dryRun files calls) := by
  refine run_induction (motive := fun calls report _ => Accounts dryRun files calls report) dryRun files
    .nil ?_ calls
  intro calls call outcome after ih does
  have hplace := (alike_filesAfter dryRun files calls).placeOf_eq call.target
  cases does with
  | writes real succeeds differs => exact .written ih real succeeds (hplace ▸ differs)
  | postpones dry succeeds differs => exact .pending ih dry succeeds (hplace ▸ differs)
  | keeps succeeds holds => exact .unchanged ih succeeds (hplace ▸ holds)
  | fails fails => exact .failed ih fails

/-- A dry run writes nothing and leaves the files as they are. -/
theorem dry_run (files : FileMap) (calls : List EmitterCall) :
    (reportOf true files calls).written = [] ∧ filesAfter true files calls = files := by
  refine run_induction (motive := fun _ report after => report.written = [] ∧ after = files) true files
    ⟨rfl, rfl⟩ ?_ calls
  intro calls call outcome after ih does
  cases does with
  | writes real => cases real
  | postpones => exact ih
  | keeps => exact ih
  | fails => exact ih

/-- A real run leaves nothing pending. -/
theorem pending_reportOf (files : FileMap) (calls : List EmitterCall) :
    (reportOf false files calls).pending = [] := by
  refine run_induction (motive := fun _ report _ => report.pending = []) false files rfl ?_ calls
  intro calls call outcome after ih does
  cases does with
  | writes => exact ih
  | postpones dry => cases dry
  | keeps => exact ih
  | fails => exact ih

/-- Where no target has been written, nothing has changed. -/
theorem bytes?_filesAfter_of_notMem :
    place ∉ (reportOf false files calls).written.map files.placeOf →
      (filesAfter false files calls).bytes? place = files.bytes? place := by
  refine run_induction (motive := fun _ report after =>
    place ∉ report.written.map files.placeOf → after.bytes? place = files.bytes? place) false files
    (fun _ => rfl) ?_ calls
  intro calls call outcome after ih does h
  cases does with
  | writes =>
    simp only [EmitterReport.add, List.map_append, List.map_singleton, List.mem_append,
      List.mem_singleton, not_or] at h
    rw [← (alike_filesAfter false files calls).placeOf_eq] at h
    rw [FileMap.bytes?_put_of_ne h.2]
    exact ih h.1
  | postpones => exact ih h
  | keeps => exact ih h
  | fails => exact ih h

/-- The bytes of the last call for a place that succeeds: the last of the calls is this one, or it is not for the
place or fails, and the bytes are those of the calls before it. -/
inductive IsLast (files : FileMap) (place : List String) (bytes : ByteArray) :
    List EmitterCall → Prop
  | succeeds {calls : List EmitterCall} {call : EmitterCall} (here : files.placeOf call.target = place)
      (succeeds : call.SucceedsWith false (filesAfter false files calls) bytes) :
      IsLast files place bytes (calls ++ [call])
  | passes {calls : List EmitterCall} {call : EmitterCall} (last : IsLast files place bytes calls)
      (passes : files.placeOf call.target = place →
        ∀ found, ¬call.SucceedsWith false (filesAfter false files calls) found) :
      IsLast files place bytes (calls ++ [call])

/-- A place holds the bytes of the last call for it that succeeded. -/
theorem IsLast.bytes?_filesAfter (last : IsLast files place bytes calls) :
    (filesAfter false files calls).bytes? place = some bytes := by
  induction last with
  | @succeeds calls call here succeeds =>
    obtain ⟨outcome, does, _⟩ := exists_does_concat false files calls call
    rw [← here, ← (alike_filesAfter false files calls).placeOf_eq]
    exact does.bytes?_eq succeeds
  | @passes calls call _ passes ih =>
    obtain ⟨outcome, does, _⟩ := exists_does_concat false files calls call
    generalize filesAfter false files (calls ++ [call]) = after at does ⊢
    cases does with
    | writes _ succeeds =>
      have helsewhere : place ≠ (filesAfter false files calls).placeOf call.target := by
        rw [(alike_filesAfter false files calls).placeOf_eq]
        exact fun here => passes here.symm _ succeeds
      rw [FileMap.bytes?_put_of_ne helsewhere]
      exact ih
    | postpones => exact ih
    | keeps => exact ih
    | fails => exact ih

/-- For a place for which a call has succeeded there is a last one, also after one call more. -/
theorem exists_isLast_concat (call : EmitterCall) (h : ∃ bytes, IsLast files place bytes calls) :
    ∃ bytes, IsLast files place bytes (calls ++ [call]) := by
  obtain ⟨bytes, last⟩ := h
  by_cases here : files.placeOf call.target = place
  · by_cases succeeds : ∃ found, call.SucceedsWith false (filesAfter false files calls) found
    · obtain ⟨found, succeeds⟩ := succeeds
      exact ⟨found, .succeeds here succeeds⟩
    · exact ⟨bytes, .passes last fun _ => not_exists.mp succeeds⟩
  · exact ⟨bytes, .passes last fun same => absurd same here⟩

/-- For a target that has been written there is a last call that succeeded. -/
theorem exists_isLast (files : FileMap) (calls : List EmitterCall) :
    ∀ path ∈ (reportOf false files calls).written,
      ∃ bytes, IsLast files (files.placeOf path) bytes calls := by
  refine run_induction (motive := fun calls report _ => ∀ path ∈ report.written,
    ∃ bytes, IsLast files (files.placeOf path) bytes calls) false files
    (fun _ h => absurd h List.not_mem_nil) ?_ calls
  intro calls call outcome after ih does path hpath
  cases does with
  | writes _ succeeds =>
    rcases List.mem_append.mp hpath with hearlier | hnow
    · exact exists_isLast_concat call (ih path hearlier)
    · obtain rfl := List.mem_singleton.mp hnow
      exact ⟨_, .succeeds rfl succeeds⟩
  | postpones => exact exists_isLast_concat call (ih path hpath)
  | keeps => exact exists_isLast_concat call (ih path hpath)
  | fails => exact exists_isLast_concat call (ih path hpath)

/-- The emitter accounts for every call, in any files and for any calls, of which those of emissions are some. The
report has each call in one place and keeps their order. A real run leaves nothing pending, what lies elsewhere
than a written target is as it was, and a written target holds the bytes of the last call for it that succeeded. A
dry run writes nothing and changes nothing. -/
theorem emitter_accounts (files : FileMap) (calls : List EmitterCall) :
    (∀ dryRun, Accounts dryRun files calls (reportOf dryRun files calls)) ∧
      (reportOf false files calls).pending = [] ∧
      (∀ place ∉ (reportOf false files calls).written.map files.placeOf,
        (filesAfter false files calls).bytes? place = files.bytes? place) ∧
      (∀ path ∈ (reportOf false files calls).written, ∃ bytes,
        IsLast files (files.placeOf path) bytes calls ∧
          (filesAfter false files calls).bytes? (files.placeOf path) = some bytes) ∧
      (reportOf true files calls).written = [] ∧
      filesAfter true files calls = files ∧
      ∀ dryRun emissions, (runAll dryRun (emissions.map Emission.call) : StateM FileMap _) =
        Emission.runAll dryRun emissions := by
  obtain ⟨hwritten, hfiles⟩ := dry_run files calls
  refine ⟨fun dryRun => accounts_reportOf dryRun files calls, pending_reportOf files calls,
    fun place => bytes?_filesAfter_of_notMem, fun path hpath => ?_, hwritten, hfiles, runAll_map_call⟩
  obtain ⟨bytes, last⟩ := exists_isLast files calls path hpath
  exact ⟨bytes, last, last.bytes?_filesAfter⟩

/-- A file that holds "x", one that cannot be read, and one that cannot be written. -/
def threeFiles : FileMap where
  bytes? place := if place = ["a"] then some "x".toUTF8 else none
  isReadable place := !(place == ["unreadable"])
  isWritable place := !(place == ["locked"])
  folder := []

/-- Calls for one target, with a copy of what has been written there between them, and failures. -/
def mixedCalls : List EmitterCall :=
  [.emit "a" "y".toUTF8, .copy "b" "./a", .emit "./a" "z".toUTF8, .emit "unreadable" "z".toUTF8,
    .emitJson "a" (.error .unreadable), .emit "a" "z".toUTF8, .emit "locked" "z".toUTF8,
    .copy "a" "nowhere"]

/-- The target of several calls holds the bytes of the last one that succeeded, and the copy those of the first. -/
theorem emitter_accounts_mixedCalls :
    (reportOf false threeFiles mixedCalls).written = ["a", "b", "./a"] ∧
      (reportOf false threeFiles mixedCalls).unchanged = 1 ∧
      (reportOf false threeFiles mixedCalls).failures =
        [("unreadable", .notWritten "unreadable"), ("a", .unreadable), ("locked", .notWritten "locked"),
          ("a", .notWritten "nowhere")] ∧
      IsLast threeFiles ["a"] "z".toUTF8 mixedCalls ∧
      (filesAfter false threeFiles mixedCalls).bytes? ["a"] = some "z".toUTF8 ∧
      (filesAfter false threeFiles mixedCalls).bytes? ["b"] = some "y".toUTF8 ∧
      (filesAfter false threeFiles mixedCalls).bytes? ["locked"] = none := by
  obtain ⟨-, -, elsewhere, last, -⟩ := emitter_accounts threeFiles mixedCalls
  have hwritten : (reportOf false threeFiles mixedCalls).written = ["a", "b", "./a"] := by decide +kernel
  have hplace : threeFiles.placeOf "a" = ["a"] := by decide +kernel
  rw [hwritten] at elsewhere last
  have hheld : (filesAfter false threeFiles mixedCalls).bytes? ["a"] = some "z".toUTF8 := by
    decide +kernel
  obtain ⟨bytes, hlast, hbytes⟩ := last "a" List.mem_cons_self
  rw [hplace] at hlast hbytes
  obtain rfl : bytes = "z".toUTF8 := Option.some.inj (hbytes.symm.trans hheld)
  exact ⟨hwritten, by decide +kernel, by decide +kernel, hlast, hheld, by decide +kernel,
    elsewhere ["locked"] (by decide +kernel)⟩

end EmitterCall
end Courseware
