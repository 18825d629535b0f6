import Courseware.Files.Emission
import Courseware.Proofs.Files.Map

/-!
# Emissions into a map of files

An emission looks at its target, and at its source if it copies one, and changes the bytes at its target at
most. So emissions with targets in different places, whose sources are no targets, do not notice each other:
each finds the files as they were at the start. That is what lets a dry run predict a real one, and what lets a
second run find everything done.
-/

namespace Courseware

namespace Emission

/-- The file from which an emission copies. -/
def source? : Emission → Option String
  | text _ _ => none
  | copy _ source => some source

/-- The bytes that an emission is to put into its target. -/
def bytesIn (files : FileMap) : Emission → Except Problem ByteArray
  | text _ content => .ok content.bytes
  | copy _ source =>
    match files.read source with
    | .ok bytes => .ok bytes
    | .error _ => .error (.notWritten source)

/-- What becomes of a target that is to change. -/
def changeAt (dryRun : Bool) (files : FileMap) (path : String) : Except Problem WriteOutcome :=
  if dryRun then .ok .pending
  else if files.isWritable (files.placeOf path) then .ok .written
  else .error (.notWritten path)

/-- What becomes of bytes that are to be put at a path. -/
def outcomeAt (dryRun : Bool) (files : FileMap) (path : String) (bytes : ByteArray) :
    Except Problem WriteOutcome :=
  match files.read path with
  | .ok present =>
    if present.data = bytes.data then .ok .unchanged else changeAt dryRun files path
  | .error .missing => changeAt dryRun files path
  | .error .unusable => .error (.notWritten path)

/-- The files with the bytes that have been written, if they have been. -/
def written (files : FileMap) (path : String) (bytes : ByteArray) :
    Except Problem WriteOutcome → FileMap
  | .ok .written => files.put path bytes
  | _ => files

/-- What becomes of an emission. -/
def outcomeIn (dryRun : Bool) (files : FileMap) (emission : Emission) : Except Problem WriteOutcome :=
  match emission.bytesIn files with
  | .ok bytes => outcomeAt dryRun files emission.target bytes
  | .error problem => .error problem

/-- The files after an emission. -/
def after (dryRun : Bool) (files : FileMap) (emission : Emission) : FileMap :=
  match emission.bytesIn files with
  | .ok bytes => written files emission.target bytes (emission.outcomeIn dryRun files)
  | .error _ => files

variable {dryRun : Bool} {files other : FileMap} {emission first : Emission} {emissions : List Emission}
  {path : String} {bytes : ByteArray}

/-! ## One emission -/

theorem change_run (dryRun : Bool) (files : FileMap) (path : String) (bytes : ByteArray) :
    (do
      if dryRun then return .ok .pending
      else if ← FileAccess.write path bytes then return .ok .written
      else return .error (.notWritten path) : StateM FileMap (Except Problem WriteOutcome)).run files =
      (changeAt dryRun files path, written files path bytes (changeAt dryRun files path)) := by
  cases dryRun with
  | true => rfl
  | false =>
    rw [if_neg Bool.false_ne_true, StateT.run_bind, FileMap.write_run, changeAt,
      if_neg Bool.false_ne_true]
    split <;> rfl

/-- Bytes are written, or nothing is done. -/
theorem writeIfChanged_run (dryRun : Bool) (files : FileMap) (path : String) (bytes : ByteArray) :
    (writeIfChanged dryRun path bytes : StateM FileMap (Except Problem WriteOutcome)).run files =
      (outcomeAt dryRun files path bytes,
        written files path bytes (outcomeAt dryRun files path bytes)) := by
  have hread : ((FileAccess.read path : StateM FileMap (Except ReadFailure ByteArray)).run files).1 =
    files.read path := rfl
  rw [writeIfChanged, (FileMap.keeps_read path).run_bind, hread, outcomeAt]
  cases files.read path with
  | ok present =>
    by_cases same : present.data = bytes.data
    · simp only [if_pos same]
      rfl
    · simp only [if_neg same]
      exact change_run dryRun files path bytes
  | error failure =>
    cases failure with
    | missing => exact change_run dryRun files path bytes
    | unusable => rfl

/-- An emission looks at its target and its source, and writes its target or does nothing. -/
theorem run_eq (dryRun : Bool) (files : FileMap) (emission : Emission) :
    (emission.run dryRun : StateM FileMap (Except Problem WriteOutcome)).run files =
      (emission.outcomeIn dryRun files, emission.after dryRun files) := by
  cases emission with
  | text target content => exact writeIfChanged_run dryRun files target content.bytes
  | copy target source =>
    have hread : ((FileAccess.read source : StateM FileMap (Except ReadFailure ByteArray)).run files).1 =
      files.read source := rfl
    rw [run, (FileMap.keeps_read source).run_bind, hread, after, outcomeIn, bytesIn]
    cases files.read source with
    | ok bytes => exact writeIfChanged_run dryRun files target bytes
    | error failure => rfl

theorem changeAt_eq_written_iff :
    changeAt dryRun files path = .ok .written ↔
      dryRun = false ∧ files.isWritable (files.placeOf path) = true := by
  rw [changeAt]
  cases dryRun <;> simp

/-- Bytes are written when this is no dry run, the target can be written, and it does not hold the bytes. -/
theorem outcomeAt_eq_written_iff :
    outcomeAt dryRun files path bytes = .ok .written ↔
      (dryRun = false ∧ files.isWritable (files.placeOf path) = true) ∧
        files.read path ≠ .error .unusable ∧ files.read path ≠ .ok bytes := by
  rw [outcomeAt]
  cases files.read path with
  | ok present =>
    have hdata : present.data = bytes.data ↔ present = bytes := ⟨ByteArray.ext, congrArg _⟩
    by_cases same : present = bytes
    · simp [same]
    · simp [hdata, same, changeAt_eq_written_iff]
  | error failure => cases failure <;> simp [changeAt_eq_written_iff]

/-- What an emission does: it writes bytes that the target does not hold, and says so, or it does nothing. -/
theorem after_cases (dryRun : Bool) (files : FileMap) (emission : Emission) :
    (∃ bytes, emission.bytesIn files = .ok bytes ∧ emission.outcomeIn dryRun files = .ok .written ∧
      emission.after dryRun files = files.put emission.target bytes ∧
      files.read emission.target ≠ .error .unusable ∧
      files.bytes? (files.placeOf emission.target) ≠ some bytes) ∨
    (emission.outcomeIn dryRun files ≠ .ok .written ∧ emission.after dryRun files = files) := by
  rw [after]
  cases hbytes : emission.bytesIn files with
  | error problem =>
    right
    refine ⟨fun h => ?_, rfl⟩
    rw [outcomeIn, hbytes] at h
    cases h
  | ok bytes =>
    have houtcome : emission.outcomeIn dryRun files = outcomeAt dryRun files emission.target bytes := by
      rw [outcomeIn, hbytes]
    by_cases hwritten : emission.outcomeIn dryRun files = .ok .written
    · left
      obtain ⟨_, readable, absent⟩ := outcomeAt_eq_written_iff.mp (houtcome ▸ hwritten)
      refine ⟨bytes, rfl, hwritten, ?_, readable, fun present => ?_⟩
      · simp only [hwritten]
        rfl
      · exact absent (FileMap.read_eq_ok readable present)
    · right
      refine ⟨hwritten, ?_⟩
      simp only
      unfold written
      split
      · next h => exact absurd h hwritten
      · rfl

theorem alike_after (dryRun : Bool) (files : FileMap) (emission : Emission) :
    FileMap.Alike files (emission.after dryRun files) := by
  rcases after_cases dryRun files emission with ⟨bytes, _, _, hafter, _⟩ | ⟨_, hafter⟩
  · rw [hafter]
    exact FileMap.alike_put _ _ _
  · rw [hafter]
    exact FileMap.Alike.refl files

/-- An emission changes its target at most. -/
theorem bytes?_after_of_ne {place : List String} (h : place ≠ files.placeOf emission.target) :
    (emission.after dryRun files).bytes? place = files.bytes? place := by
  rcases after_cases dryRun files emission with ⟨bytes, _, _, hafter, _⟩ | ⟨_, hafter⟩
  · rw [hafter]
    exact FileMap.bytes?_put_of_ne h
  · rw [hafter]

/-- Whether an emission finds the same in two maps of files. -/
structure FindsSame (emission : Emission) (files other : FileMap) : Prop where
  alike : FileMap.Alike files other
  target : other.bytes? (files.placeOf emission.target) = files.bytes? (files.placeOf emission.target)
  source : ∀ source, emission.source? = some source →
    other.bytes? (files.placeOf source) = files.bytes? (files.placeOf source)

namespace FindsSame

theorem bytesIn_eq (same : emission.FindsSame files other) :
    emission.bytesIn other = emission.bytesIn files := by
  cases emission with
  | text target content => rfl
  | copy target source => rw [bytesIn, bytesIn, same.alike.read_eq (same.source source rfl)]

/-- What becomes of an emission depends on what it finds. -/
theorem outcomeIn_eq (same : emission.FindsSame files other) :
    emission.outcomeIn dryRun other = emission.outcomeIn dryRun files := by
  have hchange : changeAt dryRun other emission.target = changeAt dryRun files emission.target := by
    rw [changeAt, changeAt, same.alike.placeOf_eq, same.alike.isWritable]
  have hread := same.alike.read_eq same.target
  simp only [outcomeIn, outcomeAt, same.bytesIn_eq, hread, hchange]

/-- What an emission leaves at its target depends on what it finds. -/
theorem bytes?_after_eq (same : emission.FindsSame files other) :
    (emission.after dryRun other).bytes? (files.placeOf emission.target) =
      (emission.after dryRun files).bytes? (files.placeOf emission.target) := by
  rcases after_cases dryRun files emission with
    ⟨bytes, hbytes, hwritten, hafter, _⟩ | ⟨hwritten, hafter⟩
  · rcases after_cases dryRun other emission with
      ⟨otherBytes, hotherBytes, _, hotherAfter, _⟩ | ⟨hnot, _⟩
    · have hsame : otherBytes = bytes :=
        Except.ok.inj (hotherBytes.symm.trans (same.bytesIn_eq.trans hbytes))
      rw [hafter, hotherAfter, hsame, FileMap.bytes?_put_self, ← same.alike.placeOf_eq,
        FileMap.bytes?_put_self]
    · exact absurd (same.outcomeIn_eq.trans hwritten) hnot
  · rcases after_cases dryRun other emission with ⟨_, _, hnot, _⟩ | ⟨_, hotherAfter⟩
    · exact absurd (same.outcomeIn_eq.symm.trans hnot) hwritten
    · rw [hafter, hotherAfter]
      exact same.target

/-- An emission does not notice another one that goes elsewhere. -/
theorem of_after (target : files.placeOf emission.target ≠ files.placeOf first.target)
    (source : ∀ source, emission.source? = some source →
      files.placeOf source ≠ files.placeOf first.target) :
    emission.FindsSame files (first.after dryRun files) where
  alike := alike_after dryRun files first
  target := bytes?_after_of_ne target
  source path hpath := bytes?_after_of_ne (source path hpath)

end FindsSame

/-! ## The other outcomes -/

/-- An outcome, with another one in the place of `written`. -/
def withWritten (outcome : WriteOutcome) : Except Problem WriteOutcome → Except Problem WriteOutcome
  | .ok .written => .ok outcome
  | found => found

theorem withWritten_of_ne {outcome : WriteOutcome} {found : Except Problem WriteOutcome}
    (h : found ≠ .ok .written) : withWritten outcome found = found := by
  unfold withWritten
  split
  · exact absurd rfl h
  · rfl

/-- A dry run writes nothing. -/
theorem outcomeIn_true_ne_written : emission.outcomeIn true files ≠ .ok .written := by
  rw [outcomeIn]
  split
  · next bytes _ =>
    intro h
    exact Bool.noConfusion (outcomeAt_eq_written_iff.mp h).1.1
  · exact fun h => nomatch h

/-- Whether a target is found unchanged, is to change, or cannot be used does not depend on whether this is a dry
run. -/
theorem outcomeAt_cases (files : FileMap) (path : String) (bytes : ByteArray) :
    (∀ dryRun, outcomeAt dryRun files path bytes = .ok .unchanged) ∨
      (∀ dryRun, outcomeAt dryRun files path bytes = changeAt dryRun files path) ∨
      ∀ dryRun, outcomeAt dryRun files path bytes = .error (.notWritten path) := by
  simp only [outcomeAt]
  cases files.read path with
  | ok present =>
    by_cases same : present.data = bytes.data
    · exact .inl fun dryRun => if_pos same
    · exact .inr (.inl fun dryRun => if_neg same)
  | error failure =>
    cases failure with
    | missing => exact .inr (.inl fun dryRun => rfl)
    | unusable => exact .inr (.inr fun dryRun => rfl)

/-- A dry run reports as pending what would be written, where writing succeeds. -/
theorem outcomeIn_true (writable : files.isWritable (files.placeOf emission.target) = true) :
    emission.outcomeIn true files = withWritten .pending (emission.outcomeIn false files) := by
  have hdry : changeAt true files emission.target = .ok .pending := rfl
  have hreal : changeAt false files emission.target = .ok .written := if_pos writable
  rw [outcomeIn, outcomeIn]
  cases emission.bytesIn files with
  | error problem => rfl
  | ok bytes =>
    simp only
    rcases outcomeAt_cases files emission.target bytes with hsame | hchange | hfails
    · rw [hsame, hsame]
      rfl
    · rw [hchange, hchange, hdry, hreal]
      rfl
    · rw [hfails, hfails]
      rfl

/-- What is not run dry is done at once. -/
theorem outcomeIn_false_ne_pending : emission.outcomeIn false files ≠ .ok .pending := by
  rw [outcomeIn]
  cases emission.bytesIn files with
  | error problem => exact fun h => nomatch h
  | ok bytes =>
    simp only
    rcases outcomeAt_cases files emission.target bytes with hsame | hchange | hfails
    · rw [hsame]
      exact fun h => nomatch h
    · rw [hchange, changeAt, if_neg Bool.false_ne_true]
      split <;> exact fun h => nomatch h
    · rw [hfails]
      exact fun h => nomatch h

/-- What has been written is found unchanged, unless it is copied from where it was put. -/
theorem outcomeIn_after (apart : ∀ source, emission.source? = some source →
      files.placeOf source ≠ files.placeOf emission.target) :
    emission.outcomeIn dryRun (emission.after dryRun files) =
      withWritten .unchanged (emission.outcomeIn dryRun files) := by
  rcases after_cases dryRun files emission with
    ⟨bytes, hbytes, hwritten, hafter, readable, _⟩ | ⟨hwritten, hafter⟩
  · have hsame : emission.bytesIn (files.put emission.target bytes) = .ok bytes := by
      rw [← hbytes]
      cases emission with
      | text target content => rfl
      | copy target source =>
        have hsource : (files.put target bytes).read source = files.read source :=
          (FileMap.alike_put files target bytes).read_eq
            (FileMap.bytes?_put_of_ne (apart source rfl))
        rw [bytesIn, bytesIn]
        simp only [Emission.target, hsource]
    have hread : (files.put emission.target bytes).read emission.target = .ok bytes :=
      FileMap.read_put readable
    rw [hafter, hwritten, outcomeIn, hsame]
    simp only [outcomeAt, hread, if_true]
    rfl
  · rw [hafter, withWritten_of_ne hwritten]

end Emission
end Courseware
