import Courseware.Files.Map
import Courseware.Proofs.State

/-!
# Files under a map

What reading finds at a path depends on the bytes at its place alone, among maps that agree on what can be
read and on where paths lead. Putting bytes at a path changes nothing but the bytes at its place.
-/

namespace Courseware.FileMap

variable {files other third : FileMap} {path : String} {place : List String} {bytes : ByteArray}

/-- Looking at files changes none. -/
theorem keeps_read (path : String) :
    Keeps (FileAccess.read path : StateM FileMap (Except ReadFailure ByteArray)) := fun _ => rfl

theorem keeps_isFile (path : String) : Keeps (FileAccess.isFile path : StateM FileMap Bool) :=
  fun _ => rfl

theorem write_run (files : FileMap) (path : String) (bytes : ByteArray) :
    (FileAccess.write path bytes : StateM FileMap Bool).run files =
      if files.isWritable (files.placeOf path) then (true, files.put path bytes) else (false, files) := by
  have hrun : (FileAccess.write path bytes : StateM FileMap Bool).run files =
      ((if files.isWritable (files.placeOf path) then do set (files.put path bytes); return true
        else return false : StateM FileMap Bool)).run files := rfl
  rw [hrun]
  split <;> rfl

/-- Whether two maps differ in the bytes of files at most. -/
structure Alike (files other : FileMap) : Prop where
  isReadable : other.isReadable = files.isReadable
  isWritable : other.isWritable = files.isWritable
  folder : other.folder = files.folder

theorem Alike.refl (files : FileMap) : Alike files files := ⟨rfl, rfl, rfl⟩

theorem Alike.symm (alike : Alike files other) : Alike other files :=
  ⟨alike.isReadable.symm, alike.isWritable.symm, alike.folder.symm⟩

theorem Alike.trans (first : Alike files other) (second : Alike other third) : Alike files third :=
  ⟨second.isReadable.trans first.isReadable, second.isWritable.trans first.isWritable,
    second.folder.trans first.folder⟩

theorem Alike.placeOf_eq (alike : Alike files other) (path : String) :
    other.placeOf path = files.placeOf path := by
  rw [placeOf, placeOf, alike.folder]

/-- Reading finds what is at the place. -/
theorem Alike.read_eq (alike : Alike files other)
    (same : other.bytes? (files.placeOf path) = files.bytes? (files.placeOf path)) :
    other.read path = files.read path := by
  rw [read, read, alike.placeOf_eq, alike.isReadable, same]

/-- Whether two maps differ at most in the bytes of the file at one place, if there is one. -/
structure AlikeBut (place : List String) (files other : FileMap) : Prop where
  alike : Alike files other
  elsewhere : ∀ elsewhere, elsewhere ≠ place → other.bytes? elsewhere = files.bytes? elsewhere
  present : (other.bytes? place).isSome = (files.bytes? place).isSome

/-- Two such maps have files at the same places. -/
theorem AlikeBut.isSome_eq (alike : AlikeBut place files other) (anywhere : List String) :
    (other.bytes? anywhere).isSome = (files.bytes? anywhere).isSome := by
  by_cases h : anywhere = place
  · rw [h, alike.present]
  · rw [alike.elsewhere anywhere h]

theorem alike_put (files : FileMap) (path : String) (bytes : ByteArray) :
    Alike files (files.put path bytes) := ⟨rfl, rfl, rfl⟩

theorem bytes?_put_self (files : FileMap) (path : String) (bytes : ByteArray) :
    (files.put path bytes).bytes? (files.placeOf path) = some bytes := if_pos rfl

theorem bytes?_put_of_ne (h : place ≠ files.placeOf path) :
    (files.put path bytes).bytes? place = files.bytes? place := if_neg h

/-- A file that is there is read, unless the path cannot be used. -/
theorem read_eq_ok (readable : files.read path ≠ .error .unusable)
    (present : files.bytes? (files.placeOf path) = some bytes) : files.read path = .ok bytes := by
  rw [read] at readable ⊢
  split at readable
  · next h => rw [if_pos h, present]
  · exact absurd rfl readable

/-- What is put at a path is read from there, unless the path cannot be used. -/
theorem read_put (readable : files.read path ≠ .error .unusable) :
    (files.put path bytes).read path = .ok bytes := by
  have hput : (files.put path bytes).read path =
      if files.isReadable (files.placeOf path) then .ok bytes else .error .unusable := by
    have hplace : (files.put path bytes).placeOf path = files.placeOf path := rfl
    rw [read, hplace, bytes?_put_self]
    rfl
  rw [hput]
  rw [read] at readable
  split at readable
  · next h => rw [if_pos h]
  · exact absurd rfl readable

end Courseware.FileMap
