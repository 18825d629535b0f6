import Courseware.Text.Basic

/-!
# Access to files

What a project needs of files: to read one whole, to see whether there is one, and to write one whole.
Programs that use files are written for every monad that grants this access, so that they run on the
files of a machine as well as on a file tree in memory.
-/

namespace Courseware

/-- Why the bytes of a file cannot be had: there is nothing at its path, or what is there cannot be
read as a file. -/
inductive ReadFailure
  | missing
  | unusable
deriving DecidableEq, Repr

/-- Access to files by path. -/
class FileAccess (m : Type → Type) where
  /-- The bytes of a file. -/
  read : String → m (Except ReadFailure ByteArray)
  /-- Whether there is a file at a path. -/
  isFile : String → m Bool
  /-- Make bytes the contents of a file, creating the folders above it. The answer is whether this
  succeeded. -/
  write : String → ByteArray → m Bool

namespace Text

/-- The UTF-8 form of a text. -/
def bytes (text : Text) : ByteArray := (String.ofList text).toUTF8

/-- The text with a UTF-8 form, if the bytes are one. -/
def ofBytes? (bytes : ByteArray) : Option Text := (String.fromUTF8? bytes).map String.toList

end Text
end Courseware
