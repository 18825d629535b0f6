import Courseware.Cli.Run

/-!
# The command line

Runs the command line on the files of the machine.
-/

namespace Courseware

/-- The path of the folder in which a path lies, if it names one. -/
def Path.folderOf? (path : String) : Option String :=
  match (path.toList.reverse.dropWhile fun letter => letter != '/').dropWhile (· == '/') with
  | [] => none
  | letters => some (String.ofList letters.reverse)

instance : FileAccess IO where
  read path := do
    try
      return .ok (← IO.FS.readBinFile path)
    catch
      | .noFileOrDirectory .. => return .error .missing
      | _ => return .error .unusable
  isFile path := do
    try
      let _ ← IO.FS.readBinFile path
      return true
    catch _ => return false
  write path bytes := do
    try
      match Path.folderOf? path with
      | some folder => IO.FS.createDirAll folder
      | none => pure ()
      IO.FS.writeBinFile path bytes
      return true
    catch _ => return false

end Courseware

open Courseware in
/-- Run the command line. -/
def main (arguments : List String) : IO UInt32 := do
  let folder := (← IO.currentDir).toString
  let noColor := (← IO.getEnv "NO_COLOR").isSome
  let transcript ← Cli.run .standard arguments folder noColor
  IO.print transcript.output
  for notice in transcript.notices do
    IO.eprintln (notice.render transcript.isColored)
  return transcript.status.toUInt32
