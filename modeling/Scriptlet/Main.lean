import Scriptlet.CommandLine

/-!
The program: compiles the file that the command line names and runs it.
-/

namespace Scriptlet.CommandLine

/-- Reads to the end of a stream. -/
partial def readAll (stream : IO.FS.Stream) (read : ByteArray) : IO ByteArray := do
  let chunk ← stream.read 65536
  if chunk.isEmpty then return read else readAll stream (read ++ chunk)

/-- The text of the file that is asked for, if it is there. -/
def readSource (arguments : List String) : IO (Option (String × String)) := do
  match interpret arguments with
  | .error _ => return none
  | .ok (file, _) =>
      try return some (file, ← IO.FS.readFile file)
      catch _ => return none

end Scriptlet.CommandLine

open Scriptlet in
def main (arguments : List String) : IO UInt32 := do
  let found ← CommandLine.readSource arguments
  let input ← CommandLine.readAll (← IO.getStdin) ByteArray.empty
  let read (file : String) : Option String :=
    found.bind fun (name, text) => if name == file then some text else none
  let start : Compilation := { source := "", input := input.toList }
  let stdout ← IO.getStdout
  match CommandLine.run arguments read start with
  | .ok code last =>
      IO.print last.journal.printed
      stdout.write (ByteArray.mk last.output.toArray)
      stdout.flush
      return UInt32.ofNat (code.getD 0)
  | .error failure last =>
      IO.print last.journal.printed
      IO.eprintln failure.wording
      return 1
