import LexicalScoping.CommandLine

/-!
# The program

Reads the file that the arguments name and hands its bytes to the command line.
-/
open LexicalScoping

/-- The bytes of a file, if it can be read. -/
def readBytes? (path : String) : IO (Option ByteArray) := do
  try
    return some (← IO.FS.readBinFile path)
  catch _ => return none

def main (arguments : List String) : IO UInt32 := do
  let bytes? ← match CommandLine.path? arguments with
    | none => pure none
    | some path => readBytes? path
  let outcome := CommandLine.run arguments bytes?
  IO.eprint outcome.errorOutput
  return outcome.exitCode.toUInt32
