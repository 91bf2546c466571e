import LexicalScoping.Analysis

/-!
# The command line

The program takes one argument, the path of a source file. It prints nothing if the source is
resolved without complaint; else it shows every complaint on the error output. The exit code tells
wrong usage and unreadable files from wrong sources.
-/
namespace LexicalScoping.CommandLine

/-- What a run of the program leaves behind. -/
structure Outcome where
  exitCode : UInt8
  errorOutput : String
deriving DecidableEq, Repr

/-- The exit code for wrong usage and for files that cannot be read. -/
def usageError : UInt8 := 64

/-- The exit code for sources with something wrong. -/
def dataError : UInt8 := 65

/-- The path that the arguments name, if they are as they should be. -/
def path? : List String → Option String
  | [path] => some path
  | _ => none

/-- The last part of a path, under which messages name the file. -/
def fileName (path : String) : String := ((path.splitOn "/").getLast?).getD path

/-- Checks a source under the given name. -/
def check (name source : String) : Outcome :=
  match shownDiagnostics source (some name) with
  | [] => ⟨0, ""⟩
  | texts => ⟨dataError, String.join texts⟩

/-- The outcome for the arguments, given the bytes of the file that they name, if it can be read.
Bytes that are no UTF-8 count as unreadable. -/
def run (arguments : List String) (bytes? : Option ByteArray) : Outcome :=
  match path? arguments with
  | none => ⟨usageError, "Usage: lox_resolver <file>\n"⟩
  | some path =>
    match bytes?.bind String.fromUTF8? with
    | none => ⟨usageError, ""⟩
    | some source => check (fileName path) source

end LexicalScoping.CommandLine
