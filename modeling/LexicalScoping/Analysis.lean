import LexicalScoping.Diagnostic.Excerpt
import LexicalScoping.Grammar.Statement
import LexicalScoping.Scope.Resolve
import LexicalScoping.Token.Lexer

/-!
# From source to resolution

A source is read into tokens, the tokens into a program, and the program is resolved. The first two
steps stop at the first thing wrong; resolving goes on and gathers all there is to report.
-/
namespace LexicalScoping

/-- What a run comes to, with the log that it leaves. -/
structure Run where
  events : List Event
  outcome : Except Diagnostic (Program × Resolution)

/-- Reads a program from tokens and resolves it. -/
def analyseTokens (tokens : List Token) : Run :=
  match Program.parse tokens with
  | .error diagnostic => ⟨[], .error diagnostic⟩
  | .ok program =>
    let resolution := resolve program.statements
    ⟨.parsed program.statements.length program.idCount :: resolution.events,
      .ok (program, resolution)⟩

/-- Reads a source and resolves it. -/
def analyse (source : String) (file : Option String) : Run :=
  match tokenize source file with
  | .error diagnostic => ⟨[], .error diagnostic⟩
  | .ok tokens =>
    let run := analyseTokens tokens
    { run with events := .tokenized tokens.length (file.getD unnamedFile) :: run.events }

/-- All that is wrong with a source: the one thing that stops it from being read, or all that its
resolution reports. -/
def Run.diagnostics (run : Run) : List Diagnostic :=
  match run.outcome with
  | .error diagnostic => [diagnostic]
  | .ok (_, resolution) => resolution.diagnostics

/-- The texts shown for all that is wrong with a source. -/
def shownDiagnostics (source : String) (file : Option String) : List String :=
  (analyse source file).diagnostics.map (·.shown source)

/-- What resolving one of several sources gives: its bindings, and how much has been reported so
far. -/
structure Batch.Entry where
  bindings : Bindings
  reported : Nat

/-- Sources resolved one after another, with everything reported in one list. -/
structure Batch where
  entries : List (Except Diagnostic Batch.Entry)
  reported : Array Diagnostic

namespace Batch

/-- Resolves one more source. A source that cannot be read is not resolved, and what stops it is not
reported. -/
def add (file : Option String) (batch : Batch) (source : String) : Batch :=
  match (tokenize source file).bind Program.parse with
  | .error diagnostic => { batch with entries := batch.entries ++ [.error diagnostic] }
  | .ok program =>
    let (bindings, reported) := resolveInto batch.reported program.statements
    ⟨batch.entries ++ [.ok ⟨bindings, reported.size⟩], reported⟩

def ofSources (sources : List String) (file : Option String) : Batch :=
  sources.foldl (add file) ⟨[], #[]⟩

end Batch
end LexicalScoping
