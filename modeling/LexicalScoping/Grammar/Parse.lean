import LexicalScoping.Diagnostic.Basic
import LexicalScoping.Grammar.Rules

/-!
# Reading tokens

A parser reads a token list from left to right and never looks beyond the current token. Its state
holds the tokens read, the current one and those ahead, how many numbers it has given out to
references, and how many statements and expressions are open. A parser answers a value or a
diagnostic; either way it leaves a state, with the tokens that it read and the numbers that it gave
out.

The number of a reference is how many were given out before it, so no two are the same. A parser
takes it from a counter of 32 bits, which is that count as long as there are fewer than 2 ^ 32
numbers (`ParseState.counter_toNat`), and which a program of fewer tokens does not use up
(`Program.counter_of_parse`).

The last token is never read past, whatever it is, so a state always has a current token.
-/
namespace LexicalScoping

/-- How many statements and expressions may be open at once. -/
def maxNesting : Nat := 128

/-- Where a parser stands. The tokens read are kept newest first. -/
structure ParseState where
  before : List Token
  current : Token
  after : List Token
  given : Nat
  depth : Nat
deriving DecidableEq, Repr, Inhabited

namespace ParseState

/-- The end of what was read last, or of the current token when nothing has been read. -/
def lastEnd (s : ParseState) : Position :=
  match s.before with
  | token :: _ => token.span.stop
  | [] => s.current.span.stop

/-- What follows the first token of a list, with an end token behind it unless the last token of all
is one. The end token stands at the end of the last token. -/
def closedAfter (first : Token) : List Token → List Token
  | [] => if first.kind = .endOfInput then [] else [Token.endAt first.span.stop]
  | next :: rest => next :: closedAfter next rest

/-- The state before any token is read. Without tokens there is only an end token, which stands
nowhere. -/
def ofTokens : List Token → ParseState
  | [] => ⟨[], Token.endAt Position.nowhere, [], 0, 0⟩
  | first :: rest => ⟨[], first, closedAfter first rest, 0, 0⟩

/-- The state with the current token read, unless it is the last. -/
def advance (s : ParseState) : ParseState :=
  match s.after with
  | [] => s
  | next :: rest => { s with before := s.current :: s.before, current := next, after := rest }

/-- The counter that the next number is taken from. It has 32 bits and goes round to zero. -/
def counter (s : ParseState) : UInt32 := .ofNat s.given

/-- Whether the end of input is not reached. -/
def hasTokens (s : ParseState) : Bool := s.current.kind ≠ .endOfInput

end ParseState

/-- A parser of values of a type. -/
def Parse (α : Type) : Type := ParseState → Except Diagnostic α × ParseState

namespace Parse

/-- Runs the first parser, and the second on its value. -/
def andThen {α β : Type} (p : Parse α) (f : α → Parse β) : Parse β := fun s =>
  match p s with
  | (.ok x, s') => f x s'
  | (.error e, s') => (.error e, s')

instance : Monad Parse where
  pure x := fun s => (.ok x, s)
  bind := andThen

theorem pure_apply {α : Type} (x : α) (s : ParseState) : (pure x : Parse α) s = (.ok x, s) := rfl

theorem bind_apply {α β : Type} (p : Parse α) (f : α → Parse β) (s : ParseState) :
    (p >>= f) s =
      match p s with
      | (.ok x, s') => f x s'
      | (.error e, s') => (.error e, s') := rfl

/-- Fails at the current token with a cause made from it. -/
def failHere {α : Type} (cause : Token → Cause) : Parse α := fun s =>
  (.error (s.current.diagnostic (cause s.current)), s)

/-- Fails with a diagnostic about a token. -/
def failOn {α : Type} (token : Token) (cause : Cause) : Parse α := fun s =>
  (.error (token.diagnostic cause), s)

/-- The current token, which stays current. -/
def peek : Parse Token := fun s => (.ok s.current, s)

/-- Reads the current token. -/
def advance : Parse Token := fun s => (.ok s.current, s.advance)

/-- Takes the next free number, which is the counter's while the counter has not gone round. -/
def freshId : Parse Nat := fun s => (.ok s.given, { s with given := s.given + 1 })

/-- The stretch from a place to the end of what was read last. -/
def spanFrom (start : Position) : Parse Span := fun s => (.ok ⟨start, s.lastEnd⟩, s)

/-- Fails on a token that does not fit. -/
def unexpected {α : Type} : Parse α := failHere fun token => .unexpectedToken token.text

/-- Fails on a token that does not fit, saying what would. -/
def unexpectedBut {α : Type} (wanted : String) : Parse α :=
  failHere fun token => .unexpectedTokenDetailed token.text wanted

/-- Reads a token of the kind. -/
def expect (kind : Kind) : Parse Token := do
  if (← peek).kind = kind then advance else unexpected

/-- Reads a token of the kind, or fails saying what is wanted. -/
def expectBut (kind : Kind) (wanted : String) : Parse Token := do
  if (← peek).kind = kind then advance else unexpectedBut wanted

/-- Opens one more statement or expression. -/
def enter : Parse Unit := fun s =>
  if s.depth < maxNesting then (.ok (), { s with depth := s.depth + 1 })
  else failHere (fun _ => .nestingTooDeep maxNesting) s

/-- Closes a statement or expression. -/
def leave (s : ParseState) : ParseState := { s with depth := s.depth - 1 }

/-- Runs the parser inside one more statement or expression, which is closed also when the parser
fails. -/
def nested {α : Type} (p : Parse α) : Parse α := do
  enter
  fun s =>
    let answer := p s
    (answer.1, leave answer.2)

/-- Reads items until the current token has a kind that stops them. An item that reads nothing is
the last, so the reading ends. -/
def manyUntil {α : Type} (stop : Kind → Bool) (item : Parse α) (s : ParseState) :
    Except Diagnostic (List α) × ParseState :=
  if stop s.current.kind then (.ok [], s)
  else
    match item s with
    | (.error e, s') => (.error e, s')
    | (.ok x, s') =>
      if s'.after.length < s.after.length then
        match manyUntil stop item s' with
        | (.error e, s'') => (.error e, s'')
        | (.ok xs, s'') => (.ok (x :: xs), s'')
      else (.ok [x], s')
termination_by s.after.length

/-- Reads items with a comma between any two, at least one item. -/
def separated {α : Type} (item : Parse α) (s : ParseState) :
    Except Diagnostic (List α) × ParseState :=
  match item s with
  | (.error e, s') => (.error e, s')
  | (.ok x, s') =>
    if s'.current.kind = .comma then
      if s'.advance.after.length < s.after.length then
        match separated item s'.advance with
        | (.error e, s'') => (.error e, s'')
        | (.ok xs, s'') => (.ok (x :: xs), s'')
      else (.ok [x], s'.advance)
    else (.ok [x], s')
termination_by s.after.length

/-- The items up to a closing kind, with commas between them; there may be none. -/
def separatedUntil {α : Type} (close : Kind) (item : Parse α) : Parse (List α) := do
  if (← peek).kind = close then pure [] else separated item

/-- Reads the item if the current token has the kind that announces it. -/
def afterKind {α : Type} (kind : Kind) (item : Parse α) : Parse (Option α) := do
  if (← peek).kind = kind then
    let _ ← advance
    return some (← item)
  else return none

/-- Reads the item unless the current token has the kind that comes in its stead. -/
def unlessKind {α : Type} (kind : Kind) (item : Parse α) : Parse (Option α) := do
  if (← peek).kind = kind then return none else return some (← item)

end Parse
end LexicalScoping
