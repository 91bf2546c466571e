import LexicalScoping.Token.Lexeme

/-!
# From source to tokens

A source is read lexeme by lexeme. Blanks and comments leave no token, the first text that is no
lexeme ends the reading with a diagnostic, and a token list always ends with the token for the end
of input, placed just past the source.
-/
namespace LexicalScoping

/-- The name of a source that was not read from a file. -/
def unnamedFile : String := "shell"

/-- Reads what is left of a source from the given place on. -/
def tokensFrom (place : Position) (source : List Char) : Except Diagnostic (List Token) :=
  match source with
  | [] => .ok [Token.endAt place]
  | c :: rest =>
    match _ : Pattern.first? (c :: rest) with
    | none => .error ⟨.unrecognisedToken (String.singleton c), place⟩
    | some (pattern, text) =>
      let written := pattern.written text
      let next := place.afterText written
      match pattern.read text with
      | .failure cause => .error ⟨cause, place⟩
      | .skip => tokensFrom next ((c :: rest).drop written.length)
      | .token kind literal =>
        (tokensFrom next ((c :: rest).drop written.length)).map
          (⟨kind, String.ofList written, literal, ⟨place, next⟩⟩ :: ·)
termination_by source.length
decreasing_by all_goals exact Pattern.length_drop_lt_of_first? ‹_›

/-- The tokens of a source, or why it is not a row of lexemes. -/
def tokenize (source : String) (file : Option String) : Except Diagnostic (List Token) :=
  tokensFrom (Position.first (file.getD unnamedFile)) source.toList

/-- The first characters of a text that take the given number of bytes, and what follows them. A
text that is too short is taken whole; there is no answer if the cut falls inside a character. -/
def splitAtByte? : Nat → List Char → Option (List Char × List Char)
  | 0, text => some ([], text)
  | _ + 1, [] => some ([], [])
  | bytes + 1, c :: rest =>
    if c.utf8Size ≤ bytes + 1 then
      (splitAtByte? (bytes + 1 - c.utf8Size) rest).map fun (taken, left) => (c :: taken, left)
    else none

/-- A place in a source with what is left of the source from there on. -/
structure Scanner where
  position : Position
  rest : List Char
deriving DecidableEq, Repr

namespace Scanner

/-- The scanner before the first character. -/
def ofSource (source : String) (file : Option String) : Scanner :=
  ⟨Position.first (file.getD unnamedFile), source.toList⟩

/-- Moves by a number of bytes, or to the end if there are fewer. A move that would end inside a
character is refused. -/
def advance? (scanner : Scanner) (bytes : Nat) : Option Scanner :=
  (splitAtByte? bytes scanner.rest).map fun (taken, left) =>
    ⟨scanner.position.afterText taken, left⟩

/-- The next character, if there is one. -/
def next? (scanner : Scanner) : Option Char := scanner.rest.head?

def atEnd (scanner : Scanner) : Bool := scanner.rest.isEmpty

end Scanner
end LexicalScoping
