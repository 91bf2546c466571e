import LexicalScoping.Decimal.Shortest
import LexicalScoping.Source.Position
import LexicalScoping.Text.Quoted
import LexicalScoping.Token.Kind

/-!
# Tokens

A token is a piece of source text with its kind and place; a literal also carries the value that it
stands for.
-/
namespace LexicalScoping

/-- What a literal stands for. -/
inductive Literal
  | number (value : Binary64)
  | string (value : String)
  | bool (value : Bool)
  | nil
deriving DecidableEq, Repr, Inhabited

/-- The value as a reader sees it. -/
def Literal.display : Literal → String
  | .number value => value.text
  | .string value => Text.quote value
  | .bool value => if value then "true" else "false"
  | .nil => "nil"

/-- A lexical unit with its exact source text. -/
structure Token where
  kind : Kind
  text : String
  literal : Option Literal
  span : Span
deriving DecidableEq, Repr, Inhabited

namespace Token

/-- The token at the end of every token list. -/
def endAt (place : Position) : Token := ⟨.endOfInput, "EOF", none, ⟨place, place⟩⟩

/-- The token's kind, text and place on one line. -/
def display (token : Token) : String :=
  token.kind.name ++ " `" ++ token.text ++ "` at " ++ toString token.span.start.line ++ ":" ++
    toString token.span.start.column

end Token
end LexicalScoping
