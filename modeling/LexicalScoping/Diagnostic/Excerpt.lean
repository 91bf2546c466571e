import LexicalScoping.Diagnostic.Basic
import LexicalScoping.Source.Line
import LexicalScoping.Text.Blank

/-!
# Diagnostics shown under their source line

The text shown for a diagnostic names the cause and the place, repeats the source line without the
indentation before it and the blanks behind it, and points at the character with a caret.
-/
namespace LexicalScoping

/-- Spaces and tabs at the start of a line are indentation; other blanks are not. -/
def isIndent (c : Char) : Bool := c = ' ' || c = '\t'

/-- How far the caret stands from the left, counting its own place: the characters before the offset
less the bytes of the indentation, which are as many as its characters
(`byteLength_takeWhile_isIndent`). An offset inside a character counts bytes instead. -/
def LinePlace.caretWidth (place : LinePlace) : Nat :=
  let column := (charsBefore? place.text place.offset).getD place.offset
  column - byteLength (place.text.takeWhile isIndent) + 1

/-- The line as it is shown. -/
def LinePlace.shownText (place : LinePlace) : List Char :=
  Text.trimBlankEnd (place.text.dropWhile isIndent)

/-- The pointer under a line, a row of dashes that ends in a caret. -/
def pointer (width : Nat) : List Char := List.replicate (width - 1) '-' ++ ['^']

/-- The source line with its number, and the pointer under it. -/
def LinePlace.excerpt (place : LinePlace) : String :=
  let number := toString place.number
  let bar := String.ofList (List.replicate (number.length + 1) ' ') ++ "|"
  bar ++ "\n" ++ number ++ " | " ++ String.ofList place.shownText ++ "\n" ++
    bar ++ " " ++ String.ofList (pointer place.caretWidth) ++ "\n"

/-- The lines shown for a diagnostic about the source. A place beyond the source has no excerpt. -/
def Diagnostic.shown (d : Diagnostic) (source : String) : String :=
  let heading := match d.cause.tip with
    | none => "Error: " ++ d.cause.name
    | some tip => "Error: " ++ d.cause.name ++ " (" ++ tip ++ ")"
  let place := "-> " ++ d.position.file ++ ":" ++ toString d.position.line ++ ":" ++
    toString d.position.column
  let excerpt := match lineAt? source.toList d.position.offset with
    | none => ""
    | some line => line.excerpt
  heading ++ "\n" ++ place ++ "\n" ++ excerpt

end LexicalScoping
