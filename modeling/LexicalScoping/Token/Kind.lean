/-!
# Kinds of token

The marks and the reserved words of the language are two tables. A row for a mark has its spelling
twice, as it is recognised and as its token says it, and the two are the same in every row
(`written_eq_spelling`).
-/
namespace LexicalScoping

/-- What a token is, apart from its text. -/
inductive Kind
  | endOfInput
  | number
  | string
  | identifier
  | openCurly
  | closeCurly
  | openParen
  | closeParen
  | assignment
  | equals
  | not
  | notEquals
  | less
  | lessEquals
  | greater
  | greaterEquals
  | or
  | and
  | dot
  | semicolon
  | colon
  | question
  | comma
  | plus
  | dash
  | slash
  | star
  | percent
  | letWord
  | fnWord
  | classWord
  | ifWord
  | elseWord
  | whileWord
  | doWord
  | forWord
  | switchWord
  | caseWord
  | defaultWord
  | breakWord
  | continueWord
  | returnWord
  | printWord
  | selfWord
  | superWord
  | trueWord
  | falseWord
  | nilWord
deriving DecidableEq, Repr, Inhabited

/-- Punctuation or an operator: the text that it is recognised by, the text of its token, and its
kind. -/
structure Mark where
  spelling : String
  written : String
  kind : Kind
deriving DecidableEq, Repr

namespace Kind

/-- Every kind with the name that messages give it. -/
def names : List (Kind × String) :=
  [(endOfInput, "EOF"), (number, "Number"), (string, "String"), (identifier, "Identifier"),
    (openCurly, "OpenCurly"), (closeCurly, "CloseCurly"), (openParen, "OpenParen"),
    (closeParen, "CloseParen"), (assignment, "Assignment"), (equals, "Equals"), (not, "Not"),
    (notEquals, "NotEquals"), (less, "Less"), (lessEquals, "LessEquals"), (greater, "Greater"),
    (greaterEquals, "GreaterEquals"), (or, "Or"), (and, "And"), (dot, "Dot"),
    (semicolon, "Semicolon"), (colon, "Colon"), (question, "Question"), (comma, "Comma"),
    (plus, "Plus"), (dash, "Dash"), (slash, "Slash"), (star, "Star"), (percent, "Percent"),
    (letWord, "Let"), (fnWord, "Fn"), (classWord, "Class"), (ifWord, "If"), (elseWord, "Else"),
    (whileWord, "While"), (doWord, "Do"), (forWord, "For"), (switchWord, "Switch"),
    (caseWord, "Case"), (defaultWord, "Default"), (breakWord, "Break"),
    (continueWord, "Continue"), (returnWord, "Return"), (printWord, "Print"),
    (selfWord, "SelfKw"), (superWord, "Super"), (trueWord, "True"), (falseWord, "False"),
    (nilWord, "Nil")]

/-- The name that messages give the kind. -/
def name (kind : Kind) : String := (names.lookup kind).getD ""

/-- The kind of a name. -/
def ofName? (name : String) : Option Kind := (names.find? (·.2 = name)).map (·.1)

/-- The words that are no identifiers. -/
def reserved : List (String × Kind) :=
  [("let", letWord), ("fn", fnWord), ("class", classWord), ("if", ifWord), ("else", elseWord),
    ("while", whileWord), ("do", doWord), ("for", forWord), ("switch", switchWord),
    ("case", caseWord), ("default", defaultWord), ("break", breakWord),
    ("continue", continueWord), ("return", returnWord), ("print", printWord),
    ("self", selfWord), ("super", superWord), ("true", trueWord), ("false", falseWord),
    ("nil", nilWord)]

/-- The punctuation and the operators, each longer one before those that it begins with. -/
def marks : List Mark :=
  [⟨"\x7b", "\x7b", openCurly⟩, ⟨"\x7d", "\x7d", closeCurly⟩, ⟨"(", "(", openParen⟩,
    ⟨")", ")", closeParen⟩, ⟨"==", "==", equals⟩, ⟨"!=", "!=", notEquals⟩, ⟨"!", "!", not⟩,
    ⟨"=", "=", assignment⟩, ⟨"<=", "<=", lessEquals⟩, ⟨"<", "<", less⟩,
    ⟨">=", ">=", greaterEquals⟩, ⟨">", ">", greater⟩, ⟨"||", "||", or⟩, ⟨"&&", "&&", and⟩,
    ⟨".", ".", dot⟩, ⟨";", ";", semicolon⟩, ⟨":", ":", colon⟩, ⟨"?", "?", question⟩,
    ⟨",", ",", comma⟩, ⟨"+", "+", plus⟩, ⟨"-", "-", dash⟩, ⟨"/", "/", slash⟩, ⟨"*", "*", star⟩,
    ⟨"%", "%", percent⟩]

/-- The token of a mark says what the mark is recognised by. -/
theorem written_eq_spelling : ∀ mark ∈ marks, mark.written = mark.spelling := by
  decide

/-- Every kind has a name, so `name` never falls back. -/
theorem isSome_lookup_names (kind : Kind) : (names.lookup kind).isSome := by
  cases kind <;> decide

end Kind
end LexicalScoping
