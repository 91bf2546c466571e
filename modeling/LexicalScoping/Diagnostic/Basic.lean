import LexicalScoping.Token.Basic

/-!
# Diagnostics

A diagnostic is a cause at a place. Causes are data; `message` and `tip` hold all the wording, and
`display` puts the place before the message.
-/
namespace LexicalScoping

/-- Why a source is rejected. -/
inductive Cause
  | unrecognisedToken (token : String)
  | unterminatedString
  | unexpectedToken (token : String)
  | unexpectedTokenDetailed (token message : String)
  | numberParseError (token : String)
  | invalidAssignmentTarget
  | nestingTooDeep (limit : Nat)
  | variableAlreadyDeclared (variableName : String)
  | readInOwnInitializer (variableName : String)
  | selfOutsideClass
  | superOutsideClass
  | superWithoutSuperclass
  | breakOutsideLoop
  | continueOutsideLoop
  | returnOutsideFunction
  | returnValueFromInitializer
deriving DecidableEq, Repr, Inhabited

namespace Cause

/-- The cause's short name. -/
def name : Cause → String
  | unrecognisedToken _ => "UnrecognisedToken"
  | unterminatedString => "UnterminatedString"
  | unexpectedToken _ => "UnexpectedToken"
  | unexpectedTokenDetailed _ _ => "UnexpectedTokenDetailed"
  | numberParseError _ => "NumberParseError"
  | invalidAssignmentTarget => "InvalidAssignmentTarget"
  | nestingTooDeep _ => "NestingTooDeep"
  | variableAlreadyDeclared _ => "VariableAlreadyDeclared"
  | readInOwnInitializer _ => "ReadInOwnInitializer"
  | selfOutsideClass => "SelfOutsideClass"
  | superOutsideClass => "SuperOutsideClass"
  | superWithoutSuperclass => "SuperWithoutSuperclass"
  | breakOutsideLoop => "BreakOutsideLoop"
  | continueOutsideLoop => "ContinueOutsideLoop"
  | returnOutsideFunction => "ReturnOutsideFunction"
  | returnValueFromInitializer => "ReturnValueFromInitializer"

/-- What is wrong. Names are quoted. -/
def message : Cause → String
  | unrecognisedToken token => "unrecognised token: " ++ Text.quote token
  | unterminatedString => "unterminated string"
  | unexpectedToken token => "unexpected token: " ++ Text.quote token
  | unexpectedTokenDetailed token message =>
    "unexpected token (" ++ message ++ "): " ++ Text.quote token
  | numberParseError token => "error parsing number: " ++ Text.quote token
  | invalidAssignmentTarget => "invalid assignment target"
  | nestingTooDeep limit => "nesting exceeds " ++ toString limit ++ " levels"
  | variableAlreadyDeclared x =>
    "variable " ++ Text.quote x ++ " already declared in this scope"
  | readInOwnInitializer x =>
    "cannot read local variable " ++ Text.quote x ++ " in its own initializer"
  | selfOutsideClass => "cannot use 'self' outside of a class"
  | superOutsideClass => "cannot use 'super' outside of a class"
  | superWithoutSuperclass => "cannot use 'super' in a class with no superclass"
  | breakOutsideLoop => "'break' can only be used inside loops and switch cases"
  | continueOutsideLoop => "'continue' can only be used inside loops and switch cases"
  | returnOutsideFunction => "cannot return from top-level code"
  | returnValueFromInitializer => "cannot return a value from an initializer"

/-- What to do about it, if there is anything to say. Names are given as they are. -/
def tip : Cause → Option String
  | unrecognisedToken _ => none
  | unterminatedString => some "String literal is missing its closing `\"`"
  | unexpectedToken token =>
    some ("Unexpected token: `" ++ token ++ "`, did you miss a semicolon?")
  | unexpectedTokenDetailed token message =>
    some ("Unexpected token: `" ++ token ++ "`, " ++ message)
  | numberParseError token => some ("Invalid number: `" ++ token ++ "`")
  | invalidAssignmentTarget => some "Only variables and properties can be assigned to"
  | nestingTooDeep limit =>
    some ("Blocks and expressions may nest at most " ++ toString limit ++ " levels deep")
  | variableAlreadyDeclared x => some ("Variable `" ++ x ++ "` already declared in this scope")
  | readInOwnInitializer x => some ("Variable `" ++ x ++ "` is read inside its own initializer")
  | selfOutsideClass => some "`self` is only valid inside a method"
  | superOutsideClass => some "`super` is only valid inside a method"
  | superWithoutSuperclass => some "Declare a superclass with `class Name < Base` to use `super`"
  | breakOutsideLoop => some "`break` is only valid inside loops and switch cases"
  | continueOutsideLoop => some "`continue` is only valid inside loops and switch cases"
  | returnOutsideFunction => some "`return` is only valid inside a function or method"
  | returnValueFromInitializer =>
    some "Initializers always return the new instance, use a bare `return;`"

end Cause

/-- A cause and the place that it is about. -/
structure Diagnostic where
  cause : Cause
  position : Position
deriving DecidableEq, Repr, Inhabited

/-- A diagnostic about a token stands at the token's start. -/
def Token.diagnostic (token : Token) (cause : Cause) : Diagnostic := ⟨cause, token.span.start⟩

/-- The place and the message on one line. -/
def Diagnostic.display (d : Diagnostic) : String :=
  d.position.file ++ ":" ++ toString d.position.line ++ ":" ++ toString d.position.column ++ ": " ++
    d.cause.message

/-- An answer that is given is found by computing it. -/
theorem eq_ok_get {ε α : Type} {answer : Except ε α} (h : answer.toOption.isSome) :
    answer = .ok (answer.toOption.get h) := by
  cases answer with
  | ok value => rfl
  | error e => cases h

theorem exists_eq_error_of_isNone {ε α : Type} {answer : Except ε α}
    (h : answer.toOption.isNone) : ∃ e, answer = .error e := by
  cases answer with
  | ok value => cases h
  | error e => exact ⟨e, rfl⟩

end LexicalScoping
