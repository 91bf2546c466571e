import LexicalScoping.Grammar.Expression

/-!
# Reading statements

A statement is read by the rule for its first token; without one it is an expression and a
semicolon. As with expressions, each rule reads the expressions and statements inside its own
through the parsers that it is given, and `statementWithin` decides how they nest. A program is the
statements up to the end of input.
-/
namespace LexicalScoping
namespace Parse

/-- An expression and its semicolon, with the stretch that they cover. -/
def evaluated (expression : Parse Expr) : Parse (Expr × Span) := do
  let start := (← peek).span.start
  let value ← expression
  let _ ← expect .semicolon
  return (value, ← spanFrom start)

def expressionStatement (expression : Parse Expr) : Parse Stmt := do
  let (value, span) ← evaluated expression
  return .expression value span

def letDecl (expression : Parse Expr) : Parse LetDecl := do
  let keyword ← advance
  let name ← expectBut .identifier "expected identifier during variable declaration"
  let value ← afterKind .assignment expression
  let _ ← expect .semicolon
  return ⟨name, value, ← spanFrom keyword.span.start⟩

def print (expression : Parse Expr) : Parse Stmt := do
  let keyword ← advance
  let value ← expression
  let _ ← expect .semicolon
  return .print value (← spanFrom keyword.span.start)

/-- The expression between parentheses that the named construct needs. -/
def head (expression : Parse Expr) (construct : String) : Parse Expr := do
  let _ ← expectBut .openParen ("expected '(' after '" ++ construct ++ "'")
  let value ← expression
  let _ ← expectBut .closeParen ("expected ')' after " ++ construct ++ " condition")
  return value

def ifElse (expression : Parse Expr) (statement : Parse Stmt) : Parse Stmt := do
  let keyword ← advance
  let condition ← head expression "if"
  let thenBody ← statement
  let elseBody ← afterKind .elseWord statement
  return .ifElse condition thenBody elseBody (← spanFrom keyword.span.start)

def whileLoop (expression : Parse Expr) (statement : Parse Stmt) : Parse Stmt := do
  let keyword ← advance
  let condition ← head expression "while"
  let body ← statement
  return .whileLoop condition body (← spanFrom keyword.span.start)

def doWhile (expression : Parse Expr) (statement : Parse Stmt) : Parse Stmt := do
  let keyword ← advance
  let body ← statement
  let _ ← expectBut .whileWord "expected 'while' after do body"
  let condition ← head expression "while"
  let _ ← expect .semicolon
  return .doWhile body condition (← spanFrom keyword.span.start)

/-- The first clause of a `for` with its semicolon. -/
def forStart (expression : Parse Expr) : Parse (Option ForStart) := do
  match (← peek).kind with
  | .semicolon =>
    let _ ← advance
    return none
  | .letWord => return some (.declare (← letDecl expression))
  | _ =>
    let (value, span) ← evaluated expression
    return some (.evaluate value span)

def forLoop (expression : Parse Expr) (statement : Parse Stmt) : Parse Stmt := do
  let keyword ← advance
  let _ ← expectBut .openParen "expected '(' after 'for'"
  let start ← forStart expression
  let condition ← unlessKind .semicolon expression
  let _ ← expectBut .semicolon "expected ';' after loop condition"
  let increment ← unlessKind .closeParen expression
  let _ ← expectBut .closeParen "expected ')' after for clauses"
  let body ← statement
  return .forLoop start condition increment body (← spanFrom keyword.span.start)

/-- What announces an arm of a `switch`: the value to compare with, or nothing for the default. -/
def caseValue (expression : Parse Expr) : Parse (Option Expr) := do
  match (← peek).kind with
  | .caseWord =>
    let _ ← advance
    return some (← expression)
  | .defaultWord =>
    let _ ← advance
    return none
  | _ => unexpectedBut "expected 'case' or 'default'"

/-- The kinds that end the statements of an arm. -/
def endsCase : Kind → Bool
  | .caseWord | .defaultWord | .closeCurly | .endOfInput => true
  | _ => false

def case (expression : Parse Expr) (statement : Parse Stmt) : Parse Case := do
  let start := (← peek).span.start
  let value ← caseValue expression
  let _ ← expectBut .colon "expected ':' after case"
  let body ← manyUntil endsCase statement
  return .mk value body (← spanFrom start)

def switch (expression : Parse Expr) (statement : Parse Stmt) : Parse Stmt := do
  let keyword ← advance
  let subject ← head expression "switch"
  let _ ← expectBut .openCurly "expected '\x7b' before switch cases"
  let cases ← manyUntil (· = .closeCurly) (case expression statement)
  let _ ← expect .closeCurly
  return .switch subject cases (← spanFrom keyword.span.start)

def breakLoop : Parse Stmt := do
  let keyword ← advance
  let _ ← expect .semicolon
  return .breakLoop keyword

def continueLoop : Parse Stmt := do
  let keyword ← advance
  let _ ← expect .semicolon
  return .continueLoop keyword

def returnValue (expression : Parse Expr) : Parse Stmt := do
  let keyword ← advance
  let value ← unlessKind .semicolon expression
  let _ ← expect .semicolon
  return .returnValue keyword value (← spanFrom keyword.span.start)

/-- The kinds that end the content of curly brackets. -/
def endsBlock : Kind → Bool
  | .closeCurly | .endOfInput => true
  | _ => false

/-- Statements between curly brackets, with the stretch that they cover. -/
def block (statement : Parse Stmt) : Parse (List Stmt × Span) := do
  let opening ← expectBut .openCurly "expected '\x7b' before block"
  let body ← manyUntil endsBlock statement
  let _ ← expectBut .closeCurly "expected '\x7d' after block"
  return (body, ← spanFrom opening.span.start)

def blockStatement (statement : Parse Stmt) : Parse Stmt := do
  let (body, span) ← block statement
  return .block body span

/-- A function from its name on, covering the source from the given place. -/
def functionFrom (statement : Parse Stmt) (start : Position) : Parse Function := do
  let name ← expectBut .identifier "expected function name"
  let _ ← expectBut .openParen "expected '(' after function name"
  let parameters ← separatedUntil .closeParen (expectBut .identifier "expected parameter name")
  let _ ← expectBut .closeParen "expected ')' after parameters"
  let (body, _) ← block statement
  return .mk name parameters body (← spanFrom start)

def function (statement : Parse Stmt) : Parse Stmt := do
  let keyword ← advance
  return .function (← functionFrom statement keyword.span.start)

def method (statement : Parse Stmt) : Parse Function := do
  let start := (← peek).span.start
  functionFrom statement start

/-- The superclass that a class names. -/
def superclass : Parse Reference := do
  let name ← expectBut .identifier "expected superclass name"
  return ⟨← freshId, name⟩

def classDecl (statement : Parse Stmt) : Parse Stmt := do
  let keyword ← advance
  let name ← expectBut .identifier "expected class name"
  let parent ← afterKind .less superclass
  let _ ← expectBut .openCurly "expected '\x7b' before class body"
  let methods ← manyUntil endsBlock (method statement)
  let _ ← expectBut .closeCurly "expected '\x7d' after class body"
  return .classDecl name parent methods (← spanFrom keyword.span.start)

end Parse

/-- The statement that the rule reads. -/
def StatementRule.parse (expression : Parse Expr) (statement : Parse Stmt) :
    StatementRule → Parse Stmt
  | any => statement
  | .expression => Parse.expressionStatement expression
  | letDecl => do return .letDecl (← Parse.letDecl expression)
  | print => Parse.print expression
  | ifElse => Parse.ifElse expression statement
  | whileLoop => Parse.whileLoop expression statement
  | doWhile => Parse.doWhile expression statement
  | forLoop => Parse.forLoop expression statement
  | switch => Parse.switch expression statement
  | breakLoop => Parse.breakLoop
  | continueLoop => Parse.continueLoop
  | returnValue => Parse.returnValue expression
  | block => Parse.blockStatement statement
  | function => Parse.function statement
  | classDecl => Parse.classDecl statement

namespace Parse

/-- Reads a statement while at most the given number of levels are opened in it. -/
def statementWithin (rules : Rules) : Nat → Parse Stmt
  | 0 => failHere fun _ => .nestingTooDeep maxNesting
  | levels + 1 => nested do
    let rule := (rules.statement (← peek).kind).getD .expression
    rule.parse (expressionWithin rules levels .lowest) (statementWithin rules levels)

/-- Reads a statement. As with expressions, the bound on levels does not show. -/
def statement (rules : Rules) : Parse Stmt := statementWithin rules (maxNesting + 1)

end Parse

/-- A syntax tree, and how many references are in it or were given up while it was read. -/
structure Program where
  statements : List Stmt
  idCount : Nat
deriving Inhabited

namespace Program

/-- Reads the statements up to the end of input, and the state that is left. -/
def run (tokens : List Token) : Except Diagnostic (List Stmt) × ParseState :=
  Parse.manyUntil (· = .endOfInput) (Parse.statement .standard) (ParseState.ofTokens tokens)

/-- The program that the tokens spell, or the first thing wrong with them. What follows the first
end of input is not looked at. -/
def parse (tokens : List Token) : Except Diagnostic Program :=
  match run tokens with
  | (.ok statements, s) => .ok ⟨statements, s.given⟩
  | (.error e, _) => .error e

end Program
end LexicalScoping
