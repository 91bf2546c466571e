import LexicalScoping.Grammar.Parse
import LexicalScoping.Tree.Basic

/-!
# Reading expressions

An expression is an operand followed by operators, each of which takes what has been read so far as
its left operand. Operators that bind no tighter than the expression's place allows are left to
whoever asked for the expression. Each rule reads the expressions inside its own through the parser
that it is given, so the nesting of rules is decided in one place, `expressionWithin`.
-/
namespace LexicalScoping
namespace Parse

/-- Reads an expression whose operators all bind tighter than the power. -/
abbrev ExpressionParser : Type := Power → Parse Expr

/-- A literal or the name of a variable. -/
def primary : Parse Expr := do
  let token ← peek
  match token.kind with
  | .number | .string | .trueWord | .falseWord | .nilWord =>
    match token.literal with
    | none => failHere fun token => .numberParseError token.text
    | some value =>
      let _ ← advance
      return .literal value token.span
  | .identifier =>
    let _ ← advance
    return .read ⟨← freshId, token⟩
  | _ => unexpected

def selfRef : Parse Expr := do
  let keyword ← advance
  return .selfRef (← freshId) keyword

def superMethod : Parse Expr := do
  let keyword ← advance
  let _ ← expectBut .dot "expected '.' after 'super'"
  let method ← expectBut .identifier "expected superclass method name"
  return .superMethod (← freshId) keyword method ⟨keyword.span.start, method.span.stop⟩

def unary (expression : ExpressionParser) : Parse Expr := do
  let operator ← advance
  let operand ← expression .unary
  return .unary operator operand ⟨operator.span.start, operand.span.stop⟩

def grouping (expression : ExpressionParser) : Parse Expr := do
  let opening ← advance
  let content ← expression .lowest
  let _ ← expectBut .closeParen "expected ')' after expression"
  return .grouping content (← spanFrom opening.span.start)

/-- The right operand of a binary operator binds tighter than the operator itself. -/
def binary (expression : ExpressionParser) (evaluation : Evaluation) (left : Expr)
    (power : Power) : Parse Expr := do
  let operator ← advance
  let right ← expression power
  return .binary evaluation left operator right ⟨left.span.start, right.span.stop⟩

/-- Turns what was read before an assignment operator into its target. -/
def assignTo (operator : Token) (value : Expr) (span : Span) : Expr → Parse Expr
  | .read target => do return .assign ⟨← freshId, target.name⟩ value span
  | .get object name _ => return .set object name value span
  | _ => failOn operator .invalidAssignmentTarget

/-- Assignment associates to the right, so its value is a whole expression. -/
def assignment (expression : ExpressionParser) (left : Expr) : Parse Expr := do
  let operator ← advance
  let value ← expression .lowest
  assignTo operator value ⟨left.span.start, value.span.stop⟩ left

def conditional (expression : ExpressionParser) (condition : Expr) : Parse Expr := do
  let _ ← advance
  let thenBranch ← expression .lowest
  let _ ← expectBut .colon "expected ':' in conditional expression"
  let elseBranch ← expression .assignment
  return .conditional condition thenBranch elseBranch
    ⟨condition.span.start, elseBranch.span.stop⟩

def call (expression : ExpressionParser) (callee : Expr) : Parse Expr := do
  let _ ← advance
  let arguments ← separatedUntil .closeParen (expression .lowest)
  let _ ← expectBut .closeParen "expected ')' after arguments"
  return .call callee arguments (← spanFrom callee.span.start)

def member (object : Expr) : Parse Expr := do
  let _ ← advance
  let name ← expectBut .identifier "expected property name after '.'"
  return .get object name ⟨object.span.start, name.span.stop⟩

end Parse

/-- The operand that the rule reads. -/
def OperandRule.parse (expression : Parse.ExpressionParser) : OperandRule → Parse Expr
  | primary => Parse.primary
  | selfRef => Parse.selfRef
  | superMethod => Parse.superMethod
  | unary => Parse.unary expression
  | grouping => Parse.grouping expression

/-- The expression that the rule makes of its left operand and what follows. -/
def OperatorRule.parse (expression : Parse.ExpressionParser) (left : Expr) (power : Power) :
    OperatorRule → Parse Expr
  | assignment => Parse.assignment expression left
  | conditional => Parse.conditional expression left
  | logical => Parse.binary expression .shortCircuit left power
  | binary => Parse.binary expression .strict left power
  | call => Parse.call expression left
  | member => Parse.member left

namespace Parse

/-- Reads an operand by the rule for the current token. -/
def operand (rules : Rules) (expression : ExpressionParser) : Parse Expr := do
  match rules.operand (← peek).kind with
  | some rule => rule.parse expression
  | none => unexpected

/-- Lets operators that bind tighter than the floor take what has been read as their left operand,
as long as there are any. -/
def operators (rules : Rules) (expression : ExpressionParser) (floor : Power) (left : Expr)
    (s : ParseState) : Except Diagnostic Expr × ParseState :=
  match rules.operator s.current.kind with
  | none => (.ok left, s)
  | some (power, rule) =>
    if floor < power then
      match rule.parse expression left power s with
      | (.error e, s') => (.error e, s')
      | (.ok whole, s') =>
        if s'.after.length < s.after.length then operators rules expression floor whole s'
        else (.ok whole, s')
    else (.ok left, s)
termination_by s.after.length

/-- Reads an expression while at most the given number of levels are opened in it. -/
def expressionWithin (rules : Rules) : Nat → ExpressionParser
  | 0, _ => failHere fun _ => .nestingTooDeep maxNesting
  | levels + 1, floor => nested do
    let left ← operand rules (expressionWithin rules levels)
    operators rules (expressionWithin rules levels) floor left

/-- Reads an expression whose operators all bind tighter than the floor. One level more than can be
open is never used up, so the bound on levels does not show. -/
def expression (rules : Rules) : ExpressionParser := expressionWithin rules (maxNesting + 1)

end Parse
end LexicalScoping
