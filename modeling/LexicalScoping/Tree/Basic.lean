import LexicalScoping.Token.Basic

/-!
# Syntax trees

Every node keeps the tokens that name things and the stretch of source that it covers. The nodes
that refer to a name carry a number of their own, by which the resolution of the program is looked
up: reads and assignments of variables, superclasses, `self` and `super`.
-/
namespace LexicalScoping

/-- A numbered use of a name. -/
structure Reference where
  id : Nat
  name : Token
deriving DecidableEq, Repr, Inhabited

/-- How an operator with two operands treats the right one. -/
inductive Evaluation
  /-- Both operands are always evaluated. -/
  | strict
  /-- The right operand is evaluated only if the left one does not decide. -/
  | shortCircuit
deriving DecidableEq, Repr, Inhabited

/-- An expression. -/
inductive Expr
  | literal (value : Literal) (span : Span)
  | read (target : Reference)
  | assign (target : Reference) (value : Expr) (span : Span)
  | binary (evaluation : Evaluation) (left : Expr) (operator : Token) (right : Expr) (span : Span)
  | unary (operator : Token) (operand : Expr) (span : Span)
  | grouping (content : Expr) (span : Span)
  | conditional (condition thenBranch elseBranch : Expr) (span : Span)
  | call (callee : Expr) (arguments : List Expr) (span : Span)
  | get (object : Expr) (name : Token) (span : Span)
  | set (object : Expr) (name : Token) (value : Expr) (span : Span)
  | superMethod (id : Nat) (keyword method : Token) (span : Span)
  | selfRef (id : Nat) (keyword : Token)
deriving Inhabited

/-- The stretch of source that an expression covers. -/
def Expr.span : Expr → Span
  | .literal _ span => span
  | .read target => target.name.span
  | .assign _ _ span => span
  | .binary _ _ _ _ span => span
  | .unary _ _ span => span
  | .grouping _ span => span
  | .conditional _ _ _ span => span
  | .call _ _ span => span
  | .get _ _ span => span
  | .set _ _ _ span => span
  | .superMethod _ _ _ span => span
  | .selfRef _ keyword => keyword.span

/-- A variable declaration, as a statement or as the first clause of a `for`. -/
structure LetDecl where
  name : Token
  value : Option Expr
  span : Span
deriving Inhabited

/-- The first clause of a `for`. Only a variable declaration or an expression can stand there, and
the parser builds no other. All other statements are left out: a block, a branch, a loop, a `print`,
a jump, or the declaration of a function or class is no first clause, so what holds of every
statement is not said of a `for` that starts with one of these. -/
inductive ForStart
  | declare (declaration : LetDecl)
  | evaluate (expression : Expr) (span : Span)
deriving Inhabited

mutual

/-- A statement. -/
inductive Stmt
  | block (body : List Stmt) (span : Span)
  | letDecl (declaration : LetDecl)
  | expression (expression : Expr) (span : Span)
  | print (expression : Expr) (span : Span)
  | ifElse (condition : Expr) (thenBody : Stmt) (elseBody : Option Stmt) (span : Span)
  | whileLoop (condition : Expr) (body : Stmt) (span : Span)
  | doWhile (body : Stmt) (condition : Expr) (span : Span)
  | forLoop (start : Option ForStart) (condition increment : Option Expr) (body : Stmt)
      (span : Span)
  | switch (subject : Expr) (cases : List Case) (span : Span)
  | breakLoop (keyword : Token)
  | continueLoop (keyword : Token)
  | returnValue (keyword : Token) (value : Option Expr) (span : Span)
  | function (declaration : Function)
  | classDecl (name : Token) (superclass : Option Reference) (methods : List Function)
      (span : Span)

/-- One arm of a `switch`; the arm without a value is the default. The span covers the arm from its
keyword on. -/
inductive Case
  | mk (value : Option Expr) (body : List Stmt) (span : Span)

/-- A function, or a method of a class. -/
inductive Function
  | mk (name : Token) (parameters : List Token) (body : List Stmt) (span : Span)

end

instance : Inhabited Stmt := ⟨.block [] default⟩

instance : Inhabited Case := ⟨.mk none [] default⟩

instance : Inhabited Function := ⟨.mk default [] [] default⟩

namespace Function

def name : Function → Token
  | .mk name _ _ _ => name

def parameters : Function → List Token
  | .mk _ parameters _ _ => parameters

def body : Function → List Stmt
  | .mk _ _ body _ => body

def span : Function → Span
  | .mk _ _ _ span => span

end Function
end LexicalScoping
