import LexicalScoping.Grammar.Rules
import LexicalScoping.Proofs.Grammar.Spelling

/-!
# Well-shaped trees

A tree is well-shaped if the grammar derives it: every operand binds as tightly as its place asks
for, only variables and properties are assigned to, an `else` belongs to the nearest `if`, and the
tokens that the tree keeps have the kinds that their places ask for. The precedences are written
down here once more, from the grammar and apart from the tables of the parser.
-/
namespace LexicalScoping

/-- How tightly an operator with two operands holds them. -/
def binaryPower : Evaluation → Kind → Option Power
  | .shortCircuit, .or => some .logicalOr
  | .shortCircuit, .and => some .logicalAnd
  | .strict, .equals => some .equality
  | .strict, .notEquals => some .equality
  | .strict, .less => some .relational
  | .strict, .lessEquals => some .relational
  | .strict, .greater => some .relational
  | .strict, .greaterEquals => some .relational
  | .strict, .plus => some .additive
  | .strict, .dash => some .additive
  | .strict, .star => some .multiplicative
  | .strict, .slash => some .multiplicative
  | .strict, .percent => some .multiplicative
  | _, _ => none

/-- The level of the grammar that an expression stands on by its form. Calls and properties are on
one level. -/
def Expr.power : Expr → Power
  | .assign _ _ _ => .assignment
  | .set _ _ _ _ => .assignment
  | .conditional _ _ _ _ => .conditional
  | .binary evaluation _ operator _ _ => (binaryPower evaluation operator.kind).getD .lowest
  | .unary _ _ _ => .unary
  | .call _ _ _ => .call
  | .get _ _ _ => .call
  | .literal _ _ => .primary
  | .read _ => .primary
  | .grouping _ _ => .primary
  | .superMethod _ _ _ _ => .primary
  | .selfRef _ _ => .primary

mutual

/-- The grammar derives the expression. Operators with two operands group to the left, conditionals
and assignments to the right. -/
def Expr.WellShaped : Expr → Prop
  | .literal _ _ => True
  | .read target => target.name.kind = .identifier
  | .assign target value _ => target.name.kind = .identifier ∧ value.WellShaped
  | .binary evaluation left operator right _ =>
    (∃ power, binaryPower evaluation operator.kind = some power ∧ power ≤ left.power ∧
      power < right.power) ∧ left.WellShaped ∧ right.WellShaped
  | .unary operator operand _ =>
    (operator.kind = .dash ∨ operator.kind = .not) ∧ Power.unary ≤ operand.power ∧
      operand.WellShaped
  | .grouping content _ => content.WellShaped
  | .conditional condition thenBranch elseBranch _ =>
    Power.conditional < condition.power ∧ Power.assignment < elseBranch.power ∧
      condition.WellShaped ∧ thenBranch.WellShaped ∧ elseBranch.WellShaped
  | .call callee arguments _ =>
    Power.call ≤ callee.power ∧ callee.WellShaped ∧ Expr.WellShapedAll arguments
  | .get object name _ =>
    Power.call ≤ object.power ∧ name.kind = .identifier ∧ object.WellShaped
  | .set object name value _ =>
    Power.call ≤ object.power ∧ name.kind = .identifier ∧ object.WellShaped ∧ value.WellShaped
  | .superMethod _ keyword method _ => keyword.kind = .superWord ∧ method.kind = .identifier
  | .selfRef _ keyword => keyword.kind = .selfWord

def Expr.WellShapedAll : List Expr → Prop
  | [] => True
  | e :: rest => e.WellShaped ∧ Expr.WellShapedAll rest

end

def Expr.WellShaped? : Option Expr → Prop
  | none => True
  | some e => e.WellShaped

def LetDecl.WellShaped (declaration : LetDecl) : Prop :=
  declaration.name.kind = .identifier ∧ Expr.WellShaped? declaration.value

def ForStart.WellShaped : Option ForStart → Prop
  | none => True
  | some (.declare declaration) => declaration.WellShaped
  | some (.evaluate e _) => e.WellShaped

def Reference.WellShaped? : Option Reference → Prop
  | none => True
  | some parent => parent.name.kind = .identifier

/-- The statement ends in an `if` that an `else` behind it would belong to. -/
def Stmt.EndsOpen : Stmt → Prop
  | .ifElse _ _ none _ => True
  | .ifElse _ _ (some elseBody) _ => elseBody.EndsOpen
  | .whileLoop _ body _ => body.EndsOpen
  | .forLoop _ _ _ body _ => body.EndsOpen
  | _ => False

mutual

/-- The grammar derives the statement, with every `else` at the nearest `if`. -/
def Stmt.WellShaped : Stmt → Prop
  | .block body _ => Stmt.WellShapedAll body
  | .letDecl declaration => declaration.WellShaped
  | .expression e _ => e.WellShaped
  | .print e _ => e.WellShaped
  | .ifElse condition thenBody none _ => condition.WellShaped ∧ thenBody.WellShaped
  | .ifElse condition thenBody (some elseBody) _ =>
    condition.WellShaped ∧ thenBody.WellShaped ∧ ¬ thenBody.EndsOpen ∧ elseBody.WellShaped
  | .whileLoop condition body _ => condition.WellShaped ∧ body.WellShaped
  | .doWhile body condition _ => body.WellShaped ∧ condition.WellShaped
  | .forLoop start condition increment body _ =>
    ForStart.WellShaped start ∧ Expr.WellShaped? condition ∧ Expr.WellShaped? increment ∧
      body.WellShaped
  | .switch subject arms _ => subject.WellShaped ∧ Case.WellShapedAll arms
  | .breakLoop keyword => keyword.kind = .breakWord
  | .continueLoop keyword => keyword.kind = .continueWord
  | .returnValue keyword value _ => keyword.kind = .returnWord ∧ Expr.WellShaped? value
  | .function declaration => declaration.WellShaped
  | .classDecl name superclass methods _ =>
    name.kind = .identifier ∧ Reference.WellShaped? superclass ∧ Function.WellShapedAll methods

def Stmt.WellShapedAll : List Stmt → Prop
  | [] => True
  | s :: rest => s.WellShaped ∧ Stmt.WellShapedAll rest

def Case.WellShapedAll : List Case → Prop
  | [] => True
  | .mk value body _ :: rest =>
    Expr.WellShaped? value ∧ Stmt.WellShapedAll body ∧ Case.WellShapedAll rest

def Function.WellShaped : Function → Prop
  | .mk name parameters body _ =>
    name.kind = .identifier ∧ (∀ parameter ∈ parameters, parameter.kind = .identifier) ∧
      Stmt.WellShapedAll body

def Function.WellShapedAll : List Function → Prop
  | [] => True
  | f :: rest => f.WellShaped ∧ Function.WellShapedAll rest

end

/-!
## Trees without numbers and stretches

Trees that differ only in the numbers of their references and in the stretches that their nodes
cover are equal once both are taken off. A literal keeps its stretch, which is that of its token.
-/

/-- The reference without its number. -/
def Reference.bare (reference : Reference) : Reference := { reference with id := 0 }

mutual

def Expr.bare : Expr → Expr
  | .literal value span => .literal value span
  | .read target => .read target.bare
  | .assign target value _ => .assign target.bare value.bare default
  | .binary evaluation left operator right _ =>
    .binary evaluation left.bare operator right.bare default
  | .unary operator operand _ => .unary operator operand.bare default
  | .grouping content _ => .grouping content.bare default
  | .conditional condition thenBranch elseBranch _ =>
    .conditional condition.bare thenBranch.bare elseBranch.bare default
  | .call callee arguments _ => .call callee.bare (Expr.bareAll arguments) default
  | .get object name _ => .get object.bare name default
  | .set object name value _ => .set object.bare name value.bare default
  | .superMethod _ keyword method _ => .superMethod 0 keyword method default
  | .selfRef _ keyword => .selfRef 0 keyword

def Expr.bareAll : List Expr → List Expr
  | [] => []
  | e :: rest => e.bare :: Expr.bareAll rest

end

def LetDecl.bare (declaration : LetDecl) : LetDecl :=
  ⟨declaration.name, declaration.value.map Expr.bare, default⟩

def ForStart.bare : ForStart → ForStart
  | .declare declaration => .declare declaration.bare
  | .evaluate e _ => .evaluate e.bare default

mutual

def Stmt.bare : Stmt → Stmt
  | .block body _ => .block (Stmt.bareAll body) default
  | .letDecl declaration => .letDecl declaration.bare
  | .expression e _ => .expression e.bare default
  | .print e _ => .print e.bare default
  | .ifElse condition thenBody none _ => .ifElse condition.bare thenBody.bare none default
  | .ifElse condition thenBody (some elseBody) _ =>
    .ifElse condition.bare thenBody.bare (some elseBody.bare) default
  | .whileLoop condition body _ => .whileLoop condition.bare body.bare default
  | .doWhile body condition _ => .doWhile body.bare condition.bare default
  | .forLoop start condition increment body _ =>
    .forLoop (start.map ForStart.bare) (condition.map Expr.bare) (increment.map Expr.bare)
      body.bare default
  | .switch subject arms _ => .switch subject.bare (Case.bareAll arms) default
  | .breakLoop keyword => .breakLoop keyword
  | .continueLoop keyword => .continueLoop keyword
  | .returnValue keyword value _ => .returnValue keyword (value.map Expr.bare) default
  | .function declaration => .function declaration.bare
  | .classDecl name superclass methods _ =>
    .classDecl name (superclass.map Reference.bare) (Function.bareAll methods) default

def Stmt.bareAll : List Stmt → List Stmt
  | [] => []
  | s :: rest => s.bare :: Stmt.bareAll rest

def Case.bareAll : List Case → List Case
  | [] => []
  | .mk value body _ :: rest =>
    .mk (value.map Expr.bare) (Stmt.bareAll body) default :: Case.bareAll rest

def Function.bare : Function → Function
  | .mk name parameters body _ => .mk name parameters (Stmt.bareAll body) default

def Function.bareAll : List Function → List Function
  | [] => []
  | f :: rest => f.bare :: Function.bareAll rest

end

end LexicalScoping
