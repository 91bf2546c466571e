import LexicalScoping.Token.Kind

/-!
# Which rule reads what

The grammar is three tables from the kind of the next token: the statements that begin with it, the
operands that begin with it, and the operators that it is, with how tightly they bind. The rules
themselves are named here and given elsewhere, so that a table is plain data and a grammar can be
changed entry by entry.
-/
namespace LexicalScoping

/-- How tightly an operator holds its operands, from the loosest to the tightest. -/
inductive Power
  | lowest
  | assignment
  | conditional
  | logicalOr
  | logicalAnd
  | equality
  | relational
  | additive
  | multiplicative
  | unary
  | call
  | member
  | primary
deriving DecidableEq, Repr, Inhabited

namespace Power

/-- The place in the order. -/
def rank : Power → Nat
  | lowest => 0
  | assignment => 1
  | conditional => 2
  | logicalOr => 3
  | logicalAnd => 4
  | equality => 5
  | relational => 6
  | additive => 7
  | multiplicative => 8
  | unary => 9
  | call => 10
  | member => 11
  | primary => 12

instance : LT Power := ⟨fun p q => p.rank < q.rank⟩

instance : LE Power := ⟨fun p q => p.rank ≤ q.rank⟩

instance (p q : Power) : Decidable (p < q) := inferInstanceAs (Decidable (p.rank < q.rank))

instance (p q : Power) : Decidable (p ≤ q) := inferInstanceAs (Decidable (p.rank ≤ q.rank))

theorem lt_iff_rank_lt {p q : Power} : p < q ↔ p.rank < q.rank := Iff.rfl

theorem le_iff_rank_le {p q : Power} : p ≤ q ↔ p.rank ≤ q.rank := Iff.rfl

end Power

/-- The rules that read a statement by its first token. -/
inductive StatementRule
  | any
  | expression
  | letDecl
  | print
  | ifElse
  | whileLoop
  | doWhile
  | forLoop
  | switch
  | breakLoop
  | continueLoop
  | returnValue
  | block
  | function
  | classDecl
deriving DecidableEq, Repr, Inhabited

/-- The rules that read an operand by its first token. -/
inductive OperandRule
  | primary
  | selfRef
  | superMethod
  | unary
  | grouping
deriving DecidableEq, Repr, Inhabited

/-- The rules that read what follows a left operand. -/
inductive OperatorRule
  | assignment
  | conditional
  | logical
  | binary
  | call
  | member
deriving DecidableEq, Repr, Inhabited

/-- A grammar. A kind that begins no listed statement begins an expression statement. -/
structure Rules where
  statement : Kind → Option StatementRule
  operand : Kind → Option OperandRule
  operator : Kind → Option (Power × OperatorRule)

namespace Rules

/-- The grammar without any entry. -/
def empty : Rules := ⟨fun _ => none, fun _ => none, fun _ => none⟩

def standardStatement : Kind → Option StatementRule
  | .letWord => some .letDecl
  | .fnWord => some .function
  | .classWord => some .classDecl
  | .printWord => some .print
  | .ifWord => some .ifElse
  | .whileWord => some .whileLoop
  | .doWord => some .doWhile
  | .forWord => some .forLoop
  | .switchWord => some .switch
  | .breakWord => some .breakLoop
  | .continueWord => some .continueLoop
  | .returnWord => some .returnValue
  | .openCurly => some .block
  | _ => none

def standardOperand : Kind → Option OperandRule
  | .number => some .primary
  | .string => some .primary
  | .trueWord => some .primary
  | .falseWord => some .primary
  | .nilWord => some .primary
  | .identifier => some .primary
  | .selfWord => some .selfRef
  | .superWord => some .superMethod
  | .dash => some .unary
  | .not => some .unary
  | .openParen => some .grouping
  | _ => none

def standardOperator : Kind → Option (Power × OperatorRule)
  | .assignment => some (.assignment, .assignment)
  | .question => some (.conditional, .conditional)
  | .or => some (.logicalOr, .logical)
  | .and => some (.logicalAnd, .logical)
  | .equals => some (.equality, .binary)
  | .notEquals => some (.equality, .binary)
  | .less => some (.relational, .binary)
  | .lessEquals => some (.relational, .binary)
  | .greater => some (.relational, .binary)
  | .greaterEquals => some (.relational, .binary)
  | .plus => some (.additive, .binary)
  | .dash => some (.additive, .binary)
  | .star => some (.multiplicative, .binary)
  | .slash => some (.multiplicative, .binary)
  | .percent => some (.multiplicative, .binary)
  | .openParen => some (.call, .call)
  | .dot => some (.member, .member)
  | _ => none

/-- The grammar of the language. -/
def standard : Rules := ⟨standardStatement, standardOperand, standardOperator⟩

/-- The grammar with the rule for statements that begin with the kind set. -/
def setStatement (rules : Rules) (kind : Kind) (rule : StatementRule) : Rules :=
  { rules with statement := fun k => if k = kind then some rule else rules.statement k }

/-- The grammar with the rule for operands that begin with the kind set. -/
def setOperand (rules : Rules) (kind : Kind) (rule : OperandRule) : Rules :=
  { rules with operand := fun k => if k = kind then some rule else rules.operand k }

/-- The grammar with the kind made an operator of the given power. -/
def setOperator (rules : Rules) (kind : Kind) (power : Power) (rule : OperatorRule) : Rules :=
  { rules with operator := fun k => if k = kind then some (power, rule) else rules.operator k }

/-- The power of a kind as an operator, the lowest when it is none. -/
def power (rules : Rules) (kind : Kind) : Power :=
  match rules.operator kind with
  | some (power, _) => power
  | none => .lowest

end Rules
end LexicalScoping
