import LexicalScoping.Proofs.Grammar.Derived
import Mathlib.Data.List.Permutation

/-!
# How the nodes of a program group

What a well-shaped tree is, is said here once more node by node, with the powers of the parser's own
table: which expressions may be the operands of an operator, and which statement may stand before an
`else`. Every node of a well-shaped tree is well-shaped, so the theorem about single nodes holds
everywhere in a program that has been read.
-/
namespace LexicalScoping

namespace Expr

/-- An assignment to a variable or to a property. -/
def isAssignment : Expr → Bool
  | assign _ _ _ => true
  | set _ _ _ _ => true
  | _ => false

def isConditional : Expr → Bool
  | conditional _ _ _ _ => true
  | _ => false

def isUnary : Expr → Bool
  | unary _ _ _ => true
  | _ => false

/-- A postfix or a primary expression. -/
def isPostfix : Expr → Bool
  | literal _ _ => true
  | read _ => true
  | grouping _ _ => true
  | superMethod _ _ _ _ => true
  | selfRef _ _ => true
  | call _ _ _ => true
  | get _ _ _ => true
  | _ => false

/-- The power that the parser's table gives to the operator between two operands. -/
def operatorPower? : Expr → Option Power
  | binary _ _ operator _ _ => some (Rules.standard.power operator.kind)
  | _ => none

/-- The operands of the node fit its operator. -/
def Grouped : Expr → Prop
  | binary evaluation left operator right _ => ∃ power,
    Rules.standard.operator operator.kind = some (power, evaluation.rule) ∧
      (¬ left.isConditional ∧ ¬ left.isAssignment ∧ ∀ other ∈ left.operatorPower?, power ≤ other) ∧
      (¬ right.isConditional ∧ ¬ right.isAssignment ∧ ∀ other ∈ right.operatorPower?, power < other)
  | unary _ operand _ => operand.isUnary ∨ operand.isPostfix
  | call callee _ _ => callee.isPostfix
  | get object _ _ => object.isPostfix
  | set object _ _ _ => object.isPostfix
  | conditional condition _ elseBranch _ =>
    (¬ condition.isConditional ∧ ¬ condition.isAssignment) ∧ ¬ elseBranch.isAssignment
  | _ => True

/-- The expressions directly inside an expression. -/
def children : Expr → List Expr
  | assign _ value _ => [value]
  | binary _ left _ right _ => [left, right]
  | unary _ operand _ => [operand]
  | grouping content _ => [content]
  | conditional condition thenBranch elseBranch _ => [condition, thenBranch, elseBranch]
  | call callee arguments _ => callee :: arguments
  | get object _ _ => [object]
  | set object _ value _ => [object, value]
  | _ => []

/-- The second expression is the first or somewhere inside it. -/
inductive HasNode : Expr → Expr → Prop
  | self (e : Expr) : HasNode e e
  | inside {e child node : Expr} (direct : child ∈ e.children) (deep : HasNode child node) :
      HasNode e node

theorem WellShapedAll.of_mem {list : List Expr} (h : WellShapedAll list) {e : Expr}
    (he : e ∈ list) : e.WellShaped := by
  induction list with
  | nil => contradiction
  | cons first rest ih =>
    rcases List.mem_cons.1 he with rfl | hrest
    · exact h.1
    · exact ih h.2 hrest

namespace WellShaped

variable {e : Expr}

theorem child (h : e.WellShaped) {child : Expr} (hc : child ∈ e.children) : child.WellShaped := by
  cases e with
  | assign target value span => exact List.mem_singleton.1 hc ▸ h.2
  | binary evaluation left operator right span =>
    have hall : WellShapedAll [left, right] := ⟨h.2.1, h.2.2, trivial⟩
    exact hall.of_mem hc
  | unary operator operand span => exact List.mem_singleton.1 hc ▸ h.2.2
  | grouping content span => exact List.mem_singleton.1 hc ▸ h
  | conditional condition thenBranch elseBranch span =>
    obtain ⟨-, -, hcondition, hthen, helse⟩ := h
    have hall : WellShapedAll [condition, thenBranch, elseBranch] :=
      ⟨hcondition, hthen, helse, trivial⟩
    exact hall.of_mem hc
  | call callee arguments span =>
    have hall : WellShapedAll (callee :: arguments) := h.2
    exact hall.of_mem hc
  | get object name span => exact List.mem_singleton.1 hc ▸ h.2.2
  | set object name value span =>
    have hall : WellShapedAll [object, value] := ⟨h.2.2.1, h.2.2.2, trivial⟩
    exact hall.of_mem hc
  | literal | read | superMethod | selfRef => contradiction

theorem hasNode (h : e.WellShaped) {node : Expr} (hn : e.HasNode node) : node.WellShaped := by
  induction hn with
  | self => exact h
  | inside direct _ ih => exact ih (h.child direct)

/-- The power of an operator is the level that the expression stands on. -/
theorem operatorPower?_eq (h : e.WellShaped) : ∀ power ∈ e.operatorPower?, power = e.power := by
  intro power hpower
  cases e with
  | binary evaluation left operator right span =>
    obtain ⟨⟨same, hsame, -⟩, -⟩ := h
    have htable : Rules.standard.operator operator.kind = some (same, evaluation.rule) :=
      standardOperator_of_binaryPower hsame
    cases hpower
    simp only [Rules.power, htable, Expr.power, hsame, Option.getD_some]
  | _ => contradiction

end WellShaped

theorem power_binary_lt_unary (evaluation : Evaluation) (left : Expr) (operator : Token)
    (right : Expr) (span : Span) :
    (binary evaluation left operator right span).power < .unary := by
  cases h : binaryPower evaluation operator.kind with
  | none =>
    simp only [power, h]
    decide
  | some power =>
    simp only [Expr.power, h]
    exact (bounds_of_binaryPower h).2

section Power

variable {e : Expr}

theorem not_isAssignment_of_lt (h : Power.assignment < e.power) : ¬ e.isAssignment := by
  cases e with
  | assign | set => exact absurd h (Nat.lt_irrefl _)
  | _ => simp [isAssignment]

theorem not_isConditional_of_lt (h : Power.conditional < e.power) : ¬ e.isConditional := by
  cases e with
  | conditional => exact absurd h (Nat.lt_irrefl _)
  | _ => simp [isConditional]

/-- What binds tighter than a conditional is none, and no assignment. -/
theorem not_loose_of_lt (h : Power.conditional < e.power) :
    ¬ e.isConditional ∧ ¬ e.isAssignment :=
  ⟨not_isConditional_of_lt h, not_isAssignment_of_lt (Nat.lt_trans (by decide) h)⟩

theorem isUnary_or_isPostfix_of_le (h : Power.unary ≤ e.power) : e.isUnary ∨ e.isPostfix := by
  cases e with
  | assign | set => exact absurd h (by decide : ¬ Power.unary ≤ Power.assignment)
  | conditional => exact absurd h (by decide : ¬ Power.unary ≤ Power.conditional)
  | binary evaluation left operator right span =>
    exact absurd (power_binary_lt_unary evaluation left operator right span)
      (Power.not_lt_of_le h)
  | unary => exact .inl rfl
  | _ => exact .inr rfl

theorem isPostfix_of_le (h : Power.call ≤ e.power) : e.isPostfix := by
  rcases isUnary_or_isPostfix_of_le (Power.le_trans Power.unary_le_call h) with hunary | hpostfix
  · cases e with
    | unary => exact absurd h (by decide : ¬ Power.call ≤ Power.unary)
    | _ => contradiction
  · exact hpostfix

end Power

/-- The operands of every node that the grammar derives fit its operator. -/
theorem WellShaped.grouped {e : Expr} (h : e.WellShaped) : e.Grouped := by
  cases e with
  | binary evaluation left operator right span =>
    obtain ⟨⟨power, hpower, hle, hlt⟩, hleft, hright⟩ := h
    have hloose := (bounds_of_binaryPower hpower).1
    have hleftLoose := not_loose_of_lt (Power.lt_of_lt_of_le hloose hle)
    have hrightLoose := not_loose_of_lt (Nat.lt_trans hloose hlt)
    refine ⟨power, standardOperator_of_binaryPower hpower,
      ⟨hleftLoose.1, hleftLoose.2, fun other hother => ?_⟩,
      ⟨hrightLoose.1, hrightLoose.2, fun other hother => ?_⟩⟩
    · rwa [hleft.operatorPower?_eq other hother]
    · rwa [hright.operatorPower?_eq other hother]
  | unary operator operand span => exact isUnary_or_isPostfix_of_le h.2.1
  | call callee arguments span => exact isPostfix_of_le h.1
  | get object name span => exact isPostfix_of_le h.1
  | set object name value span => exact isPostfix_of_le h.1
  | conditional condition thenBranch elseBranch span =>
    exact ⟨not_loose_of_lt h.1, not_isAssignment_of_lt h.2.1⟩
  | literal | read | assign | grouping | superMethod | selfRef => trivial

end Expr

def Case.body : Case → List Stmt
  | .mk _ body _ => body

def Case.value? : Case → Option Expr
  | .mk value _ _ => value

def ForStart.expression? : Option ForStart → Option Expr
  | none => none
  | some (.declare declaration) => declaration.value
  | some (.evaluate e _) => some e

namespace Stmt

/-- The statements directly inside a statement. -/
def children : Stmt → List Stmt
  | block body _ => body
  | ifElse _ thenBody elseBody _ => thenBody :: elseBody.toList
  | whileLoop _ body _ => [body]
  | doWhile body _ _ => [body]
  | forLoop _ _ _ body _ => [body]
  | switch _ arms _ => arms.flatMap Case.body
  | function declaration => declaration.body
  | classDecl _ _ methods _ => methods.flatMap Function.body
  | _ => []

/-- The expressions directly inside a statement. -/
def expressions : Stmt → List Expr
  | letDecl declaration => declaration.value.toList
  | expression e _ => [e]
  | print e _ => [e]
  | ifElse condition _ _ _ => [condition]
  | whileLoop condition _ _ => [condition]
  | doWhile _ condition _ => [condition]
  | forLoop start condition increment _ _ =>
    (ForStart.expression? start).toList ++ (condition.toList ++ increment.toList)
  | switch subject arms _ => subject :: arms.filterMap Case.value?
  | returnValue _ value _ => value.toList
  | _ => []

/-- The second statement is the first or somewhere inside it. -/
inductive HasNode : Stmt → Stmt → Prop
  | self (s : Stmt) : HasNode s s
  | inside {s child node : Stmt} (direct : child ∈ s.children) (deep : HasNode child node) :
      HasNode s node

/-- An `else` does not stand behind an `if` that it could belong to instead. -/
def Grouped : Stmt → Prop
  | ifElse _ thenBody (some _) _ => ¬ thenBody.EndsOpen
  | _ => True

theorem WellShapedAll.of_mem {list : List Stmt} (h : WellShapedAll list) {s : Stmt}
    (hs : s ∈ list) : s.WellShaped := by
  induction list with
  | nil => contradiction
  | cons first rest ih =>
    rcases List.mem_cons.1 hs with rfl | hrest
    · exact h.1
    · exact ih h.2 hrest

end Stmt

theorem Expr.wellShaped_of_mem_toList {value : Option Expr} (h : Expr.WellShaped? value) :
    ∀ e ∈ value.toList, e.WellShaped := by
  cases value with
  | none => simp
  | some e => exact List.forall_mem_singleton.2 h

theorem ForStart.WellShaped.expression? {start : Option ForStart} (h : ForStart.WellShaped start) :
    Expr.WellShaped? (ForStart.expression? start) := by
  rcases start with _ | declaration | ⟨e, span⟩
  · trivial
  · exact h.2
  · exact h

theorem Case.WellShapedAll.body {arms : List Case} (h : Case.WellShapedAll arms) :
    ∀ s ∈ arms.flatMap Case.body, s.WellShaped := by
  induction arms with
  | nil => simp
  | cons arm rest ih =>
    obtain ⟨value, body, span⟩ := arm
    obtain ⟨-, hbody, hrest⟩ := h
    rw [List.flatMap_cons, List.forall_mem_append]
    exact ⟨fun s hs => Stmt.WellShapedAll.of_mem hbody hs, ih hrest⟩

theorem Case.WellShapedAll.value? {arms : List Case} (h : Case.WellShapedAll arms) :
    ∀ e ∈ arms.filterMap Case.value?, e.WellShaped := by
  induction arms with
  | nil => simp
  | cons arm rest ih =>
    obtain ⟨value, body, span⟩ := arm
    obtain ⟨hvalue, -, hrest⟩ := h
    have hsplit : (Case.mk value body span :: rest).filterMap Case.value? =
        value.toList ++ rest.filterMap Case.value? := by
      cases value <;> rfl
    rw [hsplit, List.forall_mem_append]
    exact ⟨Expr.wellShaped_of_mem_toList hvalue, ih hrest⟩

theorem Function.WellShapedAll.body {methods : List Function}
    (h : Function.WellShapedAll methods) :
    ∀ s ∈ methods.flatMap Function.body, s.WellShaped := by
  induction methods with
  | nil => simp
  | cons method rest ih =>
    obtain ⟨name, parameters, body, span⟩ := method
    obtain ⟨⟨-, -, hbody⟩, hrest⟩ := h
    rw [List.flatMap_cons, List.forall_mem_append]
    exact ⟨fun s hs => Stmt.WellShapedAll.of_mem hbody hs, ih hrest⟩

namespace Stmt.WellShaped

variable {s : Stmt}

theorem child (h : s.WellShaped) : ∀ child ∈ s.children, child.WellShaped := by
  cases s with
  | block body span => exact fun child hc => WellShapedAll.of_mem h hc
  | ifElse condition thenBody elseBody span =>
    cases elseBody with
    | none => exact List.forall_mem_singleton.2 h.2
    | some elseBody =>
      have hall : WellShapedAll [thenBody, elseBody] := ⟨h.2.1, h.2.2.2, trivial⟩
      exact fun child hc => hall.of_mem hc
  | whileLoop condition body span => exact List.forall_mem_singleton.2 h.2
  | doWhile body condition span => exact List.forall_mem_singleton.2 h.1
  | forLoop start condition increment body span => exact List.forall_mem_singleton.2 h.2.2.2
  | switch subject arms span => exact Case.WellShapedAll.body h.2
  | function declaration =>
    obtain ⟨name, parameters, body, span⟩ := declaration
    exact fun child hc => WellShapedAll.of_mem h.2.2 hc
  | classDecl name superclass methods span => exact Function.WellShapedAll.body h.2.2
  | letDecl | expression | print | breakLoop | continueLoop | returnValue => simp [children]

theorem expressions (h : s.WellShaped) : ∀ e ∈ s.expressions, e.WellShaped := by
  cases s with
  | letDecl declaration => exact Expr.wellShaped_of_mem_toList h.2
  | expression e span => exact List.forall_mem_singleton.2 h
  | print e span => exact List.forall_mem_singleton.2 h
  | ifElse condition thenBody elseBody span =>
    cases elseBody <;> exact List.forall_mem_singleton.2 h.1
  | whileLoop condition body span => exact List.forall_mem_singleton.2 h.1
  | doWhile body condition span => exact List.forall_mem_singleton.2 h.2
  | forLoop start condition increment body span =>
    obtain ⟨hstart, hcondition, hincrement, -⟩ := h
    rw [Stmt.expressions, List.forall_mem_append, List.forall_mem_append]
    exact ⟨Expr.wellShaped_of_mem_toList hstart.expression?,
      Expr.wellShaped_of_mem_toList hcondition, Expr.wellShaped_of_mem_toList hincrement⟩
  | switch subject arms span =>
    exact List.forall_mem_cons.2 ⟨h.1, Case.WellShapedAll.value? h.2⟩
  | returnValue keyword value span => exact Expr.wellShaped_of_mem_toList h.2
  | block | breakLoop | continueLoop | function | classDecl => simp [Stmt.expressions]

theorem hasNode (h : s.WellShaped) {node : Stmt} (hn : s.HasNode node) : node.WellShaped := by
  induction hn with
  | self => exact h
  | inside direct _ ih => exact ih (h.child _ direct)

theorem grouped (h : s.WellShaped) : s.Grouped := by
  cases s with
  | ifElse condition thenBody elseBody span =>
    cases elseBody with
    | none => trivial
    | some elseBody => exact h.2.2.1
  | _ => trivial

end Stmt.WellShaped

namespace Program

/-- The statement is somewhere in the program. -/
def HasStmt (program : Program) (node : Stmt) : Prop := ∃ s ∈ program.statements, s.HasNode node

/-- The expression is somewhere in the program. -/
def HasExpr (program : Program) (node : Expr) : Prop :=
  ∃ s, program.HasStmt s ∧ ∃ e ∈ s.expressions, e.HasNode node

/-- Everywhere in a program that is read, the operands of an expression fit its operator, and an
`else` belongs to the nearest `if`. -/
theorem grouped_of_parse {tokens : List Token} {program : Program}
    (h : parse tokens = .ok program) :
    (∀ e, program.HasExpr e → e.Grouped) ∧ ∀ s, program.HasStmt s → s.Grouped := by
  have hw : Stmt.WellShapedAll program.statements := wellShapedAll_of_parse h
  have hstmt : ∀ s, program.HasStmt s → s.WellShaped := by
    rintro s ⟨whole, hmem, hnode⟩
    exact (Stmt.WellShapedAll.of_mem hw hmem).hasNode hnode
  refine ⟨?_, fun s hs => (hstmt s hs).grouped⟩
  rintro node ⟨s, hs, e, he, hnode⟩
  exact (((hstmt s hs).expressions e he).hasNode hnode).grouped

/-- The text `if (a) if (b) c; else a - b - c * d;`. -/
def danglingText : List Token :=
  [.bare .ifWord "if", .bare .openParen "(", .bare .identifier "a", .bare .closeParen ")",
    .bare .ifWord "if", .bare .openParen "(", .bare .identifier "b", .bare .closeParen ")",
    .bare .identifier "c", .bare .semicolon ";", .bare .elseWord "else", .bare .identifier "a",
    .bare .dash "-", .bare .identifier "b", .bare .dash "-", .bare .identifier "c",
    .bare .star "*", .bare .identifier "d", .bare .semicolon ";", .bare .endOfInput "EOF"]

/-- There the `else` belongs to the second `if`, and the first `-` and the `*` are the operands of
the second `-`. -/
theorem grouped_of_parse_danglingText : ∃ program first second thenBody left right span inner outer
    place, parse danglingText = .ok program ∧
      program.statements = [.ifElse first (.ifElse second thenBody (some (.expression
        (.binary .strict left (.bare .dash "-") right span) place)) inner) none outer] ∧
      left.operatorPower? = some .additive ∧ right.operatorPower? = some .multiplicative ∧
      (Expr.binary .strict left (.bare .dash "-") right span).Grouped ∧ ¬ thenBody.EndsOpen := by
  obtain ⟨program, first, second, thenBody, left, right, span, inner, outer, place, h, hlist,
      hleft, hright⟩ : ∃ program first second thenBody left right span inner outer place,
      parse danglingText = .ok program ∧
        program.statements = [.ifElse first (.ifElse second thenBody (some (.expression
          (.binary .strict left (.bare .dash "-") right span) place)) inner) none outer] ∧
        left.operatorPower? = some .additive ∧ right.operatorPower? = some .multiplicative :=
    ⟨_, _, _, _, _, _, _, _, _, _, by cbv, by rfl, by rfl, by rfl⟩
  obtain ⟨hexpr, hstmt⟩ := grouped_of_parse h
  have hnode : program.HasStmt (.ifElse second thenBody (some (.expression
      (.binary .strict left (.bare .dash "-") right span) place)) inner) :=
    ⟨_, by rw [hlist]; exact List.mem_singleton_self _, .inside List.mem_cons_self (.self _)⟩
  have helse : program.HasStmt (.expression
      (.binary .strict left (.bare .dash "-") right span) place) :=
    ⟨_, by rw [hlist]; exact List.mem_singleton_self _,
      .inside List.mem_cons_self (.inside (List.mem_cons_of_mem _ List.mem_cons_self) (.self _))⟩
  exact ⟨program, first, second, thenBody, left, right, span, inner, outer, place, h, hlist,
    hleft, hright, hexpr _ ⟨_, helse, _, List.mem_cons_self, .self _⟩, hstmt _ hnode⟩

end Program
end LexicalScoping
