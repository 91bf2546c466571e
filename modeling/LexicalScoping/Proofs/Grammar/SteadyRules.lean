import LexicalScoping.Proofs.Grammar.Steady

/-!
# Every rule goes forward

Each rule of the grammar goes forward and does the same with other parsers for its parts, provided
that these agree with the parsers that it is given. All the parts are read where as many levels are
open as where the rule itself starts; only `nested` opens one.
-/
namespace LexicalScoping
namespace Parse

variable {tokens : List Token} {depth : Nat}

section Expressions

theorem primary_agree : Agree tokens depth primary primary := by
  refine .bind_peek fun token => ?_
  cases token.kind with
  | number | string | trueWord | falseWord | nilWord =>
    cases token.literal with
    | none => exact .failHere _
    | some value => exact Agree.advance.bind fun _ => .pure _
  | identifier => exact Agree.advance.bind fun _ => Agree.freshId.bind fun _ => .pure _
  | _ => exact .failHere _

theorem selfRef_agree : Agree tokens depth selfRef selfRef :=
  Agree.advance.bind fun _ => Agree.freshId.bind fun _ => .pure _

theorem superMethod_agree : Agree tokens depth superMethod superMethod :=
  Agree.advance.bind fun _ => (Agree.expectBut _ _).bind fun _ =>
    (Agree.expectBut _ _).bind fun _ => Agree.freshId.bind fun _ => .pure _

theorem assignTo_agree (operator : Token) (value : Expr) (span : Span) (left : Expr) :
    Agree tokens depth (assignTo operator value span left)
      (assignTo operator value span left) := by
  cases left with
  | read target => exact Agree.freshId.bind fun _ => .pure _
  | get object name => exact .pure _
  | _ => exact .failOn operator _

variable {step step' : ExpressionParser}
  (hstep : ∀ floor, Agree tokens depth (step floor) (step' floor))
include hstep

theorem unary_agree : Agree tokens depth (unary step) (unary step') :=
  Agree.advance.bind fun _ => (hstep _).bind fun _ => .pure _

theorem grouping_agree : Agree tokens depth (grouping step) (grouping step') :=
  Agree.advance.bind fun _ => (hstep _).bind fun _ => (Agree.expectBut _ _).bind fun _ =>
    (Agree.spanFrom _).bind fun _ => .pure _

theorem operand_agree (rules : Rules) :
    Agree tokens depth (operand rules step) (operand rules step') := by
  refine .bind_peek fun token => ?_
  cases rules.operand token.kind with
  | none => exact .failHere _
  | some rule =>
    cases rule with
    | primary => exact primary_agree
    | selfRef => exact selfRef_agree
    | superMethod => exact superMethod_agree
    | unary => exact unary_agree hstep
    | grouping => exact grouping_agree hstep

theorem binary_agree (evaluation : Evaluation) (left : Expr) (power : Power) :
    Agree tokens depth (binary step evaluation left power) (binary step' evaluation left power) :=
  Agree.advance.bind fun _ => (hstep _).bind fun _ => .pure _

theorem assignment_agree (left : Expr) :
    Agree tokens depth (assignment step left) (assignment step' left) :=
  Agree.advance.bind fun _ => (hstep _).bind fun _ => assignTo_agree _ _ _ left

theorem conditional_agree (condition : Expr) :
    Agree tokens depth (conditional step condition) (conditional step' condition) :=
  Agree.advance.bind fun _ => (hstep _).bind fun _ => (Agree.expectBut _ _).bind fun _ =>
    (hstep _).bind fun _ => .pure _

theorem call_agree (callee : Expr) : Agree tokens depth (call step callee) (call step' callee) :=
  Agree.advance.bind fun _ => (Agree.separatedUntil _ (hstep _)).bind fun _ =>
    (Agree.expectBut _ _).bind fun _ => (Agree.spanFrom _).bind fun _ => .pure _

omit hstep in
theorem member_agree (object : Expr) : Agree tokens depth (member object) (member object) :=
  Agree.advance.bind fun _ => (Agree.expectBut _ _).bind fun _ => .pure _

theorem operator_agree (rule : OperatorRule) (left : Expr) (power : Power) :
    Agree tokens depth (rule.parse step left power) (rule.parse step' left power) := by
  cases rule with
  | assignment => exact assignment_agree hstep left
  | conditional => exact conditional_agree hstep left
  | logical => exact binary_agree hstep _ left power
  | binary => exact binary_agree hstep _ left power
  | call => exact call_agree hstep left
  | member => exact member_agree left

theorem operators_agree (rules : Rules) (floor : Power) (left : Expr) :
    Agree tokens depth (operators rules step floor left) (operators rules step' floor left) := by
  intro s hs hdepth
  fun_induction operators rules step floor left s with
  | case1 left s hnone =>
    rw [operators, hnone]
    exact ⟨rfl, hs, .refl s⟩
  | case2 left s power rule hrule htighter e s₁ hone =>
    obtain ⟨heq, hrest⟩ := hone ▸ operator_agree hstep rule left power s hs hdepth
    rw [operators, hrule]
    simp only [if_pos htighter, heq]
    exact ⟨trivial, hrest⟩
  | case3 left s power rule hrule htighter whole s₁ hone hlt ih =>
    obtain ⟨heq, hreach, hleads⟩ := hone ▸ operator_agree hstep rule left power s hs hdepth
    obtain ⟨heq', hreach', hleads'⟩ := ih hreach (hleads.depth.trans hdepth)
    rw [operators.eq_def rules step', hrule]
    simp only [if_pos htighter, heq, if_pos hlt]
    exact ⟨heq', hreach', hleads.trans hleads'⟩
  | case4 left s power rule hrule htighter whole s₁ hone hge =>
    obtain ⟨heq, hrest⟩ := hone ▸ operator_agree hstep rule left power s hs hdepth
    rw [operators, hrule]
    simp only [if_pos htighter, heq, if_neg hge]
    exact ⟨trivial, hrest⟩
  | case5 left s power rule hrule hloose =>
    rw [operators, hrule]
    simp only [if_neg hloose]
    exact ⟨trivial, hs, .refl s⟩

end Expressions

section Statements

variable {expression expression' : Parse Expr} {statement statement' : Parse Stmt}

section Parts

variable (hexpression : Agree tokens depth expression expression')
include hexpression

theorem evaluated_agree : Agree tokens depth (evaluated expression) (evaluated expression') :=
  .bind_peek fun _ => hexpression.bind fun _ => (Agree.expect _).bind fun _ =>
    (Agree.spanFrom _).bind fun _ => .pure _

theorem letDecl_agree : Agree tokens depth (letDecl expression) (letDecl expression') :=
  Agree.advance.bind fun _ => (Agree.expectBut _ _).bind fun _ =>
    (Agree.afterKind _ hexpression).bind fun _ => (Agree.expect _).bind fun _ =>
      (Agree.spanFrom _).bind fun _ => .pure _

theorem head_agree (construct : String) :
    Agree tokens depth (head expression construct) (head expression' construct) :=
  (Agree.expectBut _ _).bind fun _ => hexpression.bind fun _ => (Agree.expectBut _ _).bind fun _ =>
    .pure _

theorem forStart_agree : Agree tokens depth (forStart expression) (forStart expression') := by
  refine .bind_peek fun token => ?_
  split
  · exact Agree.advance.bind fun _ => .pure _
  · exact (letDecl_agree hexpression).bind fun _ => .pure _
  · exact (evaluated_agree hexpression).bind fun _ => .pure _

theorem caseValue_agree : Agree tokens depth (caseValue expression) (caseValue expression') := by
  refine .bind_peek fun token => ?_
  split
  · exact Agree.advance.bind fun _ => hexpression.bind fun _ => .pure _
  · exact Agree.advance.bind fun _ => .pure _
  · exact .failHere _

theorem expressionStatement_agree :
    Agree tokens depth (expressionStatement expression) (expressionStatement expression') :=
  (evaluated_agree hexpression).bind fun _ => .pure _

theorem print_agree : Agree tokens depth (print expression) (print expression') :=
  Agree.advance.bind fun _ => hexpression.bind fun _ => (Agree.expect _).bind fun _ =>
    (Agree.spanFrom _).bind fun _ => .pure _

theorem returnValue_agree :
    Agree tokens depth (returnValue expression) (returnValue expression') :=
  Agree.advance.bind fun _ => (Agree.unlessKind _ hexpression).bind fun _ =>
    (Agree.expect _).bind fun _ => (Agree.spanFrom _).bind fun _ => .pure _

end Parts

theorem breakLoop_agree : Agree tokens depth breakLoop breakLoop :=
  Agree.advance.bind fun _ => (Agree.expect _).bind fun _ => .pure _

theorem continueLoop_agree : Agree tokens depth continueLoop continueLoop :=
  Agree.advance.bind fun _ => (Agree.expect _).bind fun _ => .pure _

theorem superclass_agree : Agree tokens depth superclass superclass :=
  (Agree.expectBut _ _).bind fun _ => Agree.freshId.bind fun _ => .pure _

section Bodies

variable (hstatement : Agree tokens depth statement statement')
include hstatement

theorem block_agree : Agree tokens depth (block statement) (block statement') :=
  (Agree.expectBut _ _).bind fun _ => (Agree.manyUntil _ hstatement).bind fun _ =>
    (Agree.expectBut _ _).bind fun _ => (Agree.spanFrom _).bind fun _ => .pure _

theorem blockStatement_agree :
    Agree tokens depth (blockStatement statement) (blockStatement statement') :=
  (block_agree hstatement).bind fun _ => .pure _

theorem functionFrom_agree (start : Position) :
    Agree tokens depth (functionFrom statement start) (functionFrom statement' start) :=
  (Agree.expectBut _ _).bind fun _ => (Agree.expectBut _ _).bind fun _ =>
    (Agree.separatedUntil _ (.expectBut _ _)).bind fun _ => (Agree.expectBut _ _).bind fun _ =>
      (block_agree hstatement).bind fun _ => (Agree.spanFrom _).bind fun _ => .pure _

theorem function_agree : Agree tokens depth (function statement) (function statement') :=
  Agree.advance.bind fun _ => (functionFrom_agree hstatement _).bind fun _ => .pure _

theorem method_agree : Agree tokens depth (method statement) (method statement') :=
  .bind_peek fun _ => functionFrom_agree hstatement _

theorem classDecl_agree : Agree tokens depth (classDecl statement) (classDecl statement') :=
  Agree.advance.bind fun _ => (Agree.expectBut _ _).bind fun _ =>
    (Agree.afterKind _ superclass_agree).bind fun _ => (Agree.expectBut _ _).bind fun _ =>
      (Agree.manyUntil _ (method_agree hstatement)).bind fun _ =>
        (Agree.expectBut _ _).bind fun _ => (Agree.spanFrom _).bind fun _ => .pure _

variable (hexpression : Agree tokens depth expression expression')
include hexpression

theorem ifElse_agree :
    Agree tokens depth (ifElse expression statement) (ifElse expression' statement') :=
  Agree.advance.bind fun _ => (head_agree hexpression _).bind fun _ => hstatement.bind fun _ =>
    (Agree.afterKind _ hstatement).bind fun _ => (Agree.spanFrom _).bind fun _ => .pure _

theorem whileLoop_agree :
    Agree tokens depth (whileLoop expression statement) (whileLoop expression' statement') :=
  Agree.advance.bind fun _ => (head_agree hexpression _).bind fun _ => hstatement.bind fun _ =>
    (Agree.spanFrom _).bind fun _ => .pure _

theorem doWhile_agree :
    Agree tokens depth (doWhile expression statement) (doWhile expression' statement') :=
  Agree.advance.bind fun _ => hstatement.bind fun _ => (Agree.expectBut _ _).bind fun _ =>
    (head_agree hexpression _).bind fun _ => (Agree.expect _).bind fun _ =>
      (Agree.spanFrom _).bind fun _ => .pure _

theorem forLoop_agree :
    Agree tokens depth (forLoop expression statement) (forLoop expression' statement') :=
  Agree.advance.bind fun _ => (Agree.expectBut _ _).bind fun _ =>
    (forStart_agree hexpression).bind fun _ => (Agree.unlessKind _ hexpression).bind fun _ =>
      (Agree.expectBut _ _).bind fun _ => (Agree.unlessKind _ hexpression).bind fun _ =>
        (Agree.expectBut _ _).bind fun _ => hstatement.bind fun _ =>
          (Agree.spanFrom _).bind fun _ => .pure _

theorem case_agree :
    Agree tokens depth (case expression statement) (case expression' statement') :=
  .bind_peek fun _ => (caseValue_agree hexpression).bind fun _ =>
    (Agree.expectBut _ _).bind fun _ => (Agree.manyUntil _ hstatement).bind fun _ =>
      (Agree.spanFrom _).bind fun _ => .pure _

theorem switch_agree :
    Agree tokens depth (switch expression statement) (switch expression' statement') :=
  Agree.advance.bind fun _ => (head_agree hexpression _).bind fun _ =>
    (Agree.expectBut _ _).bind fun _ =>
      (Agree.manyUntil _ (case_agree hstatement hexpression)).bind fun _ =>
        (Agree.expect _).bind fun _ => (Agree.spanFrom _).bind fun _ => .pure _

theorem statementRule_agree (rule : StatementRule) :
    Agree tokens depth (rule.parse expression statement) (rule.parse expression' statement') := by
  cases rule with
  | any => exact hstatement
  | expression => exact expressionStatement_agree hexpression
  | letDecl => exact (letDecl_agree hexpression).bind fun _ => .pure _
  | print => exact print_agree hexpression
  | ifElse => exact ifElse_agree hstatement hexpression
  | whileLoop => exact whileLoop_agree hstatement hexpression
  | doWhile => exact doWhile_agree hstatement hexpression
  | forLoop => exact forLoop_agree hstatement hexpression
  | switch => exact switch_agree hstatement hexpression
  | breakLoop => exact breakLoop_agree
  | continueLoop => exact continueLoop_agree
  | returnValue => exact returnValue_agree hexpression
  | block => exact blockStatement_agree hstatement
  | function => exact function_agree hstatement
  | classDecl => exact classDecl_agree hstatement

end Bodies
end Statements
end Parse
end LexicalScoping
