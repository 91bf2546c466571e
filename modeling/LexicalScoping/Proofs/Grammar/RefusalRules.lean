import LexicalScoping.Proofs.Grammar.Refusals

/-!
# Every rule refuses a token for what is wrong with it

Each rule of the grammar reports what is wrong with one of its tokens, provided that the parsers it
is given for the parts do; by induction on the levels the whole parser does. Two rules look at a
token before they decide what to report: an operand at whether a literal has its value, and an
assignment, when its value has been read, at the operator that it began with.
-/
namespace LexicalScoping
namespace Parse

section Expressions

theorem primary_reports : Reports primary := by
  intro s
  refine .bind_peek ?_
  have hadvance : ∀ {f : Token → Parse Expr}, (∀ token, Reports (f token)) →
      AnswersFor s.tokens ((advance >>= f) s) := fun hf => (Reports.advance.bind hf) s
  cases hkind : s.current.kind with
  | number | string | trueWord | falseWord | nilWord =>
    cases hliteral : s.current.literal with
    | none => exact .failHere (.valueless (by rw [hkind]; decide) hliteral)
    | some value => exact hadvance fun _ => .pure _
  | identifier => exact hadvance fun _ => Reports.freshId.bind fun _ => .pure _
  | _ => exact Reports.unexpected s

theorem selfRef_reports : Reports selfRef :=
  Reports.advance.bind fun _ => Reports.freshId.bind fun _ => .pure _

theorem superMethod_reports : Reports superMethod :=
  Reports.advance.bind fun _ => (Reports.expectBut _ _).bind fun _ =>
    (Reports.expectBut _ _).bind fun _ => Reports.freshId.bind fun _ => .pure _

/-- What cannot be assigned to is reported of the operator. -/
theorem assignTo_answers {s : ParseState} {operator : Token} (h : operator ∈ s.tokens)
    (value : Expr) (span : Span) (left : Expr) :
    AnswersFor s.tokens (assignTo operator value span left s) := by
  cases left with
  | read target => exact Reports.freshId.bind (fun _ => .pure _) s
  | get object name => exact .ok rfl
  | _ => exact .error rfl ⟨operator, h, .target, rfl⟩

variable {step : ExpressionParser} (hstep : ∀ floor, Reports (step floor))
include hstep

theorem unary_reports : Reports (unary step) :=
  Reports.advance.bind fun _ => (hstep _).bind fun _ => .pure _

theorem grouping_reports : Reports (grouping step) :=
  Reports.advance.bind fun _ => (hstep _).bind fun _ => (Reports.expectBut _ _).bind fun _ =>
    (Reports.spanFrom _).bind fun _ => .pure _

theorem operand_reports (rules : Rules) : Reports (operand rules step) := by
  refine .bind_peek fun token => ?_
  cases rules.operand token.kind with
  | none => exact .unexpected
  | some rule =>
    cases rule with
    | primary => exact primary_reports
    | selfRef => exact selfRef_reports
    | superMethod => exact superMethod_reports
    | unary => exact unary_reports hstep
    | grouping => exact grouping_reports hstep

theorem binary_reports (evaluation : Evaluation) (left : Expr) (power : Power) :
    Reports (binary step evaluation left power) :=
  Reports.advance.bind fun _ => (hstep _).bind fun _ => .pure _

theorem assignment_reports (left : Expr) : Reports (assignment step left) := by
  intro s
  have hvalue : AnswersFor s.tokens (step .lowest s.advance) :=
    s.tokens_advance ▸ hstep .lowest s.advance
  refine .bind_advance (hvalue.bind fun value s₁ hs₁ => ?_)
  have hmem : s.current ∈ s₁.tokens := by
    rw [hs₁]
    simp [ParseState.tokens]
  exact hs₁ ▸ assignTo_answers hmem value _ left

theorem conditional_reports (condition : Expr) : Reports (conditional step condition) :=
  Reports.advance.bind fun _ => (hstep _).bind fun _ => (Reports.expectBut _ _).bind fun _ =>
    (hstep _).bind fun _ => .pure _

theorem call_reports (callee : Expr) : Reports (call step callee) :=
  Reports.advance.bind fun _ => (Reports.separatedUntil _ (hstep _)).bind fun _ =>
    (Reports.expectBut _ _).bind fun _ => (Reports.spanFrom _).bind fun _ => .pure _

omit hstep in
theorem member_reports (object : Expr) : Reports (member object) :=
  Reports.advance.bind fun _ => (Reports.expectBut _ _).bind fun _ => .pure _

theorem operator_reports (rule : OperatorRule) (left : Expr) (power : Power) :
    Reports (rule.parse step left power) := by
  cases rule with
  | assignment => exact assignment_reports hstep left
  | conditional => exact conditional_reports hstep left
  | logical => exact binary_reports hstep _ left power
  | binary => exact binary_reports hstep _ left power
  | call => exact call_reports hstep left
  | member => exact member_reports left

theorem operators_reports (rules : Rules) (floor : Power) (left : Expr) :
    Reports (operators rules step floor left) := by
  intro s
  fun_induction operators rules step floor left s with
  | case1 left s hnone => exact .ok rfl
  | case2 left s power rule hrule htighter e s₁ hone =>
    exact (hone ▸ operator_reports hstep rule left power s).cast
  | case3 left s power rule hrule htighter whole s₁ hone hlt ih =>
    have htokens : s₁.tokens = s.tokens :=
      (hone ▸ operator_reports hstep rule left power s).tokens_eq
    exact htokens ▸ ih
  | case4 left s power rule hrule htighter whole s₁ hone hge =>
    exact .ok (hone ▸ operator_reports hstep rule left power s).tokens_eq
  | case5 left s power rule hrule hloose => exact .ok rfl

end Expressions

section Statements

variable {expression : Parse Expr} {statement : Parse Stmt}

section Parts

variable (hexpression : Reports expression)
include hexpression

theorem evaluated_reports : Reports (evaluated expression) :=
  .bind_peek fun _ => hexpression.bind fun _ => (Reports.expect _).bind fun _ =>
    (Reports.spanFrom _).bind fun _ => .pure _

theorem letDecl_reports : Reports (letDecl expression) :=
  Reports.advance.bind fun _ => (Reports.expectBut _ _).bind fun _ =>
    (Reports.afterKind _ hexpression).bind fun _ => (Reports.expect _).bind fun _ =>
      (Reports.spanFrom _).bind fun _ => .pure _

theorem head_reports (construct : String) : Reports (head expression construct) :=
  (Reports.expectBut _ _).bind fun _ => hexpression.bind fun _ =>
    (Reports.expectBut _ _).bind fun _ => .pure _

theorem forStart_reports : Reports (forStart expression) := by
  refine .bind_peek fun token => ?_
  split
  · exact Reports.advance.bind fun _ => .pure _
  · exact (letDecl_reports hexpression).bind fun _ => .pure _
  · exact (evaluated_reports hexpression).bind fun _ => .pure _

theorem caseValue_reports : Reports (caseValue expression) := by
  refine .bind_peek fun token => ?_
  split
  · exact Reports.advance.bind fun _ => hexpression.bind fun _ => .pure _
  · exact Reports.advance.bind fun _ => .pure _
  · exact .unexpectedBut _

theorem expressionStatement_reports : Reports (expressionStatement expression) :=
  (evaluated_reports hexpression).bind fun _ => .pure _

theorem print_reports : Reports (print expression) :=
  Reports.advance.bind fun _ => hexpression.bind fun _ => (Reports.expect _).bind fun _ =>
    (Reports.spanFrom _).bind fun _ => .pure _

theorem returnValue_reports : Reports (returnValue expression) :=
  Reports.advance.bind fun _ => (Reports.unlessKind _ hexpression).bind fun _ =>
    (Reports.expect _).bind fun _ => (Reports.spanFrom _).bind fun _ => .pure _

end Parts

theorem breakLoop_reports : Reports breakLoop :=
  Reports.advance.bind fun _ => (Reports.expect _).bind fun _ => .pure _

theorem continueLoop_reports : Reports continueLoop :=
  Reports.advance.bind fun _ => (Reports.expect _).bind fun _ => .pure _

theorem superclass_reports : Reports superclass :=
  (Reports.expectBut _ _).bind fun _ => Reports.freshId.bind fun _ => .pure _

section Bodies

variable (hstatement : Reports statement)
include hstatement

theorem block_reports : Reports (block statement) :=
  (Reports.expectBut _ _).bind fun _ => (Reports.manyUntil _ hstatement).bind fun _ =>
    (Reports.expectBut _ _).bind fun _ => (Reports.spanFrom _).bind fun _ => .pure _

theorem blockStatement_reports : Reports (blockStatement statement) :=
  (block_reports hstatement).bind fun _ => .pure _

theorem functionFrom_reports (start : Position) : Reports (functionFrom statement start) :=
  (Reports.expectBut _ _).bind fun _ => (Reports.expectBut _ _).bind fun _ =>
    (Reports.separatedUntil _ (.expectBut _ _)).bind fun _ => (Reports.expectBut _ _).bind fun _ =>
      (block_reports hstatement).bind fun _ => (Reports.spanFrom _).bind fun _ => .pure _

theorem function_reports : Reports (function statement) :=
  Reports.advance.bind fun _ => (functionFrom_reports hstatement _).bind fun _ => .pure _

theorem method_reports : Reports (method statement) :=
  .bind_peek fun _ => functionFrom_reports hstatement _

theorem classDecl_reports : Reports (classDecl statement) :=
  Reports.advance.bind fun _ => (Reports.expectBut _ _).bind fun _ =>
    (Reports.afterKind _ superclass_reports).bind fun _ => (Reports.expectBut _ _).bind fun _ =>
      (Reports.manyUntil _ (method_reports hstatement)).bind fun _ =>
        (Reports.expectBut _ _).bind fun _ => (Reports.spanFrom _).bind fun _ => .pure _

variable (hexpression : Reports expression)
include hexpression

theorem ifElse_reports : Reports (ifElse expression statement) :=
  Reports.advance.bind fun _ => (head_reports hexpression _).bind fun _ =>
    hstatement.bind fun _ => (Reports.afterKind _ hstatement).bind fun _ =>
      (Reports.spanFrom _).bind fun _ => .pure _

theorem whileLoop_reports : Reports (whileLoop expression statement) :=
  Reports.advance.bind fun _ => (head_reports hexpression _).bind fun _ =>
    hstatement.bind fun _ => (Reports.spanFrom _).bind fun _ => .pure _

theorem doWhile_reports : Reports (doWhile expression statement) :=
  Reports.advance.bind fun _ => hstatement.bind fun _ => (Reports.expectBut _ _).bind fun _ =>
    (head_reports hexpression _).bind fun _ => (Reports.expect _).bind fun _ =>
      (Reports.spanFrom _).bind fun _ => .pure _

theorem forLoop_reports : Reports (forLoop expression statement) :=
  Reports.advance.bind fun _ => (Reports.expectBut _ _).bind fun _ =>
    (forStart_reports hexpression).bind fun _ => (Reports.unlessKind _ hexpression).bind fun _ =>
      (Reports.expectBut _ _).bind fun _ => (Reports.unlessKind _ hexpression).bind fun _ =>
        (Reports.expectBut _ _).bind fun _ => hstatement.bind fun _ =>
          (Reports.spanFrom _).bind fun _ => .pure _

theorem case_reports : Reports (case expression statement) :=
  .bind_peek fun _ => (caseValue_reports hexpression).bind fun _ =>
    (Reports.expectBut _ _).bind fun _ => (Reports.manyUntil _ hstatement).bind fun _ =>
      (Reports.spanFrom _).bind fun _ => .pure _

theorem switch_reports : Reports (switch expression statement) :=
  Reports.advance.bind fun _ => (head_reports hexpression _).bind fun _ =>
    (Reports.expectBut _ _).bind fun _ =>
      (Reports.manyUntil _ (case_reports hstatement hexpression)).bind fun _ =>
        (Reports.expect _).bind fun _ => (Reports.spanFrom _).bind fun _ => .pure _

theorem statementRule_reports (rule : StatementRule) :
    Reports (rule.parse expression statement) := by
  cases rule with
  | any => exact hstatement
  | expression => exact expressionStatement_reports hexpression
  | letDecl => exact (letDecl_reports hexpression).bind fun _ => .pure _
  | print => exact print_reports hexpression
  | ifElse => exact ifElse_reports hstatement hexpression
  | whileLoop => exact whileLoop_reports hstatement hexpression
  | doWhile => exact doWhile_reports hstatement hexpression
  | forLoop => exact forLoop_reports hstatement hexpression
  | switch => exact switch_reports hstatement hexpression
  | breakLoop => exact breakLoop_reports
  | continueLoop => exact continueLoop_reports
  | returnValue => exact returnValue_reports hexpression
  | block => exact blockStatement_reports hstatement
  | function => exact function_reports hstatement
  | classDecl => exact classDecl_reports hstatement

end Bodies
end Statements

section Levels

variable (rules : Rules)

/-- Beyond the bound on levels the parser reports what it would at the limit. -/
theorem expressionWithin_reports (levels : Nat) (floor : Power) :
    Reports (expressionWithin rules levels floor) := by
  induction levels generalizing floor with
  | zero => exact fun _ => .failHere .tooDeep
  | succ levels ih =>
    exact .nested ((operand_reports ih rules).bind fun left =>
      operators_reports ih rules floor left)

theorem statementWithin_reports (levels : Nat) : Reports (statementWithin rules levels) := by
  induction levels with
  | zero => exact fun _ => .failHere .tooDeep
  | succ levels ih =>
    exact .nested (.bind_peek fun _ =>
      statementRule_reports ih (expressionWithin_reports rules levels .lowest) _)

end Levels
end Parse

namespace Program

/-- A token list is refused for what is wrong with one of its tokens. -/
theorem refuses_of_parse {tokens : List Token} {last : Token} (hlast : tokens.getLast? = some last)
    (hend : last.kind = .endOfInput) {d : Diagnostic} (h : parse tokens = .error d) :
    d.Refuses tokens := by
  have hreports := Parse.Reports.manyUntil (· = .endOfInput)
    (Parse.statementWithin_reports .standard (maxNesting + 1))
  have hanswer : Parse.AnswersFor (ParseState.ofTokens tokens).tokens (run tokens) :=
    hreports (ParseState.ofTokens tokens)
  obtain ⟨first, rest, rfl, hstart⟩ := ParseState.exists_ofTokens_eq hlast hend
  rw [hstart] at hanswer
  unfold parse at h
  generalize run (first :: rest) = answer at h hanswer
  cases hanswer with
  | ok _ => cases h
  | error _ hd =>
    cases h
    exact hd

end Program
end LexicalScoping
