import LexicalScoping.Proofs.Grammar.Ensures
import LexicalScoping.Proofs.Grammar.Spans

/-!
# Every successful reading is derived

The parser ensures the relations of a derivation, rule by rule: each rule is shown to do what its
constructor says, provided that the parsers it is given for the parts do. The loops end because
every item takes a token.
-/
namespace LexicalScoping

namespace Rules

theorem eq_of_selfRef {kind : Kind} (h : standardOperand kind = some .selfRef) :
    kind = .selfWord := by
  cases kind <;> simp [standardOperand] at h ⊢

theorem eq_of_superMethod {kind : Kind} (h : standardOperand kind = some .superMethod) :
    kind = .superWord := by
  cases kind <;> simp [standardOperand] at h ⊢

theorem eq_of_unary {kind : Kind} (h : standardOperand kind = some .unary) :
    kind = .dash ∨ kind = .not := by
  cases kind <;> simp [standardOperand] at h ⊢

theorem eq_of_grouping {kind : Kind} (h : standardOperand kind = some .grouping) :
    kind = .openParen := by
  cases kind <;> simp [standardOperand] at h ⊢

theorem ne_endOfInput_of_operand {kind : Kind} {rule : OperandRule}
    (h : standardOperand kind = some rule) : kind ≠ .endOfInput := by
  rintro rfl
  simp [standardOperand] at h

theorem ne_endOfInput_of_operator {kind : Kind} {answer : Power × OperatorRule}
    (h : standardOperator kind = some answer) : kind ≠ .endOfInput := by
  rintro rfl
  simp [standardOperator] at h

theorem eq_of_assignment {kind : Kind} {power : Power}
    (h : standardOperator kind = some (power, .assignment)) :
    kind = .assignment ∧ power = .assignment := by
  cases kind <;> simp [standardOperator] at h ⊢
  exact h.symm

theorem eq_of_conditional {kind : Kind} {power : Power}
    (h : standardOperator kind = some (power, .conditional)) :
    kind = .question ∧ power = .conditional := by
  cases kind <;> simp [standardOperator] at h ⊢
  exact h.symm

theorem eq_of_call {kind : Kind} {power : Power}
    (h : standardOperator kind = some (power, .call)) : kind = .openParen ∧ power = .call := by
  cases kind <;> simp [standardOperator] at h ⊢
  exact h.symm

theorem eq_of_member {kind : Kind} {power : Power}
    (h : standardOperator kind = some (power, .member)) : kind = .dot ∧ power = .member := by
  cases kind <;> simp [standardOperator] at h ⊢
  exact h.symm

end Rules

/-- The kind that begins the statements of a rule. -/
def StatementRule.keyword? : StatementRule → Option Kind
  | any | .expression => none
  | letDecl => some .letWord
  | print => some .printWord
  | ifElse => some .ifWord
  | whileLoop => some .whileWord
  | doWhile => some .doWord
  | forLoop => some .forWord
  | switch => some .switchWord
  | breakLoop => some .breakWord
  | continueLoop => some .continueWord
  | returnValue => some .returnWord
  | block => some .openCurly
  | function => some .fnWord
  | classDecl => some .classWord

theorem Rules.keyword?_of_statement {kind : Kind} {rule : StatementRule}
    (h : standardStatement kind = some rule) : rule.keyword? = some kind := by
  cases kind <;> simp [standardStatement] at h <;> subst h <;> rfl

theorem ReadsExpr.length_after_lt {floor : Power} {s s' : ParseState} {e : Expr}
    (h : ReadsExpr floor s e s') : s'.after.length < s.after.length :=
  h.spans.length_after_lt e.spelling_ne_nil

theorem ReadsStmt.length_after_lt {s s' : ParseState} {stmt : Stmt} (h : ReadsStmt s stmt s') :
    s'.after.length < s.after.length :=
  h.spans.length_after_lt stmt.spelling_ne_nil

theorem ReadsFunction.length_after_lt {start : Position} {s s' : ParseState}
    {declaration : Function} (h : ReadsFunction start s declaration s') :
    s'.after.length < s.after.length :=
  h.spans.length_after_lt declaration.spelling_ne_nil

theorem ReadsOperator.length_after_lt {power : Power} {left whole : Expr} {s s' : ParseState}
    (h : ReadsOperator power left s whole s') : s'.after.length < s.after.length := by
  obtain ⟨sign, more, _, hs⟩ := h.spans
  exact hs.length_after_lt (List.cons_ne_nil sign more)

namespace Parse

section Expressions

variable {step : ExpressionParser}

theorem primary_ensures :
    Ensures primary (fun s e s' =>
      Rules.standardOperand s.current.kind = some .primary → ReadsOperand s e s') := by
  refine Ensures.bind_peek fun token => ?_
  have hliteral : token.kind.isLiteral → ∀ value, token.literal = some value →
      Ensures (do let _ ← advance; return Expr.literal value token.span)
        (fun s e s' => s.current = token → Rules.standardOperand s.current.kind = some .primary →
          ReadsOperand s e s') := by
    intro hk value hv
    refine (Ensures.advance.bind fun _ => .pure _).mono ?_
    rintro s e s' ⟨_, s₁, ⟨rfl, htakes⟩, rfl, rfl⟩ rfl hrule
    exact .literal (htakes (Rules.ne_endOfInput_of_operand hrule)) hk hv
  split
  iterate 5
    · next hk =>
      split
      · exact .failHere _
      · next value hv => exact hliteral (by rw [hk]; rfl) value hv
  · next hk =>
    refine (Ensures.advance.bind fun _ => Ensures.freshId.bind fun _ => .pure _).mono ?_
    rintro s e s' ⟨_, s₁, ⟨rfl, htakes⟩, id, s₂, ⟨rfl, rfl⟩, rfl, rfl⟩ rfl hrule
    exact .read (hk ▸ htakes (Rules.ne_endOfInput_of_operand hrule))
  · exact .failHere _

theorem selfRef_ensures :
    Ensures selfRef (fun s e s' => s.current.kind = .selfWord → ReadsOperand s e s') := by
  refine (Ensures.advance.bind fun _ => Ensures.freshId.bind fun _ => .pure _).mono ?_
  rintro s e s' ⟨keyword, s₁, ⟨rfl, htakes⟩, id, s₂, ⟨rfl, rfl⟩, rfl, rfl⟩ hk
  exact .selfRef (hk ▸ htakes (by rw [hk]; decide))

theorem superMethod_ensures :
    Ensures superMethod (fun s e s' => s.current.kind = .superWord → ReadsOperand s e s') := by
  refine (Ensures.advance.bind fun _ => (Ensures.expectBut (by decide) _).bind fun _ =>
    (Ensures.expectBut (by decide) _).bind fun _ => Ensures.freshId.bind fun _ => .pure _).mono ?_
  rintro s e s' ⟨keyword, s₁, ⟨rfl, htakes⟩, dot, s₂, hdot, method, s₃, hmethod, id, s₄, ⟨rfl, rfl⟩,
    rfl, rfl⟩ hk
  exact .superMethod (hk ▸ htakes (by rw [hk]; decide)) hdot hmethod

variable (hstep : ∀ floor, Ensures (step floor) (ReadsExpr floor))
include hstep

theorem unary_ensures :
    Ensures (unary step) (fun s e s' =>
      Rules.standardOperand s.current.kind = some .unary → ReadsOperand s e s') := by
  refine (Ensures.advance.bind fun _ => (hstep .unary).bind fun _ => .pure _).mono ?_
  rintro s e s' ⟨operator, s₁, ⟨rfl, htakes⟩, operand, s₂, hoperand, rfl, rfl⟩ hrule
  exact .unary (htakes (Rules.ne_endOfInput_of_operand hrule)) (Rules.eq_of_unary hrule) hoperand

theorem grouping_ensures :
    Ensures (grouping step) (fun s e s' => s.current.kind = .openParen → ReadsOperand s e s') := by
  refine (Ensures.advance.bind fun _ => (hstep .lowest).bind fun _ =>
    (Ensures.expectBut (by decide) _).bind fun _ => (Ensures.spanFrom _).bind fun _ =>
      .pure _).mono ?_
  rintro s e s' ⟨opening, s₁, ⟨rfl, htakes⟩, content, s₂, hcontent, closing, s₃, hclose, span, s₄,
    ⟨rfl, rfl⟩, rfl, rfl⟩ hk
  exact .grouping (hk ▸ htakes (by rw [hk]; decide)) hcontent hclose

theorem operand_ensures : Ensures (operand .standard step) ReadsOperand := by
  refine Ensures.bind_peek fun token => ?_
  split
  · next rule hrule =>
    cases rule with
    | primary => exact primary_ensures.mono fun s e s' h hc => h (hc ▸ hrule)
    | selfRef =>
      exact selfRef_ensures.mono fun s e s' h hc => h (hc ▸ Rules.eq_of_selfRef hrule)
    | superMethod =>
      exact superMethod_ensures.mono fun s e s' h hc => h (hc ▸ Rules.eq_of_superMethod hrule)
    | unary => exact (unary_ensures hstep).mono fun s e s' h hc => h (hc ▸ hrule)
    | grouping =>
      exact (grouping_ensures hstep).mono fun s e s' h hc => h (hc ▸ Rules.eq_of_grouping hrule)
  · exact .failHere _

theorem assignment_ensures (left : Expr) :
    Ensures (assignment step left) (fun s e s' =>
      s.current.kind = .assignment → ReadsOperator .assignment left s e s') := by
  cases left with
  | read target =>
    refine (Ensures.advance.bind fun _ => (hstep .lowest).bind fun _ =>
      Ensures.freshId.bind fun _ => .pure _).mono ?_
    rintro s e s' ⟨operator, s₁, ⟨rfl, htakes⟩, value, s₂, hvalue, id, s₃, ⟨rfl, rfl⟩, rfl, rfl⟩ hk
    exact .assign (hk ▸ htakes (by rw [hk]; decide)) hvalue
  | get object name span =>
    refine (Ensures.advance.bind fun _ => (hstep .lowest).bind fun _ => .pure _).mono ?_
    rintro s e s' ⟨operator, s₁, ⟨rfl, htakes⟩, value, s₂, hvalue, rfl, rfl⟩ hk
    exact .set (hk ▸ htakes (by rw [hk]; decide)) hvalue
  | _ =>
    exact (Ensures.advance.bind fun _ => (hstep .lowest).bind fun _ =>
      Ensures.failOn (R := fun _ _ _ => False) _ _).mono
        fun s e s' ⟨_, _, _, _, _, _, hfalse⟩ _ => hfalse.elim

theorem conditional_ensures (condition : Expr) :
    Ensures (conditional step condition) (fun s e s' =>
      s.current.kind = .question → ReadsOperator .conditional condition s e s') := by
  refine (Ensures.advance.bind fun _ => (hstep .lowest).bind fun _ =>
    (Ensures.expectBut (by decide) _).bind fun _ => (hstep .assignment).bind fun _ =>
      .pure _).mono ?_
  rintro s e s' ⟨question, s₁, ⟨rfl, htakes⟩, thenBranch, s₂, hthen, colon, s₃, hcolon,
    elseBranch, s₄, helse, rfl, rfl⟩ hk
  exact .conditional (hk ▸ htakes (by rw [hk]; decide)) hthen hcolon helse

theorem binary_ensures (evaluation : Evaluation) (left : Expr) (power : Power) :
    Ensures (binary step evaluation left power) (fun s e s' =>
      Rules.standardOperator s.current.kind = some (power, evaluation.rule) →
        ReadsOperator power left s e s') := by
  refine (Ensures.advance.bind fun _ => (hstep power).bind fun _ => .pure _).mono ?_
  rintro s e s' ⟨operator, s₁, ⟨rfl, htakes⟩, right, s₂, hright, rfl, rfl⟩ hrule
  exact .binary (htakes (Rules.ne_endOfInput_of_operator hrule)) hrule hright

theorem arguments_ensures :
    Ensures (separatedUntil .closeParen (step .lowest)) ReadsArguments := by
  have hitems : Ensures (separated (step .lowest)) ReadsItems :=
    Ensures.separated (hstep .lowest) (fun _ _ _ h => h.length_after_lt)
      (fun _ _ _ h hne => .last h hne) (fun _ _ _ _ _ _ _ h hcomma hrest => .more h hcomma hrest)
  exact Ensures.separatedUntil hitems (fun _ hk => .none hk) (fun _ _ _ hk h => .some hk h)

theorem call_ensures (callee : Expr) :
    Ensures (call step callee) (fun s e s' =>
      s.current.kind = .openParen → ReadsOperator .call callee s e s') := by
  refine (Ensures.advance.bind fun _ => (arguments_ensures hstep).bind fun _ =>
    (Ensures.expectBut (by decide) _).bind fun _ => (Ensures.spanFrom _).bind fun _ =>
      .pure _).mono ?_
  rintro s e s' ⟨opening, s₁, ⟨rfl, htakes⟩, arguments, s₂, harguments, closing, s₃, hclose, span,
    s₄, ⟨rfl, rfl⟩, rfl, rfl⟩ hk
  exact .call (hk ▸ htakes (by rw [hk]; decide)) harguments hclose

omit hstep in
theorem member_ensures (object : Expr) :
    Ensures (member object) (fun s e s' =>
      s.current.kind = .dot → ReadsOperator .member object s e s') := by
  refine (Ensures.advance.bind fun _ => (Ensures.expectBut (by decide) _).bind fun _ =>
    .pure _).mono ?_
  rintro s e s' ⟨dot, s₁, ⟨rfl, htakes⟩, name, s₂, hname, rfl, rfl⟩ hk
  exact .member (hk ▸ htakes (by rw [hk]; decide)) hname

theorem operator_ensures (rule : OperatorRule) (left : Expr) (power : Power) :
    Ensures (rule.parse step left power) (fun s e s' =>
      Rules.standardOperator s.current.kind = some (power, rule) →
        ReadsOperator power left s e s') := by
  cases rule with
  | assignment =>
    refine (assignment_ensures hstep left).mono fun s e s' h hrule => ?_
    obtain ⟨hk, rfl⟩ := Rules.eq_of_assignment hrule
    exact h hk
  | conditional =>
    refine (conditional_ensures hstep left).mono fun s e s' h hrule => ?_
    obtain ⟨hk, rfl⟩ := Rules.eq_of_conditional hrule
    exact h hk
  | logical => exact binary_ensures hstep .shortCircuit left power
  | binary => exact binary_ensures hstep .strict left power
  | call =>
    refine (call_ensures hstep left).mono fun s e s' h hrule => ?_
    obtain ⟨hk, rfl⟩ := Rules.eq_of_call hrule
    exact h hk
  | member =>
    refine (member_ensures left).mono fun s e s' h hrule => ?_
    obtain ⟨hk, rfl⟩ := Rules.eq_of_member hrule
    exact h hk

theorem operators_ensures (floor : Power) (left : Expr) :
    Ensures (operators .standard step floor left) (ReadsOperators floor left) := by
  intro s hs e s' hr
  fun_induction operators Rules.standard step floor left s generalizing e s' with
  | case1 left s hrule =>
    cases hr
    have hnone : Rules.standardOperator s.current.kind = none := hrule
    exact ⟨.stop fun power rule h => by simp [hnone] at h, hs⟩
  | case2 => cases hr
  | case3 left s power rule hrule htighter whole s₁ hone hlt ih =>
    obtain ⟨hR, hs₁⟩ := operator_ensures hstep rule left power s hs whole s₁ hone
    obtain ⟨hrest, hs'⟩ := ih hs₁ e s' hr
    exact ⟨.step htighter (hR hrule) hrest, hs'⟩
  | case4 left s power rule hrule htighter whole s₁ hone hge =>
    obtain ⟨hR, _⟩ := operator_ensures hstep rule left power s hs whole s₁ hone
    exact absurd (hR hrule).length_after_lt hge
  | case5 left s power rule hrule htighter =>
    cases hr
    refine ⟨.stop fun power' rule' h => ?_, hs⟩
    have heq : some (power, rule) = some (power', rule') := hrule.symm.trans h
    cases heq
    exact htighter

end Expressions

/-- Every expression that is read is derived. -/
theorem expressionWithin_ensures (levels : Nat) (floor : Power) :
    Ensures (expressionWithin .standard levels floor) (ReadsExpr floor) := by
  induction levels generalizing floor with
  | zero => exact .failHere _
  | succ levels ih =>
    refine ((operand_ensures ih).bind fun left => operators_ensures ih floor left).nested.mono ?_
    rintro s e s' ⟨hroom, s₂, ⟨first, s₁, hoperand, hoperators⟩, rfl⟩
    exact .nested hroom hoperand hoperators

section Statements

variable {expression : Parse Expr} {statement : Parse Stmt}

section Parts

variable (hexpression : Ensures expression (ReadsExpr .lowest))
include hexpression

theorem evaluated_ensures : Ensures (evaluated expression) ReadsEvaluated := by
  refine Ensures.bind_peek fun token => ?_
  refine (hexpression.bind fun _ => (Ensures.expect (by decide)).bind fun _ =>
    (Ensures.spanFrom _).bind fun _ => .pure _).mono ?_
  rintro s answer s' ⟨e, s₁, he, semicolon, s₂, hends, span, s₃, ⟨rfl, rfl⟩, rfl, rfl⟩ rfl
  exact .intro he hends

theorem letDecl_ensures : Ensures (letDecl expression) (fun s declaration s' =>
    s.current.kind = .letWord → ReadsLet s declaration s') := by
  refine (Ensures.advance.bind fun _ => (Ensures.expectBut (by decide) _).bind fun _ =>
    (Ensures.afterKind (by decide) hexpression).bind fun _ =>
      (Ensures.expect (by decide)).bind fun _ => (Ensures.spanFrom _).bind fun _ =>
        .pure _).mono ?_
  rintro s declaration s' ⟨keyword, s₁, ⟨rfl, htakes⟩, name, s₂, hname, value, s₃, hvalue,
    semicolon, s₄, hends, span, s₅, ⟨rfl, rfl⟩, rfl, rfl⟩ hk
  exact .intro (hk ▸ htakes (by rw [hk]; decide)) hname hvalue hends

theorem head_ensures (construct : String) : Ensures (head expression construct) ReadsHead := by
  refine ((Ensures.expectBut (by decide) _).bind fun _ => hexpression.bind fun _ =>
    (Ensures.expectBut (by decide) _).bind fun _ => .pure _).mono ?_
  rintro s e s' ⟨opening, s₁, hopens, e, s₂, he, closing, s₃, hcloses, rfl, rfl⟩
  exact .intro hopens he hcloses

theorem forStart_ensures : Ensures (forStart expression) ReadsStart := by
  refine Ensures.bind_peek fun token => ?_
  split
  · next hk =>
    refine (Ensures.advance.bind fun _ => .pure _).mono ?_
    rintro s start s' ⟨semicolon, s₁, ⟨rfl, htakes⟩, rfl, rfl⟩ rfl
    exact .none (hk ▸ htakes (by rw [hk]; decide))
  · next hk =>
    refine ((letDecl_ensures hexpression).bind fun _ => .pure _).mono ?_
    rintro s start s' ⟨declaration, s₁, hlet, rfl, rfl⟩ rfl
    exact .declare (hlet hk)
  · next hsemicolon hlet =>
    refine ((evaluated_ensures hexpression).bind fun _ => .pure _).mono ?_
    rintro s start s' ⟨⟨e, span⟩, s₁, he, rfl, rfl⟩ rfl
    exact .evaluate ⟨hsemicolon, hlet⟩ he

/-- What announces an arm of a `switch` is read, once its colon is. -/
theorem caseValue_ensures : Ensures (caseValue expression) (fun s value s' =>
    ∀ s₁ colon, Takes .colon s' colon s₁ → ReadsArm s value s₁) := by
  refine Ensures.bind_peek fun token => ?_
  split
  · next hk =>
    refine (Ensures.advance.bind fun _ => hexpression.bind fun _ => .pure _).mono ?_
    rintro s value s' ⟨word, s₁, ⟨rfl, htakes⟩, e, s₂, he, rfl, rfl⟩ rfl s₃ colon hcolon
    exact .value (hk ▸ htakes (by rw [hk]; decide)) he hcolon
  · next hk =>
    refine (Ensures.advance.bind fun _ => .pure _).mono ?_
    rintro s value s' ⟨word, s₁, ⟨rfl, htakes⟩, rfl, rfl⟩ rfl s₂ colon hcolon
    exact .default (hk ▸ htakes (by rw [hk]; decide)) hcolon
  · exact .failHere _

end Parts

theorem parameters_ensures : Ensures
    (separatedUntil .closeParen (expectBut .identifier "expected parameter name"))
    ReadsParameters := by
  have hnames : Ensures (separated (expectBut .identifier "expected parameter name"))
      ReadsNames :=
    Ensures.separated (Ensures.expectBut (by decide) _)
      (fun _ _ _ h => h.spans_kept.length_after_lt (List.cons_ne_nil _ _))
      (fun _ _ _ h hne => .last h hne) (fun _ _ _ _ _ _ _ h hcomma hrest => .more h hcomma hrest)
  exact Ensures.separatedUntil hnames (fun _ hk => .none hk) (fun _ _ _ hk h => .some hk h)

theorem superclass_ensures : Ensures superclass ReadsSuperclass := by
  refine ((Ensures.expectBut (by decide) _).bind fun _ => Ensures.freshId.bind fun _ =>
    .pure _).mono ?_
  rintro s parent s' ⟨name, s₁, hname, id, s₂, ⟨rfl, rfl⟩, rfl, rfl⟩
  exact .intro hname

theorem breakLoop_ensures :
    Ensures breakLoop (fun s stmt s' => s.current.kind = .breakWord → ReadsForm s stmt s') := by
  refine (Ensures.advance.bind fun _ => (Ensures.expect (by decide)).bind fun _ => .pure _).mono ?_
  rintro s stmt s' ⟨keyword, s₁, ⟨rfl, htakes⟩, semicolon, s₂, hends, rfl, rfl⟩ hk
  exact .breakLoop (hk ▸ htakes (by rw [hk]; decide)) hends

theorem continueLoop_ensures :
    Ensures continueLoop (fun s stmt s' =>
      s.current.kind = .continueWord → ReadsForm s stmt s') := by
  refine (Ensures.advance.bind fun _ => (Ensures.expect (by decide)).bind fun _ => .pure _).mono ?_
  rintro s stmt s' ⟨keyword, s₁, ⟨rfl, htakes⟩, semicolon, s₂, hends, rfl, rfl⟩ hk
  exact .continueLoop (hk ▸ htakes (by rw [hk]; decide)) hends

section Plain

variable (hexpression : Ensures expression (ReadsExpr .lowest))
include hexpression

theorem expressionStatement_ensures :
    Ensures (expressionStatement expression) (fun s stmt s' =>
      Rules.standardStatement s.current.kind = none → ReadsForm s stmt s') := by
  refine ((evaluated_ensures hexpression).bind fun _ => .pure _).mono ?_
  rintro s stmt s' ⟨⟨e, span⟩, s₁, he, rfl, rfl⟩ hnone
  exact .expression hnone he

theorem print_ensures :
    Ensures (print expression) (fun s stmt s' =>
      s.current.kind = .printWord → ReadsForm s stmt s') := by
  refine (Ensures.advance.bind fun _ => hexpression.bind fun _ =>
    (Ensures.expect (by decide)).bind fun _ => (Ensures.spanFrom _).bind fun _ => .pure _).mono ?_
  rintro s stmt s' ⟨keyword, s₁, ⟨rfl, htakes⟩, e, s₂, he, semicolon, s₃, hends, span, s₄,
    ⟨rfl, rfl⟩, rfl, rfl⟩ hk
  exact .print (hk ▸ htakes (by rw [hk]; decide)) he hends

theorem returnValue_ensures :
    Ensures (returnValue expression) (fun s stmt s' =>
      s.current.kind = .returnWord → ReadsForm s stmt s') := by
  refine (Ensures.advance.bind fun _ => (Ensures.unlessKind hexpression).bind fun _ =>
    (Ensures.expect (by decide)).bind fun _ => (Ensures.spanFrom _).bind fun _ => .pure _).mono ?_
  rintro s stmt s' ⟨keyword, s₁, ⟨rfl, htakes⟩, value, s₂, hvalue, semicolon, s₃, hends, span, s₄,
    ⟨rfl, rfl⟩, rfl, rfl⟩ hk
  exact .returnValue (hk ▸ htakes (by rw [hk]; decide)) hvalue hends

end Plain

section Bodies

variable (hstatement : Ensures statement ReadsStmt)
include hstatement

theorem statements_ensures (stop : Kind → Bool) :
    Ensures (manyUntil stop statement) (ReadsStmts stop) :=
  Ensures.manyUntil hstatement (fun _ _ _ h => h.length_after_lt) (fun _ hk => .nil hk)
    (fun _ _ _ _ _ hgoes h hrest => .cons hgoes h hrest)

theorem block_ensures :
    Ensures (block statement) (fun s answer s' => ReadsBlock s answer.1 answer.2 s') := by
  refine ((Ensures.expectBut (by decide) _).bind fun _ =>
    (statements_ensures hstatement _).bind fun _ => (Ensures.expectBut (by decide) _).bind fun _ =>
      (Ensures.spanFrom _).bind fun _ => .pure _).mono ?_
  rintro s answer s' ⟨opening, s₁, hopens, body, s₂, hbody, closing, s₃, hcloses, span, s₄,
    ⟨rfl, rfl⟩, rfl, rfl⟩
  exact .intro hopens hbody hcloses

theorem blockStatement_ensures : Ensures (blockStatement statement) ReadsForm := by
  refine ((block_ensures hstatement).bind fun _ => .pure _).mono ?_
  rintro s stmt s' ⟨⟨body, span⟩, s₁, hblock, rfl, rfl⟩
  exact .block hblock

theorem functionFrom_ensures (start : Position) :
    Ensures (functionFrom statement start) (ReadsFunction start) := by
  refine ((Ensures.expectBut (by decide) _).bind fun _ =>
    (Ensures.expectBut (by decide) _).bind fun _ => parameters_ensures.bind fun _ =>
      (Ensures.expectBut (by decide) _).bind fun _ => (block_ensures hstatement).bind fun _ =>
        (Ensures.spanFrom _).bind fun _ => .pure _).mono ?_
  rintro s declaration s' ⟨name, s₁, hname, opening, s₂, hopens, parameters, s₃, hnames, closing,
    s₄, hcloses, ⟨body, span⟩, s₅, hblock, whole, s₆, ⟨rfl, rfl⟩, rfl, rfl⟩
  exact .intro hname hopens hnames hcloses hblock

theorem function_ensures :
    Ensures (function statement) (fun s stmt s' =>
      s.current.kind = .fnWord → ReadsForm s stmt s') := by
  refine (Ensures.advance.bind fun _ => (functionFrom_ensures hstatement _).bind fun _ =>
    .pure _).mono ?_
  rintro s stmt s' ⟨keyword, s₁, ⟨rfl, htakes⟩, declaration, s₂, hdeclares, rfl, rfl⟩ hk
  exact .function (hk ▸ htakes (by rw [hk]; decide)) hdeclares

theorem method_ensures :
    Ensures (method statement) (fun s declaration s' =>
      ReadsFunction s.current.span.start s declaration s') := by
  refine Ensures.bind_peek fun token => (functionFrom_ensures hstatement _).mono ?_
  rintro s declaration s' h rfl
  exact h

theorem methods_ensures : Ensures (manyUntil endsBlock (method statement)) ReadsMethods :=
  Ensures.manyUntil (method_ensures hstatement) (fun _ _ _ h => h.length_after_lt)
    (fun _ hk => .nil hk) (fun _ _ _ _ _ hgoes h hrest => .cons hgoes h hrest)

theorem classDecl_ensures :
    Ensures (classDecl statement) (fun s stmt s' =>
      s.current.kind = .classWord → ReadsForm s stmt s') := by
  refine (Ensures.advance.bind fun _ => (Ensures.expectBut (by decide) _).bind fun _ =>
    (Ensures.afterKind (by decide) superclass_ensures).bind fun _ =>
      (Ensures.expectBut (by decide) _).bind fun _ => (methods_ensures hstatement).bind fun _ =>
        (Ensures.expectBut (by decide) _).bind fun _ => (Ensures.spanFrom _).bind fun _ =>
          .pure _).mono ?_
  rintro s stmt s' ⟨keyword, s₁, ⟨rfl, htakes⟩, name, s₂, hname, parent, s₃, hparent, opening, s₄,
    hopens, methods, s₅, hmethods, closing, s₆, hcloses, span, s₇, ⟨rfl, rfl⟩, rfl, rfl⟩ hk
  exact .classDecl (hk ▸ htakes (by rw [hk]; decide)) hname hparent hopens hmethods hcloses

variable (hexpression : Ensures expression (ReadsExpr .lowest))
include hexpression

theorem ifElse_ensures :
    Ensures (ifElse expression statement) (fun s stmt s' =>
      s.current.kind = .ifWord → ReadsForm s stmt s') := by
  refine (Ensures.advance.bind fun _ => (head_ensures hexpression _).bind fun _ =>
    hstatement.bind fun _ => (Ensures.afterKind (by decide) hstatement).bind fun _ =>
      (Ensures.spanFrom _).bind fun _ => .pure _).mono ?_
  rintro s stmt s' ⟨keyword, s₁, ⟨rfl, htakes⟩, condition, s₂, hhead, thenBody, s₃, hthen,
    elseBody, s₄, helse, span, s₅, ⟨rfl, rfl⟩, rfl, rfl⟩ hk
  have hkeyword : Takes .ifWord s s.current s₁ := hk ▸ htakes (by rw [hk]; decide)
  cases helse with
  | absent hends => exact .ifThen hkeyword hhead hthen hends
  | present hdivides hother => exact .ifElse hkeyword hhead hthen hdivides hother

theorem whileLoop_ensures :
    Ensures (whileLoop expression statement) (fun s stmt s' =>
      s.current.kind = .whileWord → ReadsForm s stmt s') := by
  refine (Ensures.advance.bind fun _ => (head_ensures hexpression _).bind fun _ =>
    hstatement.bind fun _ => (Ensures.spanFrom _).bind fun _ => .pure _).mono ?_
  rintro s stmt s' ⟨keyword, s₁, ⟨rfl, htakes⟩, condition, s₂, hhead, body, s₃, hbody, span, s₄,
    ⟨rfl, rfl⟩, rfl, rfl⟩ hk
  exact .whileLoop (hk ▸ htakes (by rw [hk]; decide)) hhead hbody

theorem doWhile_ensures :
    Ensures (doWhile expression statement) (fun s stmt s' =>
      s.current.kind = .doWord → ReadsForm s stmt s') := by
  refine (Ensures.advance.bind fun _ => hstatement.bind fun _ =>
    (Ensures.expectBut (by decide) _).bind fun _ => (head_ensures hexpression _).bind fun _ =>
      (Ensures.expect (by decide)).bind fun _ => (Ensures.spanFrom _).bind fun _ =>
        .pure _).mono ?_
  rintro s stmt s' ⟨keyword, s₁, ⟨rfl, htakes⟩, body, s₂, hbody, again, s₃, hdivides, condition,
    s₄, hhead, semicolon, s₅, hends, span, s₆, ⟨rfl, rfl⟩, rfl, rfl⟩ hk
  exact .doWhile (hk ▸ htakes (by rw [hk]; decide)) hbody hdivides hhead hends

theorem forLoop_ensures :
    Ensures (forLoop expression statement) (fun s stmt s' =>
      s.current.kind = .forWord → ReadsForm s stmt s') := by
  refine (Ensures.advance.bind fun _ => (Ensures.expectBut (by decide) _).bind fun _ =>
    (forStart_ensures hexpression).bind fun _ => (Ensures.unlessKind hexpression).bind fun _ =>
      (Ensures.expectBut (by decide) _).bind fun _ => (Ensures.unlessKind hexpression).bind fun _ =>
        (Ensures.expectBut (by decide) _).bind fun _ => hstatement.bind fun _ =>
          (Ensures.spanFrom _).bind fun _ => .pure _).mono ?_
  rintro s stmt s' ⟨keyword, s₁, ⟨rfl, htakes⟩, opening, s₂, hopens, start, s₃, hstart, condition,
    s₄, htest, semicolon, s₅, hdivides, increment, s₆, hstep, closing, s₇, hcloses, body, s₈,
    hbody, span, s₉, ⟨rfl, rfl⟩, rfl, rfl⟩ hk
  exact .forLoop (hk ▸ htakes (by rw [hk]; decide)) hopens hstart htest hdivides hstep hcloses
    hbody

/-- An arm of a `switch` is read: what announces it and its statements. -/
theorem case_ensures :
    Ensures (case expression statement) (fun s arm s' =>
      ∃ value s₁ body, arm = .mk value body ⟨s.current.span.start, s'.lastEnd⟩ ∧
        ReadsArm s value s₁ ∧ ReadsStmts endsCase s₁ body s') := by
  refine Ensures.bind_peek fun token => ?_
  refine ((caseValue_ensures hexpression).bind fun _ => (Ensures.expectBut (by decide) _).bind
    fun _ => (statements_ensures hstatement _).bind fun _ => (Ensures.spanFrom _).bind fun _ =>
      .pure _).mono ?_
  rintro s arm s' ⟨value, s₁, hvalue, colon, s₂, hcolon, body, s₃, hbody, span, s₄, ⟨rfl, rfl⟩,
    rfl, rfl⟩ rfl
  exact ⟨value, s₂, body, rfl, hvalue s₂ colon hcolon, hbody⟩

theorem cases_ensures :
    Ensures (manyUntil (· = .closeCurly) (case expression statement)) ReadsCases := by
  refine Ensures.manyUntil (case_ensures hstatement hexpression) ?_
    (fun _ hk => .nil (by simpa using hk)) ?_
  · rintro s arm s' ⟨value, s₁, body, rfl, harm, hbody⟩
    exact (harm.spans.append hbody.spans).length_after_lt (by simp [armSpelling_ne_nil])
  · rintro s arm s₁ rest s₂ hgoes ⟨value, s₀, body, rfl, harm, hbody⟩ hrest
    exact .cons (by simpa using hgoes) harm hbody hrest

theorem switch_ensures :
    Ensures (switch expression statement) (fun s stmt s' =>
      s.current.kind = .switchWord → ReadsForm s stmt s') := by
  refine (Ensures.advance.bind fun _ => (head_ensures hexpression _).bind fun _ =>
    (Ensures.expectBut (by decide) _).bind fun _ =>
      (cases_ensures hstatement hexpression).bind fun _ =>
        (Ensures.expect (by decide)).bind fun _ => (Ensures.spanFrom _).bind fun _ =>
          .pure _).mono ?_
  rintro s stmt s' ⟨keyword, s₁, ⟨rfl, htakes⟩, subject, s₂, hhead, opening, s₃, hopens, arms, s₄,
    harms, closing, s₅, hcloses, span, s₆, ⟨rfl, rfl⟩, rfl, rfl⟩ hk
  exact .switch (hk ▸ htakes (by rw [hk]; decide)) hhead hopens harms hcloses

/-- The rule that the table has for the current token reads a statement of its form. -/
theorem form_ensures (rule : Option StatementRule) :
    Ensures ((rule.getD .expression).parse expression statement) (fun s stmt s' =>
      Rules.standardStatement s.current.kind = rule → ReadsForm s stmt s') := by
  cases rule with
  | none => exact expressionStatement_ensures hexpression
  | some rule =>
    have hkeyword : ∀ {s : ParseState}, Rules.standardStatement s.current.kind = some rule →
        rule.keyword? = some s.current.kind := Rules.keyword?_of_statement
    have hkind : ∀ {s : ParseState} {kind : Kind}, rule.keyword? = some kind →
        Rules.standardStatement s.current.kind = some rule → s.current.kind = kind :=
      fun hk hrule => Option.some.inj ((hkeyword hrule).symm.trans hk)
    cases rule with
    | any => exact hstatement.mono fun s stmt s' _ hrule => nomatch hkeyword hrule
    | «expression» =>
      exact (expressionStatement_ensures hexpression).mono fun s stmt s' _ hrule =>
        nomatch hkeyword hrule
    | letDecl =>
      refine ((letDecl_ensures hexpression).bind fun _ => .pure _).mono ?_
      rintro s stmt s' ⟨declaration, s₁, h, rfl, rfl⟩ hrule
      exact .letDecl (h (hkind rfl hrule))
    | print => exact (print_ensures hexpression).mono fun s _ _ h hrule => h (hkind rfl hrule)
    | ifElse =>
      exact (ifElse_ensures hstatement hexpression).mono fun s _ _ h hrule => h (hkind rfl hrule)
    | whileLoop =>
      exact (whileLoop_ensures hstatement hexpression).mono fun s _ _ h hrule =>
        h (hkind rfl hrule)
    | doWhile =>
      exact (doWhile_ensures hstatement hexpression).mono fun s _ _ h hrule => h (hkind rfl hrule)
    | forLoop =>
      exact (forLoop_ensures hstatement hexpression).mono fun s _ _ h hrule => h (hkind rfl hrule)
    | switch =>
      exact (switch_ensures hstatement hexpression).mono fun s _ _ h hrule => h (hkind rfl hrule)
    | breakLoop => exact breakLoop_ensures.mono fun s _ _ h hrule => h (hkind rfl hrule)
    | continueLoop => exact continueLoop_ensures.mono fun s _ _ h hrule => h (hkind rfl hrule)
    | returnValue =>
      exact (returnValue_ensures hexpression).mono fun s _ _ h hrule => h (hkind rfl hrule)
    | block => exact (blockStatement_ensures hstatement).mono fun s _ _ h _ => h
    | function => exact (function_ensures hstatement).mono fun s _ _ h hrule => h (hkind rfl hrule)
    | classDecl =>
      exact (classDecl_ensures hstatement).mono fun s _ _ h hrule => h (hkind rfl hrule)

end Bodies

end Statements

/-- Every statement that is read is derived. -/
theorem statementWithin_ensures (levels : Nat) :
    Ensures (statementWithin .standard levels) ReadsStmt := by
  induction levels with
  | zero => exact .failHere _
  | succ levels ih =>
    have hform : Ensures (do
        let rule := (Rules.standardStatement (← peek).kind).getD .expression
        rule.parse (expressionWithin .standard levels .lowest) (statementWithin .standard levels))
        ReadsForm :=
      Ensures.bind_peek fun token =>
        (form_ensures ih (expressionWithin_ensures levels .lowest) _).mono
          fun s stmt s' h hcurrent => h (by rw [hcurrent])
    refine hform.nested.mono ?_
    rintro s stmt s' ⟨hroom, s₁, h, rfl⟩
    exact .nested hroom h

end Parse

namespace Program

/-- The statements of a program are derived from all its tokens. -/
theorem readsStmts_of_run {tokens : List Token} {statements : List Stmt} {s : ParseState}
    (h : run tokens = (.ok statements, s)) :
    ReadsStmts (· = .endOfInput) (ParseState.ofTokens tokens) statements s :=
  (Parse.statements_ensures (Parse.statementWithin_ensures (maxNesting + 1)) _ _
    (ParseState.closed_ofTokens tokens) statements s h).1

theorem readsStmts_of_parse {tokens : List Token} {program : Program}
    (h : parse tokens = .ok program) : ∃ s, s.given = program.idCount ∧
      ReadsStmts (· = .endOfInput) (ParseState.ofTokens tokens) program.statements s := by
  unfold parse at h
  split at h
  · next statements s hrun =>
    cases h
    exact ⟨s, rfl, readsStmts_of_run hrun⟩
  · cases h

end Program
end LexicalScoping
