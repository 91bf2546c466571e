import LexicalScoping.Proofs.Grammar.Alike

/-!
# Every rule reads alike

Each rule of the grammar reads corresponding tokens alike, provided that the parsers it is given for
the parts do; by induction on the levels the whole parser does. Where a rule looks at a tree that it
has read, as an assignment does for its target, it looks at the shape only.
-/
namespace LexicalScoping
namespace Parse

variable {R : Token → Token → Prop} (hR : Correspondence R)
include hR

section Expressions

/-- A literal token that carries no literal is refused in both. -/
theorem primary_alike : Alike R (Expr.Alike R) primary primary := by
  refine Alike.bind_peek hR fun t t' h hkind => ?_
  have hliterals := hR.literal h
  generalize t.literal = literal at hliterals ⊢
  generalize t'.literal = literal' at hliterals ⊢
  rw [hkind]
  cases hk : t'.kind with
  | number | string | trueWord | falseWord | nilWord =>
    cases literal with
    | none =>
      cases literal' with
      | none => exact .failHere fun _ _ => rfl
      | some value' => cases hliterals
    | some value =>
      cases literal' with
      | none => cases hliterals
      | some value' =>
        have hvalue : value.plain = value'.plain := Option.some.inj hliterals
        exact Alike.advance.bind fun _ _ _ => .pure (.literal hvalue)
  | identifier =>
    exact Alike.advance.bind fun _ _ _ => Alike.freshId.bind fun _ _ hid =>
      .pure (.read ⟨hid, h, hkind.trans hk⟩)
  | _ => exact .unexpected

omit hR in
theorem selfRef_alike : Alike R (Expr.Alike R) selfRef selfRef :=
  Alike.advance.bind fun _ _ hkeyword => Alike.freshId.bind fun _ _ hid =>
    .pure (hid ▸ .selfRef hkeyword)

theorem superMethod_alike : Alike R (Expr.Alike R) superMethod superMethod :=
  Alike.advance.bind fun _ _ hkeyword => (Alike.expectBut hR _ _).bind fun _ _ _ =>
    (Alike.expectBut hR _ _).bind fun _ _ hmethod => Alike.freshId.bind fun _ _ hid =>
      .pure (hid ▸ .superMethod hkeyword hmethod.1)

variable {step step' : ExpressionParser}
  (hstep : ∀ floor, Alike R (Expr.Alike R) (step floor) (step' floor))
include hstep

omit hR in
theorem unary_alike : Alike R (Expr.Alike R) (unary step) (unary step') :=
  Alike.advance.bind fun _ _ hoperator => (hstep _).bind fun _ _ hoperand =>
    .pure (.unary hoperator hoperand)

theorem grouping_alike : Alike R (Expr.Alike R) (grouping step) (grouping step') :=
  Alike.advance.bind fun _ _ _ => (hstep _).bind fun _ _ hcontent =>
    (Alike.expectBut hR _ _).bind fun _ _ _ => (Alike.spanFrom _ _).bind fun _ _ _ =>
      .pure (.grouping hcontent)

theorem operand_alike (rules : Rules) :
    Alike R (Expr.Alike R) (operand rules step) (operand rules step') := by
  refine Alike.bind_peek hR fun t t' _ hkind => ?_
  rw [hkind]
  cases rules.operand t'.kind with
  | none => exact .unexpected
  | some rule =>
    cases rule with
    | primary => exact primary_alike hR
    | selfRef => exact selfRef_alike
    | superMethod => exact superMethod_alike hR
    | unary => exact unary_alike hstep
    | grouping => exact grouping_alike hR hstep

omit hR hstep in
/-- What can be assigned to is a matter of shape. -/
theorem assignTo_alike {operator operator' : Token} (hoperator : R operator operator')
    {value value' : Expr} (hvalue : value.Alike R value') (span span' : Span)
    {left left' : Expr} (hleft : left.Alike R left') :
    Alike R (Expr.Alike R) (assignTo operator value span left)
      (assignTo operator' value' span' left') := by
  cases hleft with
  | read htarget =>
    exact Alike.freshId.bind fun _ _ hid => .pure (.assign ⟨hid, htarget.name⟩ hvalue)
  | get hobject hname => exact .pure (.set hobject hname hvalue)
  | _ => exact .failOn hoperator _

section Operators

variable {left left' : Expr} (hleft : left.Alike R left')
include hleft

omit hR in
theorem binary_alike (evaluation : Evaluation) (power : Power) :
    Alike R (Expr.Alike R) (binary step evaluation left power)
      (binary step' evaluation left' power) :=
  Alike.advance.bind fun _ _ hoperator => (hstep _).bind fun _ _ hright =>
    .pure (.binary hleft hoperator hright)

omit hR in
theorem assignment_alike :
    Alike R (Expr.Alike R) (assignment step left) (assignment step' left') :=
  Alike.advance.bind fun _ _ hoperator => (hstep _).bind fun _ _ hvalue =>
    assignTo_alike hoperator hvalue _ _ hleft

theorem conditional_alike :
    Alike R (Expr.Alike R) (conditional step left) (conditional step' left') :=
  Alike.advance.bind fun _ _ _ => (hstep _).bind fun _ _ hthen =>
    (Alike.expectBut hR _ _).bind fun _ _ _ => (hstep _).bind fun _ _ helse =>
      .pure (.conditional hleft hthen helse)

theorem call_alike : Alike R (Expr.Alike R) (call step left) (call step' left') :=
  Alike.advance.bind fun _ _ _ => (Alike.separatedUntil hR _ (hstep _)).bind fun _ _ harguments =>
    (Alike.expectBut hR _ _).bind fun _ _ _ => (Alike.spanFrom _ _).bind fun _ _ _ =>
      .pure (.call hleft harguments)

omit hstep in
theorem member_alike : Alike R (Expr.Alike R) (member left) (member left') :=
  Alike.advance.bind fun _ _ _ => (Alike.expectBut hR _ _).bind fun _ _ hname =>
    .pure (.get hleft hname.1)

theorem operator_alike (rule : OperatorRule) (power : Power) :
    Alike R (Expr.Alike R) (rule.parse step left power) (rule.parse step' left' power) := by
  cases rule with
  | assignment => exact assignment_alike hstep hleft
  | conditional => exact conditional_alike hR hstep hleft
  | logical => exact binary_alike hstep hleft _ _
  | binary => exact binary_alike hstep hleft _ _
  | call => exact call_alike hR hstep hleft
  | member => exact member_alike hR hleft

end Operators

theorem operators_alike (rules : Rules) (floor : Power) {left left' : Expr}
    (hleft : left.Alike R left') :
    Alike R (Expr.Alike R) (operators rules step floor left)
      (operators rules step' floor left') := by
  intro s s' hs
  fun_induction operators rules step floor left s generalizing left' s' with
  | case1 left s hnone =>
    rw [hR.kind hs.current] at hnone
    rw [operators, hnone]
    exact .ok hleft hs
  | case2 left s power rule hrule htighter d s₁ hone =>
    rw [hR.kind hs.current] at hrule
    obtain ⟨d', s₁', hone', hd⟩ := (operator_alike hR hstep hleft rule power s s' hs).of_error hone
    rw [operators, hrule]
    simp only [if_pos htighter, hone']
    exact .error hd
  | case3 left s power rule hrule htighter whole s₁ hone hlt ih =>
    rw [hR.kind hs.current] at hrule
    obtain ⟨whole', s₁', hone', hwhole, hs₁⟩ :=
      (operator_alike hR hstep hleft rule power s s' hs).of_ok hone
    have hlt' : s₁'.after.length < s'.after.length := hs₁.length_after ▸ hs.length_after ▸ hlt
    have hrest := ih hwhole s₁' hs₁
    rw [operators.eq_def rules step', hrule]
    simp only [if_pos htighter, hone', if_pos hlt']
    exact hrest
  | case4 left s power rule hrule htighter whole s₁ hone hge =>
    rw [hR.kind hs.current] at hrule
    obtain ⟨whole', s₁', hone', hwhole, hs₁⟩ :=
      (operator_alike hR hstep hleft rule power s s' hs).of_ok hone
    have hge' : ¬ s₁'.after.length < s'.after.length := hs₁.length_after ▸ hs.length_after ▸ hge
    rw [operators, hrule]
    simp only [if_pos htighter, hone', if_neg hge']
    exact .ok hwhole hs₁
  | case5 left s power rule hrule hloose =>
    rw [hR.kind hs.current] at hrule
    rw [operators, hrule]
    simp only [if_neg hloose]
    exact .ok hleft hs

end Expressions

/-- Expressions are read alike, whatever the grammar. -/
theorem expressionWithin_alike (rules : Rules) (levels : Nat) (floor : Power) :
    Alike R (Expr.Alike R) (expressionWithin rules levels floor)
      (expressionWithin rules levels floor) := by
  induction levels generalizing floor with
  | zero => exact .failHere fun _ _ => rfl
  | succ levels ih =>
    exact Alike.nested ((operand_alike hR ih rules).bind fun _ _ hleft =>
      operators_alike hR ih rules floor hleft)

section Statements

variable {expression expression' : Parse Expr} {statement statement' : Parse Stmt}

section Parts

variable (hexpression : Alike R (Expr.Alike R) expression expression')
include hexpression

theorem evaluated_alike :
    Alike R (fun answer answer' => answer.1.Alike R answer'.1) (evaluated expression)
      (evaluated expression') :=
  Alike.bind_peek hR fun _ _ _ _ => hexpression.bind fun _ _ hvalue =>
    (Alike.expect hR _).bind fun _ _ _ => (Alike.spanFrom _ _).bind fun _ _ _ => .pure hvalue

theorem letDecl_alike :
    Alike R (LetDecl.Alike R) (letDecl expression) (letDecl expression') :=
  Alike.advance.bind fun _ _ _ => (Alike.expectBut hR _ _).bind fun _ _ hname =>
    (Alike.afterKind hR _ hexpression).bind fun _ _ hvalue => (Alike.expect hR _).bind fun _ _ _ =>
      (Alike.spanFrom _ _).bind fun _ _ _ => .pure ⟨hname, hvalue⟩

theorem head_alike (construct : String) :
    Alike R (Expr.Alike R) (head expression construct) (head expression' construct) :=
  (Alike.expectBut hR _ _).bind fun _ _ _ => hexpression.bind fun _ _ hvalue =>
    (Alike.expectBut hR _ _).bind fun _ _ _ => .pure hvalue

theorem forStart_alike :
    Alike R (Option.Rel (ForStart.Alike R)) (forStart expression) (forStart expression') := by
  refine Alike.bind_peek hR fun t t' _ hkind => ?_
  rw [hkind]
  cases t'.kind with
  | semicolon => exact Alike.advance.bind fun _ _ _ => .pure .none
  | letWord =>
    exact (letDecl_alike hR hexpression).bind fun _ _ hdeclaration =>
      .pure (.some (.declare hdeclaration))
  | _ =>
    exact (evaluated_alike hR hexpression).bind fun _ _ hvalue =>
      .pure (.some (.evaluate hvalue))

theorem caseValue_alike :
    Alike R (Option.Rel (Expr.Alike R)) (caseValue expression) (caseValue expression') := by
  refine Alike.bind_peek hR fun t t' _ hkind => ?_
  rw [hkind]
  cases t'.kind with
  | caseWord =>
    exact Alike.advance.bind fun _ _ _ => hexpression.bind fun _ _ hvalue => .pure (.some hvalue)
  | defaultWord => exact Alike.advance.bind fun _ _ _ => .pure .none
  | _ => exact .unexpectedBut _

theorem expressionStatement_alike :
    Alike R (Stmt.Alike R) (expressionStatement expression) (expressionStatement expression') :=
  (evaluated_alike hR hexpression).bind fun _ _ hvalue => .pure (.expression hvalue)

theorem print_alike : Alike R (Stmt.Alike R) (print expression) (print expression') :=
  Alike.advance.bind fun _ _ _ => hexpression.bind fun _ _ hvalue =>
    (Alike.expect hR _).bind fun _ _ _ => (Alike.spanFrom _ _).bind fun _ _ _ =>
      .pure (.print hvalue)

theorem returnValue_alike :
    Alike R (Stmt.Alike R) (returnValue expression) (returnValue expression') :=
  Alike.advance.bind fun _ _ hkeyword => (Alike.unlessKind hR _ hexpression).bind fun _ _ hvalue =>
    (Alike.expect hR _).bind fun _ _ _ => (Alike.spanFrom _ _).bind fun _ _ _ =>
      .pure (.returnValue hkeyword hvalue)

end Parts

theorem breakLoop_alike : Alike R (Stmt.Alike R) breakLoop breakLoop :=
  Alike.advance.bind fun _ _ hkeyword => (Alike.expect hR _).bind fun _ _ _ =>
    .pure (.breakLoop hkeyword)

theorem continueLoop_alike : Alike R (Stmt.Alike R) continueLoop continueLoop :=
  Alike.advance.bind fun _ _ hkeyword => (Alike.expect hR _).bind fun _ _ _ =>
    .pure (.continueLoop hkeyword)

theorem superclass_alike : Alike R (Reference.Alike R) superclass superclass :=
  (Alike.expectBut hR _ _).bind fun _ _ hname => Alike.freshId.bind fun _ _ hid =>
    .pure ⟨hid, hname⟩

section Bodies

variable (hstatement : Alike R (Stmt.Alike R) statement statement')
include hstatement

theorem block_alike :
    Alike R (fun answer answer' => List.Forall₂ (Stmt.Alike R) answer.1 answer'.1)
      (block statement) (block statement') :=
  (Alike.expectBut hR _ _).bind fun _ _ _ => (Alike.manyUntil hR _ hstatement).bind fun _ _ hbody =>
    (Alike.expectBut hR _ _).bind fun _ _ _ => (Alike.spanFrom _ _).bind fun _ _ _ => .pure hbody

theorem blockStatement_alike :
    Alike R (Stmt.Alike R) (blockStatement statement) (blockStatement statement') :=
  (block_alike hR hstatement).bind fun _ _ hbody => .pure (.block hbody)

theorem functionFrom_alike (start start' : Position) :
    Alike R (Function.Alike R) (functionFrom statement start) (functionFrom statement' start') :=
  (Alike.expectBut hR _ _).bind fun _ _ hname => (Alike.expectBut hR _ _).bind fun _ _ _ =>
    (Alike.separatedUntil hR _ (Alike.expectBut hR _ _)).bind fun _ _ hparameters =>
      (Alike.expectBut hR _ _).bind fun _ _ _ => (block_alike hR hstatement).bind fun _ _ hbody =>
        (Alike.spanFrom _ _).bind fun _ _ _ => .pure (.mk hname hparameters hbody)

theorem function_alike : Alike R (Stmt.Alike R) (function statement) (function statement') :=
  Alike.advance.bind fun _ _ _ => (functionFrom_alike hR hstatement _ _).bind fun _ _ hf =>
    .pure (.function hf)

theorem method_alike : Alike R (Function.Alike R) (method statement) (method statement') :=
  Alike.bind_peek hR fun _ _ _ _ => functionFrom_alike hR hstatement _ _

theorem classDecl_alike : Alike R (Stmt.Alike R) (classDecl statement) (classDecl statement') :=
  Alike.advance.bind fun _ _ _ => (Alike.expectBut hR _ _).bind fun _ _ hname =>
    (Alike.afterKind hR _ (superclass_alike hR)).bind fun _ _ hparent =>
      (Alike.expectBut hR _ _).bind fun _ _ _ =>
        (Alike.manyUntil hR _ (method_alike hR hstatement)).bind fun _ _ hmethods =>
          (Alike.expectBut hR _ _).bind fun _ _ _ => (Alike.spanFrom _ _).bind fun _ _ _ =>
            .pure (.classDecl hname hparent hmethods)

variable (hexpression : Alike R (Expr.Alike R) expression expression')
include hexpression

theorem ifElse_alike :
    Alike R (Stmt.Alike R) (ifElse expression statement) (ifElse expression' statement') :=
  Alike.advance.bind fun _ _ _ => (head_alike hR hexpression _).bind fun _ _ hcondition =>
    hstatement.bind fun _ _ hthen => (Alike.afterKind hR _ hstatement).bind fun _ _ helse =>
      (Alike.spanFrom _ _).bind fun _ _ _ => .pure (.ifElse hcondition hthen helse)

theorem whileLoop_alike :
    Alike R (Stmt.Alike R) (whileLoop expression statement) (whileLoop expression' statement') :=
  Alike.advance.bind fun _ _ _ => (head_alike hR hexpression _).bind fun _ _ hcondition =>
    hstatement.bind fun _ _ hbody => (Alike.spanFrom _ _).bind fun _ _ _ =>
      .pure (.whileLoop hcondition hbody)

theorem doWhile_alike :
    Alike R (Stmt.Alike R) (doWhile expression statement) (doWhile expression' statement') :=
  Alike.advance.bind fun _ _ _ => hstatement.bind fun _ _ hbody =>
    (Alike.expectBut hR _ _).bind fun _ _ _ =>
      (head_alike hR hexpression _).bind fun _ _ hcondition =>
        (Alike.expect hR _).bind fun _ _ _ => (Alike.spanFrom _ _).bind fun _ _ _ =>
          .pure (.doWhile hbody hcondition)

theorem forLoop_alike :
    Alike R (Stmt.Alike R) (forLoop expression statement) (forLoop expression' statement') :=
  Alike.advance.bind fun _ _ _ => (Alike.expectBut hR _ _).bind fun _ _ _ =>
    (forStart_alike hR hexpression).bind fun _ _ hstart =>
      (Alike.unlessKind hR _ hexpression).bind fun _ _ hcondition =>
        (Alike.expectBut hR _ _).bind fun _ _ _ =>
          (Alike.unlessKind hR _ hexpression).bind fun _ _ hincrement =>
            (Alike.expectBut hR _ _).bind fun _ _ _ => hstatement.bind fun _ _ hbody =>
              (Alike.spanFrom _ _).bind fun _ _ _ =>
                .pure (.forLoop hstart hcondition hincrement hbody)

theorem case_alike :
    Alike R (Case.Alike R) (case expression statement) (case expression' statement') :=
  Alike.bind_peek hR fun _ _ _ _ => (caseValue_alike hR hexpression).bind fun _ _ hvalue =>
    (Alike.expectBut hR _ _).bind fun _ _ _ =>
      (Alike.manyUntil hR _ hstatement).bind fun _ _ hbody =>
        (Alike.spanFrom _ _).bind fun _ _ _ => .pure (.mk hvalue hbody)

theorem switch_alike :
    Alike R (Stmt.Alike R) (switch expression statement) (switch expression' statement') :=
  Alike.advance.bind fun _ _ _ => (head_alike hR hexpression _).bind fun _ _ hsubject =>
    (Alike.expectBut hR _ _).bind fun _ _ _ =>
      (Alike.manyUntil hR _ (case_alike hR hstatement hexpression)).bind fun _ _ harms =>
        (Alike.expect hR _).bind fun _ _ _ => (Alike.spanFrom _ _).bind fun _ _ _ =>
          .pure (.switch hsubject harms)

theorem statementRule_alike (rule : StatementRule) :
    Alike R (Stmt.Alike R) (rule.parse expression statement)
      (rule.parse expression' statement') := by
  cases rule with
  | any => exact hstatement
  | expression => exact expressionStatement_alike hR hexpression
  | letDecl =>
    exact (letDecl_alike hR hexpression).bind fun _ _ hdeclaration => .pure (.letDecl hdeclaration)
  | print => exact print_alike hR hexpression
  | ifElse => exact ifElse_alike hR hstatement hexpression
  | whileLoop => exact whileLoop_alike hR hstatement hexpression
  | doWhile => exact doWhile_alike hR hstatement hexpression
  | forLoop => exact forLoop_alike hR hstatement hexpression
  | switch => exact switch_alike hR hstatement hexpression
  | breakLoop => exact breakLoop_alike hR
  | continueLoop => exact continueLoop_alike hR
  | returnValue => exact returnValue_alike hR hexpression
  | block => exact blockStatement_alike hR hstatement
  | function => exact function_alike hR hstatement
  | classDecl => exact classDecl_alike hR hstatement

end Bodies
end Statements

/-- Statements are read alike, whatever the grammar. -/
theorem statementWithin_alike (rules : Rules) (levels : Nat) :
    Alike R (Stmt.Alike R) (statementWithin rules levels) (statementWithin rules levels) := by
  induction levels with
  | zero => exact .failHere fun _ _ => rfl
  | succ levels ih =>
    refine Alike.nested (Alike.bind_peek hR fun t t' _ hkind => ?_)
    rw [hkind]
    exact statementRule_alike hR ih (expressionWithin_alike hR rules levels .lowest) _

end Parse

namespace Program

/-- Both token lists are read, into programs of one shape with the same numbers, or both are
refused, for causes of one name at corresponding tokens. -/
inductive ReadingsAlike (R : Token → Token → Prop) :
    Except Diagnostic Program → Except Diagnostic Program → Prop
  | ok {program program' : Program} :
    List.Forall₂ (Stmt.Alike R) program.statements program'.statements →
    program.idCount = program'.idCount → ReadingsAlike R (.ok program) (.ok program')
  | error {d d' : Diagnostic} : d.Alike R d' → ReadingsAlike R (.error d) (.error d')

variable {R : Token → Token → Prop}

theorem getLast?_alike {tokens tokens' : List Token} (h : List.Forall₂ R tokens tokens') :
    Option.Rel R tokens.getLast? tokens'.getLast? := by
  induction h with
  | nil => exact .none
  | @cons t t' rest rest' ht hrest ih =>
    cases hrest with
    | nil => exact .some ht
    | cons hnext hrest =>
      rw [List.getLast?_cons_cons, List.getLast?_cons_cons]
      exact ih

/-- Before anything is read, parsers of corresponding tokens stand alike, if the tokens end with the
end of input. -/
theorem ofTokens_alike (hR : Correspondence R) {tokens tokens' : List Token}
    (h : List.Forall₂ R tokens tokens') {last : Token} (hlast : tokens.getLast? = some last)
    (hend : last.kind = .endOfInput) :
    (ParseState.ofTokens tokens).Alike R (ParseState.ofTokens tokens') := by
  obtain ⟨last', hlast', hends⟩ : ∃ last', tokens'.getLast? = some last' ∧ R last last' := by
    have hboth := getLast?_alike h
    rw [hlast] at hboth
    generalize tokens'.getLast? = answer at hboth
    cases hboth with
    | some hends => exact ⟨_, rfl, hends⟩
  have hend' : last'.kind = .endOfInput := hR.kind hends ▸ hend
  cases h with
  | nil => contradiction
  | cons hfirst hrest =>
    rw [ParseState.ofTokens, ParseState.ofTokens,
      ParseState.closedAfter_eq_self (by simp [hlast, hend]),
      ParseState.closedAfter_eq_self (by simp [hlast', hend'])]
    exact ⟨hfirst, hrest, rfl, rfl⟩

/-- Corresponding tokens are parsed alike. -/
theorem parse_alike (hR : Correspondence R) {tokens tokens' : List Token}
    (h : List.Forall₂ R tokens tokens') {last : Token} (hlast : tokens.getLast? = some last)
    (hend : last.kind = .endOfInput) : ReadingsAlike R (parse tokens) (parse tokens') := by
  have hstatement := Parse.statementWithin_alike hR .standard (maxNesting + 1)
  have hanswers : Parse.AnswersAlike R (List.Forall₂ (Stmt.Alike R)) (run tokens) (run tokens') :=
    Parse.Alike.manyUntil hR (· = .endOfInput) hstatement _ _ (ofTokens_alike hR h hlast hend)
  unfold parse
  generalize run tokens = answer at hanswers
  generalize run tokens' = answer' at hanswers
  cases hanswers with
  | ok hstatements hs => exact .ok hstatements hs.given
  | error hd => exact .error hd

end Program
end LexicalScoping
