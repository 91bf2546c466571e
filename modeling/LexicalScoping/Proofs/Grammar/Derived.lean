import LexicalScoping.Proofs.Grammar.RebuildExpression
import LexicalScoping.Proofs.Grammar.Sound

/-!
# Every tree that is read is well-shaped

The parser checks the shape of no tree. That operands bind as tightly as their places ask for
follows from where its loops end: an expression ends at a token that is no operator for its place,
so an operator that comes next binds no tighter than the last operand of what is on its left. A
statement that ends in an `if` without `else` ends, likewise, at a token that is no `else`.
-/
namespace LexicalScoping

variable {s s' : ParseState}

theorem Power.unary_le_primary : unary ≤ primary := by decide

theorem Power.unary_le_call : unary ≤ call := by decide

theorem binaryPower_of_standardOperator {evaluation : Evaluation} {kind : Kind} {power : Power}
    (h : Rules.standardOperator kind = some (power, evaluation.rule)) :
    binaryPower evaluation kind = some power := by
  cases evaluation <;> cases kind <;> simp [Rules.standardOperator, Evaluation.rule] at h <;>
    subst h <;> rfl

/-- What leaves an operator alone may stand on its left. -/
theorem Expr.le_power_of_le_tail {power : Power} {e : Expr} (hloose : Power.assignment < power)
    (htight : power ≤ .call) (h : power ≤ e.tail) : power ≤ e.power := by
  have hprimary : Power.call ≤ Power.primary := by decide
  cases e with
  | assign | set =>
    have hassignment : Power.lowest ≤ Power.assignment := by decide
    exact absurd hloose (Power.not_lt_of_le (Power.le_trans h hassignment))
  | conditional => exact absurd hloose (Power.not_lt_of_le h)
  | binary | unary => exact h
  | call | get => exact htight
  | literal | read | grouping | superMethod | selfRef => exact Power.le_trans htight hprimary

/-- What leaves a conditional alone may be its condition. -/
theorem Expr.WellShaped.conditional_lt_power {e : Expr} (hw : e.WellShaped)
    (h : Power.conditional ≤ e.tail) : Power.conditional < e.power := by
  cases e with
  | assign | set | conditional =>
    simp [Expr.tail, Power.le_iff_rank_le, Power.rank] at h
  | binary evaluation left operator right span =>
    obtain ⟨⟨power, hpower, -⟩, -⟩ := hw
    simp only [Expr.power, hpower, Option.getD_some]
    exact (bounds_of_binaryPower hpower).1
  | unary | call | get | literal | read | grouping | superMethod | selfRef =>
    simp [Expr.power, Power.lt_iff_rank_lt, Power.rank]

/-- The expression binds tighter than the floor, or it has no operator that asks for a floor. -/
def Expr.Above (floor : Power) (e : Expr) : Prop := floor < e.power ∨ Power.unary ≤ e.power

theorem Expr.Above.lt_power {floor : Power} {e : Expr} (h : e.Above floor)
    (hfloor : floor < .unary) : floor < e.power :=
  h.elim id (Power.lt_of_lt_of_le hfloor)

theorem Expr.Above.unary_le_power {e : Expr} (h : e.Above .unary) : Power.unary ≤ e.power :=
  h.elim Nat.le_of_lt id

theorem Expr.Above.of_le {floor power : Power} {e : Expr} (hfloor : floor < power)
    (h : power ≤ e.power ∨ Power.unary ≤ e.power) : e.Above floor :=
  h.imp_left (Power.lt_of_lt_of_le hfloor)

/-- A tree that the grammar derives, with a token behind it that its last operand leaves alone. -/
structure Expr.Ends (e : Expr) (s : ParseState) : Prop where
  wellShaped : e.WellShaped
  stops : Stops e.tail s.current

/-- An operator that comes next binds no tighter than the last operand. -/
theorem Expr.Ends.le_tail {e : Expr} (h : e.Ends s) {kind : Kind} {token : Token}
    {power : Power} {rule : OperatorRule} (operator : Takes kind s token s')
    (hrule : Rules.standardOperator kind = some (power, rule)) : power ≤ e.tail := by
  rw [← operator.kind_eq, ← operator.current] at hrule
  exact Power.le_of_not_lt (h.stops power rule hrule)

mutual

/-- An expression is well-shaped, fits its place, and ends where its place does. -/
theorem ReadsExpr.derived {floor : Power} {s s' : ParseState} {e : Expr} :
    ReadsExpr floor s e s' → e.WellShaped ∧ e.Above floor ∧ Stops floor s'.current
  | .nested _ operand operators => by
    obtain ⟨hends, hpower⟩ := operand.derived
    exact operators.derived hends (.inr hpower)

theorem ReadsOperand.derived {s s' : ParseState} {e : Expr} :
    ReadsOperand s e s' → e.Ends s' ∧ Power.unary ≤ e.power
  | .literal _ _ _ => ⟨⟨trivial, stops_primary _⟩, Power.unary_le_primary⟩
  | .read name => ⟨⟨name.kind_eq, stops_primary _⟩, Power.unary_le_primary⟩
  | .selfRef keyword => ⟨⟨keyword.kind_eq, stops_primary _⟩, Power.unary_le_primary⟩
  | .superMethod keyword _ name =>
    ⟨⟨⟨keyword.kind_eq, name.kind_eq⟩, stops_primary _⟩, Power.unary_le_primary⟩
  | .unary _ isUnary holds => by
    obtain ⟨hw, habove, hstops⟩ := holds.derived
    exact ⟨⟨⟨isUnary, habove.unary_le_power, hw⟩, hstops⟩, Power.le_refl _⟩
  | .grouping _ holds _ => ⟨⟨holds.derived.1, stops_primary _⟩, Power.unary_le_primary⟩

theorem ReadsOperators.derived {floor : Power} {left whole : Expr} {s s' : ParseState} :
    ReadsOperators floor left s whole s' → left.Ends s → left.Above floor →
      whole.WellShaped ∧ whole.Above floor ∧ Stops floor s'.current
  | .stop ends, hleft, habove => ⟨hleft.wellShaped, habove, ends⟩
  | .step tighter one others, hleft, _ => by
    obtain ⟨hmiddle, hpower⟩ := one.derived hleft
    exact others.derived hmiddle (.of_le tighter hpower)

/-- One operator is as loose as its power says, or it leaves a tree without loose operators. -/
theorem ReadsOperator.derived {power : Power} {left whole : Expr} {s s' : ParseState} :
    ReadsOperator power left s whole s' → left.Ends s →
      whole.Ends s' ∧ (power ≤ whole.power ∨ Power.unary ≤ whole.power)
  | .assign _ holds, hleft => by
    obtain ⟨hvalue, -, hstops⟩ := holds.derived
    exact ⟨⟨⟨hleft.wellShaped, hvalue⟩, hstops⟩, .inl (Power.le_refl _)⟩
  | .set _ holds, hleft => by
    obtain ⟨hvalue, -, hstops⟩ := holds.derived
    obtain ⟨htight, hname, hobject⟩ := hleft.wellShaped
    exact ⟨⟨⟨htight, hname, hobject, hvalue⟩, hstops⟩, .inl (Power.le_refl _)⟩
  | .conditional asks holds _ otherwise, hleft => by
    obtain ⟨helse, habove, hstops⟩ := otherwise.derived
    have hcondition := hleft.wellShaped.conditional_lt_power (hleft.le_tail asks rfl)
    exact ⟨⟨⟨hcondition, habove.lt_power (by decide), hleft.wellShaped, holds.derived.1, helse⟩,
      hstops⟩, .inl (Power.le_refl _)⟩
  | .binary operator isBinary holds, hleft => by
    have hpower := binaryPower_of_standardOperator isBinary
    obtain ⟨hloose, htight⟩ := bounds_of_binaryPower hpower
    obtain ⟨hright, habove, hstops⟩ := holds.derived
    have hle := Expr.le_power_of_le_tail (Nat.lt_trans (by decide) hloose)
      (Nat.le_of_lt (Nat.lt_trans htight (by decide))) (hleft.le_tail operator isBinary)
    refine ⟨⟨⟨⟨_, hpower, hle, habove.lt_power htight⟩, hleft.wellShaped, hright⟩, ?_⟩, .inl ?_⟩
    · simpa [Expr.tail, hpower] using hstops
    · simp [Expr.power, hpower, Power.le_refl]
  | .call opens holds _, hleft => by
    have hle := Expr.le_power_of_le_tail (by decide) (Power.le_refl _) (hleft.le_tail opens rfl)
    exact ⟨⟨⟨hle, hleft.wellShaped, holds.derived⟩, stops_primary _⟩, .inl (Power.le_refl _)⟩
  | .member dot property, hleft => by
    have hcall : Power.call ≤ left.tail := Power.le_trans (by decide) (hleft.le_tail dot rfl)
    have hle := Expr.le_power_of_le_tail (by decide) (Power.le_refl _) hcall
    exact ⟨⟨⟨hle, property.kind_eq, hleft.wellShaped⟩, stops_primary _⟩, .inr Power.unary_le_call⟩

theorem ReadsArguments.derived {s s' : ParseState} {arguments : List Expr} :
    ReadsArguments s arguments s' → Expr.WellShapedAll arguments
  | .none _ => trivial
  | .some _ items => items.derived

theorem ReadsItems.derived {s s' : ParseState} {arguments : List Expr} :
    ReadsItems s arguments s' → Expr.WellShapedAll arguments
  | .last item _ => ⟨item.derived.1, trivial⟩
  | .more item _ items => ⟨item.derived.1, items.derived⟩

end

theorem ReadsAfter.derived {kind : Kind} {value : Option Expr}
    (h : ReadsAfter kind (ReadsExpr .lowest) s value s') : Expr.WellShaped? value := by
  cases h with
  | absent _ => trivial
  | present _ follows => exact follows.derived.1

theorem ReadsUnless.derived {kind : Kind} {value : Option Expr}
    (h : ReadsUnless kind (ReadsExpr .lowest) s value s') : Expr.WellShaped? value := by
  cases h with
  | absent _ => trivial
  | present _ stands => exact stands.derived.1

theorem ReadsEvaluated.derived {answer : Expr × Span} (h : ReadsEvaluated s answer s') :
    answer.1.WellShaped := by
  obtain ⟨holds, -⟩ := h
  exact holds.derived.1

theorem ReadsHead.derived {e : Expr} (h : ReadsHead s e s') : e.WellShaped := by
  obtain ⟨-, holds, -⟩ := h
  exact holds.derived.1

theorem ReadsLet.derived {declaration : LetDecl} (h : ReadsLet s declaration s') :
    declaration.WellShaped := by
  obtain ⟨-, declares, initial, -⟩ := h
  exact ⟨declares.kind_eq, initial.derived⟩

theorem ReadsStart.derived {start : Option ForStart} (h : ReadsStart s start s') :
    ForStart.WellShaped start := by
  cases h with
  | none _ => trivial
  | declare declares => exact declares.derived
  | evaluate _ evaluates => exact evaluates.derived

theorem ReadsArm.derived {value : Option Expr} (h : ReadsArm s value s') :
    Expr.WellShaped? value := by
  cases h with
  | default _ _ => trivial
  | value _ holds _ => exact holds.derived.1

theorem ReadsAfter.derived_superclass {parent : Option Reference}
    (h : ReadsAfter .less ReadsSuperclass s parent s') : Reference.WellShaped? parent := by
  cases h with
  | absent _ => trivial
  | present _ follows =>
    obtain ⟨name⟩ := follows
    exact name.kind_eq

theorem ReadsNames.derived {names : List Token} (h : ReadsNames s names s') :
    ∀ name ∈ names, name.kind = .identifier := by
  induction h with
  | last item _ => exact List.forall_mem_singleton.2 item.kind_eq
  | more item _ _ ih => exact List.forall_mem_cons.2 ⟨item.kind_eq, ih⟩

theorem ReadsParameters.derived {names : List Token} (h : ReadsParameters s names s') :
    ∀ name ∈ names, name.kind = .identifier := by
  cases h with
  | none _ => simp
  | some _ items => exact items.derived

mutual

/-- A statement is well-shaped, and if it ends in an `if` without `else`, no `else` is next. -/
theorem ReadsStmt.derived {s s' : ParseState} {stmt : Stmt} :
    ReadsStmt s stmt s' → stmt.WellShaped ∧ (stmt.EndsOpen → s'.current.kind ≠ .elseWord)
  | .nested _ form => form.derived

theorem ReadsForm.derived {s s' : ParseState} {stmt : Stmt} :
    ReadsForm s stmt s' → stmt.WellShaped ∧ (stmt.EndsOpen → s'.current.kind ≠ .elseWord)
  | .block holds => ⟨holds.derived, False.elim⟩
  | .letDecl declares => ⟨declares.derived, False.elim⟩
  | .expression _ evaluates => ⟨evaluates.derived, False.elim⟩
  | .print _ holds _ => ⟨holds.derived.1, False.elim⟩
  | .ifThen _ head body ends => ⟨⟨head.derived, body.derived.1⟩, fun _ => ends⟩
  | .ifElse _ head body divides other => by
    obtain ⟨hbody, hopen⟩ := body.derived
    have hclosed : ¬ Stmt.EndsOpen _ := fun h => hopen h (divides.current ▸ divides.kind_eq)
    exact ⟨⟨head.derived, hbody, hclosed, other.derived.1⟩, other.derived.2⟩
  | .whileLoop _ head holds => ⟨⟨head.derived, holds.derived.1⟩, holds.derived.2⟩
  | .doWhile _ holds _ head _ => ⟨⟨holds.derived.1, head.derived⟩, False.elim⟩
  | .forLoop _ _ first test _ step _ holds =>
    ⟨⟨first.derived, test.derived, step.derived, holds.derived.1⟩, holds.derived.2⟩
  | .switch _ head _ holds _ => ⟨⟨head.derived, holds.derived⟩, False.elim⟩
  | .breakLoop keyword _ => ⟨keyword.kind_eq, False.elim⟩
  | .continueLoop keyword _ => ⟨keyword.kind_eq, False.elim⟩
  | .returnValue keyword result _ => ⟨⟨keyword.kind_eq, result.derived⟩, False.elim⟩
  | .function _ declares => ⟨declares.derived, False.elim⟩
  | .classDecl _ declares inherits _ holds _ =>
    ⟨⟨declares.kind_eq, inherits.derived_superclass, holds.derived⟩, False.elim⟩

theorem ReadsBlock.derived {s s' : ParseState} {body : List Stmt} {span : Span} :
    ReadsBlock s body span s' → Stmt.WellShapedAll body
  | .intro _ holds _ => holds.derived

theorem ReadsStmts.derived {stop : Kind → Bool} {s s' : ParseState} {list : List Stmt} :
    ReadsStmts stop s list s' → Stmt.WellShapedAll list
  | .nil _ => trivial
  | .cons _ first others => ⟨first.derived.1, others.derived⟩

theorem ReadsCases.derived {s s' : ParseState} {arms : List Case} :
    ReadsCases s arms s' → Case.WellShapedAll arms
  | .nil _ => trivial
  | .cons _ arm holds others => ⟨arm.derived, holds.derived, others.derived⟩

theorem ReadsFunction.derived {start : Position} {s s' : ParseState} {declaration : Function} :
    ReadsFunction start s declaration s' → declaration.WellShaped
  | .intro declares _ names _ holds => ⟨declares.kind_eq, names.derived, holds.derived⟩

theorem ReadsMethods.derived {s s' : ParseState} {methods : List Function} :
    ReadsMethods s methods s' → Function.WellShapedAll methods
  | .nil _ => trivial
  | .cons _ first others => ⟨first.derived, others.derived⟩

end

/-- The grammar derives every program that is read. -/
theorem Program.wellShapedAll_of_parse {tokens : List Token} {program : Program}
    (h : Program.parse tokens = .ok program) : Stmt.WellShapedAll program.statements := by
  obtain ⟨s, -, hreads⟩ := readsStmts_of_parse h
  exact hreads.derived

end LexicalScoping
