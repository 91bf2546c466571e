import LexicalScoping.Proofs.Grammar.Derivation

/-!
# What is read is what the tree is spelled by

Between the states before and after a reading lie exactly the tokens that the tree is spelled by:
none is lost, added or moved. An operator that takes what has been read as its left operand extends
the spelling of that operand at its end, also where it turns the operand into something else.
-/
namespace LexicalScoping

variable {s s' : ParseState}

theorem ReadsNames.map_ne_nil {names : List Token} (h : ReadsNames s names s') :
    (names.map fun name => [Sign.kept name]) ≠ [] := by
  cases h <;> simp

theorem ReadsItems.spellings_ne_nil {arguments : List Expr} (h : ReadsItems s arguments s') :
    Expr.spellings arguments ≠ [] := by
  cases h <;> simp [Expr.spellings]

theorem ReadsNames.spans {names : List Token} (h : ReadsNames s names s') :
    Spans s (withCommas (names.map fun name => [.kept name])) s' := by
  induction h with
  | last item _ => exact item.spans_kept
  | more item divides items ih =>
    rw [List.map_cons, withCommas_cons items.map_ne_nil]
    exact item.spans_kept.append (divides.spans_ofKind.append ih)

theorem ReadsParameters.spans {names : List Token} (h : ReadsParameters s names s') :
    Spans s (withCommas (names.map fun name => [.kept name])) s' := by
  cases h with
  | none _ => exact .refl _
  | some _ items => exact items.spans

mutual

theorem ReadsExpr.spans {floor : Power} {s s' : ParseState} {e : Expr} :
    ReadsExpr floor s e s' → Spans s e.spelling s'
  | .nested _ operand operators => by
    obtain ⟨more, he, hm⟩ := operators.spans
    rw [he]
    exact (operand.spans.opened.append hm).leave

theorem ReadsOperand.spans {s s' : ParseState} {e : Expr} :
    ReadsOperand s e s' → Spans s e.spelling s'
  | .literal here isLiteral carries =>
    here.spans_of_fits ⟨here.proper, isLiteral, carries, rfl⟩
  | .read name => name.spans_kept.numbered
  | .selfRef keyword => keyword.spans_kept.numbered
  | .superMethod keyword dot name =>
    (keyword.spans_kept.append (dot.spans_ofKind.append name.spans_kept)).numbered
  | .unary operator _ holds => operator.spans_kept.append holds.spans
  | .grouping opens holds closes =>
    opens.spans_ofKind.append (holds.spans.append closes.spans_ofKind)

theorem ReadsOperators.spans {floor : Power} {left whole : Expr} {s s' : ParseState} :
    ReadsOperators floor left s whole s' →
      ∃ more, whole.spelling = left.spelling ++ more ∧ Spans s more s'
  | .stop _ => ⟨[], by simp, .refl _⟩
  | .step _ one others => by
    obtain ⟨sign, first, hf, hs⟩ := one.spans
    obtain ⟨more, hm, hs'⟩ := others.spans
    exact ⟨sign :: first ++ more, by rw [hm, hf, List.append_assoc], hs.append hs'⟩

theorem ReadsOperator.spans {power : Power} {left whole : Expr} {s s' : ParseState} :
    ReadsOperator power left s whole s' →
      ∃ sign more, whole.spelling = left.spelling ++ sign :: more ∧ Spans s (sign :: more) s'
  | .assign operator holds =>
    ⟨_, _, by simp [Expr.spelling], (operator.spans_ofKind.append holds.spans).numbered⟩
  | .set operator holds =>
    ⟨_, _, by simp [Expr.spelling], operator.spans_ofKind.append holds.spans⟩
  | .conditional asks holds divides otherwise =>
    ⟨_, _, rfl, asks.spans_ofKind.append
      (holds.spans.append (divides.spans_ofKind.append otherwise.spans))⟩
  | .binary operator _ holds => ⟨_, _, rfl, operator.spans_kept.append holds.spans⟩
  | .call opens holds closes =>
    ⟨_, _, rfl, opens.spans_ofKind.append (holds.spans.append closes.spans_ofKind)⟩
  | .member dot property => ⟨_, _, rfl, dot.spans_ofKind.append property.spans_kept⟩

theorem ReadsArguments.spans {s s' : ParseState} {arguments : List Expr} :
    ReadsArguments s arguments s' → Spans s (withCommas (Expr.spellings arguments)) s'
  | .none _ => .refl _
  | .some _ items => items.spans

theorem ReadsItems.spans {s s' : ParseState} {arguments : List Expr} :
    ReadsItems s arguments s' → Spans s (withCommas (Expr.spellings arguments)) s'
  | .last item _ => item.spans
  | .more item divides items => by
    rw [Expr.spellings, withCommas_cons items.spellings_ne_nil]
    exact item.spans.append (divides.spans_ofKind.append items.spans)

end

theorem ReadsAfter.spans {kind : Kind} {value : Option Expr}
    (h : ReadsAfter kind (ReadsExpr .lowest) s value s') : Spans s (afterMark kind value) s' := by
  cases h with
  | absent _ => exact .refl _
  | present mark follows => exact mark.spans_ofKind.append follows.spans

theorem ReadsUnless.spans {kind : Kind} {value : Option Expr}
    (h : ReadsUnless kind (ReadsExpr .lowest) s value s') :
    Spans s (Expr.spelling? value) s' := by
  cases h with
  | absent _ => exact .refl _
  | present _ stands => exact stands.spans

theorem ReadsEvaluated.spans {answer : Expr × Span} (h : ReadsEvaluated s answer s') :
    Spans s (answer.1.spelling ++ [.ofKind .semicolon]) s' := by
  cases h with
  | intro holds ends => exact holds.spans.append ends.spans_ofKind

theorem ReadsHead.spans {e : Expr} (h : ReadsHead s e s') : Spans s (headSpelling e) s' := by
  cases h with
  | intro opens holds closes =>
    exact opens.spans_ofKind.append (holds.spans.append closes.spans_ofKind)

theorem ReadsLet.spans {declaration : LetDecl} (h : ReadsLet s declaration s') :
    Spans s declaration.spelling s' := by
  cases h with
  | intro keyword declares initial ends =>
    exact keyword.spans_ofKind.append
      (declares.spans_kept.append (initial.spans.append ends.spans_ofKind))

theorem ReadsStart.spans {start : Option ForStart} (h : ReadsStart s start s') :
    Spans s (ForStart.spelling start) s' := by
  cases h with
  | none ends => exact ends.spans_ofKind
  | declare declares => exact declares.spans
  | evaluate _ evaluates => exact evaluates.spans

theorem ReadsArm.spans {value : Option Expr} (h : ReadsArm s value s') :
    Spans s (armSpelling value) s' := by
  cases h with
  | default keyword ends => exact keyword.spans_ofKind.append ends.spans_ofKind
  | value keyword holds ends =>
    exact keyword.spans_ofKind.append (holds.spans.append ends.spans_ofKind)

theorem ReadsAfter.spans_superclass {parent : Option Reference}
    (h : ReadsAfter .less ReadsSuperclass s parent s') :
    Spans s (superclassSpelling parent) s' := by
  cases h with
  | absent _ => exact .refl _
  | present mark follows =>
    obtain ⟨name⟩ := follows
    exact mark.spans_ofKind.append name.spans_kept.numbered

mutual

theorem ReadsStmt.spans {s s' : ParseState} {stmt : Stmt} :
    ReadsStmt s stmt s' → Spans s stmt.spelling s'
  | .nested _ form => form.spans.opened.leave

theorem ReadsForm.spans {s s' : ParseState} {stmt : Stmt} :
    ReadsForm s stmt s' → Spans s stmt.spelling s'
  | .block holds => holds.spans
  | .letDecl declares => declares.spans
  | .expression _ evaluates => evaluates.spans
  | .print keyword holds ends =>
    keyword.spans_ofKind.append (holds.spans.append ends.spans_ofKind)
  | .ifThen keyword head body _ => keyword.spans_ofKind.append (head.spans.append body.spans)
  | .ifElse keyword head body divides other =>
    keyword.spans_ofKind.append
      (head.spans.append (body.spans.append (divides.spans_ofKind.append other.spans)))
  | .whileLoop keyword head holds => keyword.spans_ofKind.append (head.spans.append holds.spans)
  | .doWhile keyword holds divides head ends =>
    keyword.spans_ofKind.append
      (holds.spans.append (divides.spans_ofKind.append (head.spans.append ends.spans_ofKind)))
  | .forLoop keyword opens first test divides step closes holds =>
    keyword.spans_ofKind.append (opens.spans_ofKind.append (first.spans.append
      (test.spans.append (divides.spans_ofKind.append (step.spans.append
        (closes.spans_ofKind.append holds.spans))))))
  | .switch keyword head opens holds closes =>
    keyword.spans_ofKind.append (head.spans.append
      (opens.spans_ofKind.append (holds.spans.append closes.spans_ofKind)))
  | .breakLoop keyword ends => keyword.spans_kept.append ends.spans_ofKind
  | .continueLoop keyword ends => keyword.spans_kept.append ends.spans_ofKind
  | .returnValue keyword result ends =>
    keyword.spans_kept.append (result.spans.append ends.spans_ofKind)
  | .function keyword declares => keyword.spans_ofKind.append declares.spans
  | .classDecl keyword declares inherits opens holds closes =>
    keyword.spans_ofKind.append (declares.spans_kept.append (inherits.spans_superclass.append
      (opens.spans_ofKind.append (holds.spans.append closes.spans_ofKind))))

theorem ReadsBlock.spans {s s' : ParseState} {body : List Stmt} {span : Span} :
    ReadsBlock s body span s' →
      Spans s (.ofKind .openCurly :: (Stmt.spellings body ++ [.ofKind .closeCurly])) s'
  | .intro opens holds closes =>
    opens.spans_ofKind.append (holds.spans.append closes.spans_ofKind)

theorem ReadsStmts.spans {stop : Kind → Bool} {s s' : ParseState} {list : List Stmt} :
    ReadsStmts stop s list s' → Spans s (Stmt.spellings list) s'
  | .nil _ => .refl _
  | .cons _ first others => first.spans.append others.spans

theorem ReadsCases.spans {s s' : ParseState} {arms : List Case} :
    ReadsCases s arms s' → Spans s (Case.spellings arms) s'
  | .nil _ => .refl _
  | .cons _ arm holds others => arm.spans.append (holds.spans.append others.spans)

theorem ReadsFunction.spans {start : Position} {s s' : ParseState} {declaration : Function} :
    ReadsFunction start s declaration s' → Spans s declaration.spelling s'
  | .intro declares opens names closes holds => by
    have hsignature := declares.spans_kept.append
      (opens.spans_ofKind.append (names.spans.append closes.spans_ofKind))
    exact hsignature.append holds.spans

theorem ReadsMethods.spans {s s' : ParseState} {methods : List Function} :
    ReadsMethods s methods s' → Spans s (Function.spellings methods) s'
  | .nil _ => .refl _
  | .cons _ first others => first.spans.append others.spans

end

end LexicalScoping
