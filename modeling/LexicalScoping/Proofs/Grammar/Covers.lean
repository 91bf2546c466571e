import LexicalScoping.Proofs.Grammar.Nodes
import LexicalScoping.Proofs.Grammar.Sound

/-!
# Every node covers its own tokens

The stretch that a node keeps starts where the first token of its spelling starts and ends where the
last one ends. `Covers` says this of all nodes that are read between two states of the parser; it
composes along the parts of a node, and a whole node only adds its own stretch. The ways to find a
stretch agree because a state knows where the current token starts and where the last one ended. An
operator that turns its left operand into something else keeps the parts of that operand.
-/
namespace LexicalScoping

/-- The stretch starts where the first of the tokens starts and ends where the last one ends. -/
def Span.Covers (span : Span) (own : List Token) : Prop :=
  ∃ first last, own.head? = some first ∧ own.getLast? = some last ∧
    span = ⟨first.span.start, last.span.stop⟩

/-- The tokens of a node that stands at the place. -/
def Node.ownTokens (node : Node) (tokens : List Token) (i : Nat) : List Token :=
  (tokens.drop i).take node.spelling.length

/-- If a row starts at the place, the nodes in it cover their own tokens, and so do those inside
them. -/
inductive Covered (tokens : List Token) : Nat → List Part → Prop
  | nil (i : Nat) : Covered tokens i []
  | sign {i : Nat} {own : Sign} {rest : List Part} (behind : Covered tokens (i + 1) rest) :
    Covered tokens i (.sign own :: rest)
  | node {i : Nat} {inner : Node} {rest : List Part}
    (covers : ∀ span ∈ inner.span?, span.Covers (inner.ownTokens tokens i))
    (inside : Covered tokens i inner.parts)
    (behind : Covered tokens (i + inner.spelling.length) rest) :
    Covered tokens i (.node inner :: rest)

theorem covered_append {tokens : List Token} {i : Nat} {front back : List Part} :
    Covered tokens i (front ++ back) ↔
      Covered tokens i front ∧ Covered tokens (i + (Part.spellings front).length) back := by
  induction front generalizing i with
  | nil => exact ⟨fun h => ⟨.nil i, h⟩, fun h => h.2⟩
  | cons part front ih =>
    cases part with
    | sign own =>
      rw [Part.spellings_sign, List.length_cons, Nat.add_comm _ 1, ← Nat.add_assoc]
      constructor
      · rintro (_ | ⟨behind⟩ | _)
        exact ⟨.sign (ih.1 behind).1, (ih.1 behind).2⟩
      · rintro ⟨_ | ⟨behind⟩ | _, hback⟩
        exact .sign (ih.2 ⟨behind, hback⟩)
    | node inner =>
      rw [Part.spellings_node, List.length_append, ← Nat.add_assoc]
      constructor
      · rintro (_ | _ | ⟨covers, inside, behind⟩)
        exact ⟨.node covers inside (ih.1 behind).1, (ih.1 behind).2⟩
      · rintro ⟨_ | _ | ⟨covers, inside, behind⟩, hback⟩
        exact .node covers inside (ih.2 ⟨behind, hback⟩)

theorem covered_map_sign (tokens : List Token) (i : Nat) (signs : List Sign) :
    Covered tokens i (signs.map .sign) := by
  induction signs generalizing i with
  | nil => exact .nil i
  | cons own signs ih => exact .sign (ih (i + 1))

namespace ParseState.At

variable {s s' : ParseState} {tokens : List Token} {i : Nat}

/-- Behind a token, a state knows where that token ended. -/
theorem lastEnd_eq (h : s.At tokens (i + 1)) :
    ∃ last, tokens[i]? = some last ∧ s.lastEnd = last.span.stop := by
  have hi : i < tokens.length := Nat.lt_of_succ_lt h.lt_length
  have hlast : tokens[i]? = some tokens[i] := List.getElem?_eq_getElem hi
  have hbefore : s.before = tokens[i] :: (tokens.take i).reverse := by
    rw [h.before, List.take_add_one, hlast]
    simp
  exact ⟨tokens[i], hlast, by rw [lastEnd, hbefore]⟩

/-- Only one stretch covers the tokens between two states. -/
theorem covers_iff {node : Node} {span : Span} (h : s.At tokens i)
    (h' : s'.At tokens (i + node.spelling.length)) :
    span.Covers (node.ownTokens tokens i) ↔ span = ⟨s.current.span.start, s'.lastEnd⟩ := by
  obtain ⟨n, hn⟩ : ∃ n, node.spelling.length = n + 1 :=
    Nat.exists_eq_add_one.2 (List.length_pos_iff.2 node.spelling_ne_nil)
  rw [hn, ← Nat.add_assoc] at h'
  obtain ⟨last, hlast, hend⟩ := h'.lastEnd_eq
  have hhead : (node.ownTokens tokens i).head? = some s.current := by
    rw [Node.ownTokens, hn, List.head?_take, if_neg (Nat.succ_ne_zero n), List.head?_drop,
      h.getElem?]
  have hgetLast : (node.ownTokens tokens i).getLast? = some last := by
    rw [Node.ownTokens, hn, List.getLast?_take, if_neg (Nat.succ_ne_zero n), Nat.add_sub_cancel,
      List.getElem?_drop, hlast]
    rfl
  simp [Span.Covers, hhead, hgetLast, hend]

end ParseState.At

/-- What lies between the two states is spelled by the parts, and the nodes among them and inside
them cover their own tokens. -/
structure Covers (s : ParseState) (parts : List Part) (s' : ParseState) : Prop where
  spans : Spans s (Part.spellings parts) s'
  covered : ∀ tokens i, s.At tokens i → Covered tokens i parts

namespace Covers

variable {s s₁ s₂ : ParseState} {front back row : List Part}

theorem refl (s : ParseState) : Covers s [] s := ⟨.refl s, fun _ i _ => .nil i⟩

theorem append (h₁ : Covers s front s₁) (h₂ : Covers s₁ back s₂) : Covers s (front ++ back) s₂ where
  spans := by
    rw [Part.spellings_append]
    exact h₁.spans.append h₂.spans
  covered := fun tokens i hat => covered_append.2
    ⟨h₁.covered tokens i hat, h₂.covered tokens _ (h₁.spans tokens i hat).1⟩

theorem opened (h : Covers s.opened row s₁) : Covers s row s₁ :=
  ⟨h.spans.opened, fun tokens i hat => h.covered tokens i hat.opened⟩

theorem numbered (h : Covers s row s₁) : Covers s row s₁.numbered :=
  ⟨h.spans.numbered, h.covered⟩

theorem leave (h : Covers s row s₁) : Covers s row (Parse.leave s₁) := ⟨h.spans.leave, h.covered⟩

section Node

variable {whole : Node}

/-- A node is read with its parts, if it keeps the stretch between the states. -/
theorem node (h : Covers s whole.parts s₁)
    (hspan : ∀ span ∈ whole.span?, span = ⟨s.current.span.start, s₁.lastEnd⟩) :
    Covers s [.node whole] s₁ := by
  have hspans : Spans s whole.spelling s₁ := whole.spellings_parts ▸ h.spans
  refine ⟨by simpa using hspans, fun tokens i hat => ?_⟩
  exact .node (fun span hmem => (hat.covers_iff (hspans tokens i hat).1).2 (hspan span hmem))
    (h.covered tokens i hat) (.nil _)

theorem spelling (h : Covers s [.node whole] s₁) : Spans s whole.spelling s₁ := by
  simpa using h.spans

/-- The parts of a node that has been read are read with it. -/
theorem parts (h : Covers s [.node whole] s₁) : Covers s whole.parts s₁ := by
  refine ⟨whole.spellings_parts ▸ h.spelling, fun tokens i hat => ?_⟩
  obtain _ | _ | ⟨-, inside, -⟩ := h.covered tokens i hat
  exact inside

/-- A node that has been read keeps the stretch between the states. -/
theorem span_eq (h : Covers s [.node whole] s₁) :
    ∀ span ∈ whole.span?, span = ⟨s.current.span.start, s₁.lastEnd⟩ := by
  obtain ⟨tokens, i, hat⟩ := s.exists_at
  obtain _ | _ | ⟨hcovers, -, -⟩ := h.covered tokens i hat
  exact fun span hmem => (hat.covers_iff (h.spelling tokens i hat).1).1 (hcovers span hmem)

/-- A node whose stretch runs from the current token to the last one that was read. -/
theorem spanning {start : Position} (h : Covers s whole.parts s₁)
    (hspan : whole.span? = some ⟨start, s₁.lastEnd⟩) (hstart : start = s.current.span.start) :
    Covers s [.node whole] s₁ :=
  h.node fun span hmem => by
    rw [hspan, hstart] at hmem
    exact (Option.some.inj hmem).symm

/-- A node that keeps no stretch. -/
theorem bare (h : Covers s whole.parts s₁) (hspan : whole.span? = none) :
    Covers s [.node whole] s₁ :=
  h.node fun span hmem => by simp [hspan] at hmem

end Node

variable {e : Expr}

theorem expression (h : Covers s e.parts s₁) (hstart : e.span.start = s.current.span.start)
    (hstop : e.span.stop = s₁.lastEnd) : Covers s [.node (.expression e)] s₁ :=
  Covers.node h fun span hmem => by
    rw [← Option.some.inj hmem, ← hstart, ← hstop]

theorem start_eq (h : Covers s [.node (.expression e)] s₁) :
    e.span.start = s.current.span.start := by
  rw [h.span_eq e.span rfl]

theorem stop_eq (h : Covers s [.node (.expression e)] s₁) : e.span.stop = s₁.lastEnd := by
  rw [h.span_eq e.span rfl]

end Covers

/-- Signs alone are no nodes. -/
theorem Spans.covers {s s' : ParseState} {signs : List Sign} (h : Spans s signs s') :
    Covers s (signs.map .sign) s' :=
  ⟨by rwa [Part.spellings_map_sign], fun tokens i _ => covered_map_sign tokens i signs⟩

namespace Takes

variable {kind : Kind} {s s' : ParseState} {token : Token}

theorem covers_kept (h : Takes kind s token s') : Covers s [.sign (.kept token)] s' :=
  h.spans_kept.covers

theorem covers_ofKind (h : Takes kind s token s') : Covers s [.sign (.ofKind kind)] s' :=
  h.spans_ofKind.covers

theorem start_eq (h : Takes kind s token s') : token.span.start = s.current.span.start := by
  rw [h.current]

theorem stop_eq (h : Takes kind s token s') : token.span.stop = s'.lastEnd := by
  obtain ⟨next, rest, hafter⟩ := List.exists_cons_of_ne_nil h.more
  rw [h.next, ← h.current, ParseState.advance, hafter]
  rfl

end Takes

theorem Expr.row_cons {e : Expr} {rest : List Expr} (h : rest ≠ []) :
    Expr.row (e :: rest) = .node (.expression e) :: .sign (.ofKind .comma) :: Expr.row rest := by
  cases rest with
  | nil => contradiction
  | cons next rest => rfl

theorem ReadsItems.ne_nil {s s' : ParseState} {arguments : List Expr}
    (h : ReadsItems s arguments s') : arguments ≠ [] := by
  cases h <;> simp

mutual

/-- An expression that is read covers its own tokens, and so does every node inside it. -/
theorem ReadsExpr.covers {floor : Power} {s s' : ParseState} {e : Expr} :
    ReadsExpr floor s e s' → Covers s [.node (.expression e)] s'
  | .nested _ operand operators => (operators.covers operand.covers.opened).leave

theorem ReadsOperand.covers {s s' : ParseState} {e : Expr} :
    ReadsOperand s e s' → Covers s [.node (.expression e)] s'
  | .literal here isLiteral carries =>
    have hfits : Sign.Fits (.literal _ _) _ := ⟨here.proper, isLiteral, carries, rfl⟩
    .expression (here.spans_of_fits hfits).covers here.start_eq here.stop_eq
  | .read name => .numbered (.expression name.covers_kept name.start_eq name.stop_eq)
  | .selfRef keyword =>
    .numbered (.expression keyword.covers_kept keyword.start_eq keyword.stop_eq)
  | .superMethod keyword dot name =>
    .numbered (.expression
      (keyword.covers_kept.append (dot.covers_ofKind.append name.covers_kept))
      keyword.start_eq name.stop_eq)
  | .unary operator _ holds =>
    .expression (operator.covers_kept.append holds.covers) operator.start_eq holds.covers.stop_eq
  | .grouping opens holds closes =>
    .expression (opens.covers_ofKind.append (holds.covers.append closes.covers_ofKind))
      opens.start_eq rfl

/-- Operators make a larger node of one that was read before them, from the same state on. -/
theorem ReadsOperators.covers {floor : Power} {left whole : Expr} {s₀ s s' : ParseState} :
    ReadsOperators floor left s whole s' → Covers s₀ [.node (.expression left)] s →
      Covers s₀ [.node (.expression whole)] s'
  | .stop _, hleft => hleft
  | .step _ one others, hleft => others.covers (one.covers hleft)

/-- The two assignments take their targets apart again, and keep the parts. -/
theorem ReadsOperator.covers {power : Power} {left whole : Expr} {s₀ s s' : ParseState} :
    ReadsOperator power left s whole s' → Covers s₀ [.node (.expression left)] s →
      Covers s₀ [.node (.expression whole)] s'
  | .assign operator holds, hleft =>
    .numbered (.expression (hleft.parts.append (operator.covers_ofKind.append holds.covers))
      hleft.start_eq holds.covers.stop_eq)
  | .set operator holds, hleft =>
    .expression (hleft.parts.append (operator.covers_ofKind.append holds.covers))
      hleft.start_eq holds.covers.stop_eq
  | .conditional asks holds divides otherwise, hleft =>
    .expression (hleft.append (asks.covers_ofKind.append
      (holds.covers.append (divides.covers_ofKind.append otherwise.covers))))
      hleft.start_eq otherwise.covers.stop_eq
  | .binary operator _ holds, hleft =>
    .expression (hleft.append (operator.covers_kept.append holds.covers))
      hleft.start_eq holds.covers.stop_eq
  | .call opens holds closes, hleft =>
    .expression (hleft.append (opens.covers_ofKind.append
      (holds.covers.append closes.covers_ofKind))) hleft.start_eq rfl
  | .member dot property, hleft =>
    .expression (hleft.append (dot.covers_ofKind.append property.covers_kept))
      hleft.start_eq property.stop_eq

theorem ReadsArguments.covers {s s' : ParseState} {arguments : List Expr} :
    ReadsArguments s arguments s' → Covers s (Expr.row arguments) s'
  | .none _ => .refl _
  | .some _ items => items.covers

theorem ReadsItems.covers {s s' : ParseState} {arguments : List Expr} :
    ReadsItems s arguments s' → Covers s (Expr.row arguments) s'
  | .last item _ => item.covers
  | .more item divides items => by
    rw [Expr.row_cons items.ne_nil]
    exact item.covers.append (divides.covers_ofKind.append items.covers)

end

section Parts

variable {s s' : ParseState}

theorem ReadsAfter.covers {kind : Kind} {value : Option Expr}
    (h : ReadsAfter kind (ReadsExpr .lowest) s value s') : Covers s (partsAfter kind value) s' := by
  cases h with
  | absent _ => exact .refl _
  | present mark follows => exact mark.covers_ofKind.append follows.covers

theorem ReadsUnless.covers {kind : Kind} {value : Option Expr}
    (h : ReadsUnless kind (ReadsExpr .lowest) s value s') : Covers s (Expr.parts? value) s' := by
  cases h with
  | absent _ => exact .refl _
  | present _ stands => exact stands.covers

theorem ReadsEvaluated.covers {e : Expr} {span : Span} (h : ReadsEvaluated s (e, span) s') :
    Covers s [.node (.expression e), .sign (.ofKind .semicolon)] s' := by
  cases h with
  | intro holds ends => exact holds.covers.append ends.covers_ofKind

theorem ReadsEvaluated.span_eq {e : Expr} {span : Span} (h : ReadsEvaluated s (e, span) s') :
    span = ⟨s.current.span.start, s'.lastEnd⟩ := by
  cases h with
  | intro holds ends => rfl

theorem ReadsHead.covers {e : Expr} (h : ReadsHead s e s') : Covers s (headParts e) s' := by
  cases h with
  | intro opens holds closes =>
    exact opens.covers_ofKind.append (holds.covers.append closes.covers_ofKind)

theorem ReadsLet.covers {declaration : LetDecl} (h : ReadsLet s declaration s') :
    Covers s declaration.parts s' := by
  cases h with
  | intro keyword declares initial ends =>
    exact keyword.covers_ofKind.append
      (declares.covers_kept.append (initial.covers.append ends.covers_ofKind))

theorem ReadsLet.span_eq {declaration : LetDecl} (h : ReadsLet s declaration s') :
    declaration.span = ⟨s.current.span.start, s'.lastEnd⟩ := by
  cases h with
  | intro keyword declares initial ends => rw [keyword.start_eq]

theorem ReadsStart.covers {start : Option ForStart} (h : ReadsStart s start s') :
    Covers s (ForStart.parts? start) s' := by
  cases h with
  | none ends => exact ends.covers_ofKind
  | declare declares =>
    exact Covers.spanning declares.covers (congrArg some declares.span_eq) rfl
  | evaluate _ evaluates =>
    exact Covers.spanning evaluates.covers (congrArg some evaluates.span_eq) rfl

theorem ReadsArm.covers {value : Option Expr} (h : ReadsArm s value s') :
    Covers s (armParts value) s' := by
  cases h with
  | default keyword ends => exact keyword.covers_ofKind.append ends.covers_ofKind
  | value keyword holds ends =>
    exact keyword.covers_ofKind.append (holds.covers.append ends.covers_ofKind)

theorem ReadsBlock.span_eq {body : List Stmt} {span : Span} (h : ReadsBlock s body span s') :
    span = ⟨s.current.span.start, s'.lastEnd⟩ := by
  cases h with
  | intro opens holds closes => rw [opens.start_eq]

theorem ReadsFunction.span_eq {start : Position} {declaration : Function}
    (h : ReadsFunction start s declaration s') : declaration.span = ⟨start, s'.lastEnd⟩ := by
  cases h with
  | intro declares opens names closes holds => rfl

end Parts

mutual

/-- A statement that is read covers its own tokens, and so does every node inside it. -/
theorem ReadsStmt.covers {s s' : ParseState} {stmt : Stmt} :
    ReadsStmt s stmt s' → Covers s [.node (.statement stmt)] s'
  | .nested _ form => form.covers.opened.leave

theorem ReadsForm.covers {s s' : ParseState} {stmt : Stmt} :
    ReadsForm s stmt s' → Covers s [.node (.statement stmt)] s'
  | .block holds => .spanning holds.covers (congrArg some holds.span_eq) rfl
  | .letDecl declares => .spanning declares.covers (congrArg some declares.span_eq) rfl
  | .expression _ evaluates => .spanning evaluates.covers (congrArg some evaluates.span_eq) rfl
  | .print keyword holds ends =>
    .spanning (keyword.covers_ofKind.append (holds.covers.append ends.covers_ofKind))
      rfl keyword.start_eq
  | .ifThen keyword head body _ =>
    .spanning (keyword.covers_ofKind.append (head.covers.append body.covers)) rfl keyword.start_eq
  | .ifElse keyword head body divides other =>
    .spanning (keyword.covers_ofKind.append (head.covers.append
      (body.covers.append (divides.covers_ofKind.append other.covers)))) rfl keyword.start_eq
  | .whileLoop keyword head holds =>
    .spanning (keyword.covers_ofKind.append (head.covers.append holds.covers)) rfl keyword.start_eq
  | .doWhile keyword holds divides head ends =>
    .spanning (keyword.covers_ofKind.append (holds.covers.append
      (divides.covers_ofKind.append (head.covers.append ends.covers_ofKind)))) rfl keyword.start_eq
  | .forLoop keyword opens first test divides step closes holds =>
    .spanning (keyword.covers_ofKind.append (opens.covers_ofKind.append (first.covers.append
      (test.covers.append (divides.covers_ofKind.append (step.covers.append
        (closes.covers_ofKind.append holds.covers))))))) rfl keyword.start_eq
  | .switch keyword head opens holds closes =>
    .spanning (keyword.covers_ofKind.append (head.covers.append (opens.covers_ofKind.append
      (holds.covers.append closes.covers_ofKind)))) rfl keyword.start_eq
  | .breakLoop keyword ends => .bare (keyword.covers_kept.append ends.covers_ofKind) rfl
  | .continueLoop keyword ends => .bare (keyword.covers_kept.append ends.covers_ofKind) rfl
  | .returnValue keyword result ends =>
    .spanning (keyword.covers_kept.append (result.covers.append ends.covers_ofKind))
      rfl keyword.start_eq
  | .function keyword declares =>
    .spanning (keyword.covers_ofKind.append declares.covers) (congrArg some declares.span_eq)
      keyword.start_eq
  | .classDecl keyword declares inherits opens holds closes =>
    .spanning (keyword.covers_ofKind.append (declares.covers_kept.append
      (inherits.spans_superclass.covers.append (opens.covers_ofKind.append
        (holds.covers.append closes.covers_ofKind))))) rfl keyword.start_eq

theorem ReadsBlock.covers {s s' : ParseState} {body : List Stmt} {span : Span} :
    ReadsBlock s body span s' →
      Covers s (.sign (.ofKind .openCurly) :: (Stmt.row body ++ [.sign (.ofKind .closeCurly)])) s'
  | .intro opens holds closes =>
    opens.covers_ofKind.append (holds.covers.append closes.covers_ofKind)

theorem ReadsStmts.covers {stop : Kind → Bool} {s s' : ParseState} {list : List Stmt} :
    ReadsStmts stop s list s' → Covers s (Stmt.row list) s'
  | .nil _ => .refl _
  | .cons _ first others => first.covers.append others.covers

theorem ReadsCases.covers {s s' : ParseState} {arms : List Case} :
    ReadsCases s arms s' → Covers s (Case.row arms) s'
  | .nil _ => .refl _
  | .cons _ arm holds others =>
    have hfirst : Covers _ [.node (.arm (.mk _ _ _))] _ :=
      .spanning (arm.covers.append holds.covers) rfl rfl
    hfirst.append others.covers

theorem ReadsFunction.covers {start : Position} {s s' : ParseState} {declaration : Function} :
    ReadsFunction start s declaration s' → Covers s declaration.parts s'
  | .intro declares opens names closes holds => by
    have hsignature := (declares.spans_kept.append
      (opens.spans_ofKind.append (names.spans.append closes.spans_ofKind))).covers
    exact hsignature.append holds.covers

theorem ReadsMethods.covers {s s' : ParseState} {methods : List Function} :
    ReadsMethods s methods s' → Covers s (Function.row methods) s'
  | .nil _ => .refl _
  | .cons _ first others =>
    have hfirst : Covers _ [.node (.method _)] _ :=
      .spanning first.covers (congrArg some first.span_eq) rfl
    hfirst.append others.covers

end

end LexicalScoping
