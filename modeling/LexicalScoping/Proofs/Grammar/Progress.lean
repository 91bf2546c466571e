import LexicalScoping.Proofs.Grammar.Sound
import LexicalScoping.Proofs.Grammar.SteadyRules

/-!
# The parser ends, and leaves its state in order

The parser carries two things that it does not need: a bound on levels, and a test in each loop that
something has been read. No more levels are opened than may be open, so what comes after the bound
is never run (`expressionWithin_agree`, `statementWithin_agree`); and every item of a loop reads a
token, so the loops end without the test (`Repeats` and the relations after it describe the loops as
they are without it). Every call goes forward and closes what it opens, also when it fails. Only the
counter of numbers is bounded for good: a call that gives out more than are left in it brings it
back.
-/
namespace LexicalScoping

namespace ParseState

/-- Between the states there are tokens, and none of them is the end of input. -/
structure Consumes (s s' : ParseState) : Prop where
  position : s.position < s'.position
  proper : ∀ token ∈ (s.tokens.drop s.position).take (s'.position - s.position),
    token.kind ≠ .endOfInput

theorem At.position_eq {s : ParseState} {tokens : List Token} {i : Nat} (h : s.At tokens i) :
    s.position = i := by
  have hlt := h.lt_length
  rw [position, h.before, List.length_reverse, List.length_take]
  omega

/-- What lies between the two states is spelled by a tree, so there are tokens between them. -/
theorem Consumes.of_spans {s s' : ParseState} {signs : List Sign} (h : Spans s signs s')
    (hn : signs ≠ []) : s.Consumes s' := by
  obtain ⟨hat, hspelt⟩ := h s.tokens s.position s.at_position
  have hposition := hat.position_eq
  have hpos := List.length_pos_iff.2 hn
  refine ⟨by omega, ?_⟩
  rw [hposition, Nat.add_sub_cancel_left]
  exact forall_ne_endOfInput_of_fits hspelt.forall₂

end ParseState

namespace Parse

variable {α : Type}

/-- Someone who is shown every state in which a level has just been opened and may stop the parser
there, with parsers for what comes after the bound on levels. -/
structure Observer where
  stops : ParseState → Option Diagnostic
  expression : ExpressionParser
  statement : Parse Stmt

/-- An observer who lets everything pass. -/
def Observer.silent : Observer :=
  ⟨fun _ => none, Parse.expression .standard, Parse.statement .standard⟩

/-- The observer sees nothing to stop at in the states that a parser of the tokens can come to. -/
def Observer.Accepts (o : Observer) (tokens : List Token) : Prop :=
  ∀ s : ParseState, s.Reachable tokens → o.stops s = none

/-- Shows the state to the observer. -/
def observe (o : Observer) : Parse Unit := fun s =>
  match o.stops s with
  | none => (.ok (), s)
  | some diagnostic => (.error diagnostic, s)

/-- The expression parser under observation. -/
def expressionObserved (o : Observer) : Nat → ExpressionParser
  | 0, floor => o.expression floor
  | levels + 1, floor => nested do
    observe o
    let left ← operand .standard (expressionObserved o levels)
    operators .standard (expressionObserved o levels) floor left

/-- The statement parser under observation. -/
def statementObserved (o : Observer) : Nat → Parse Stmt
  | 0 => o.statement
  | levels + 1 => nested do
    observe o
    let rule := (Rules.standard.statement (← peek).kind).getD .expression
    rule.parse (expressionObserved o levels .lowest) (statementObserved o levels)

section Levels

variable {tokens : List Token} {o : Observer} (ho : o.Accepts tokens)

/-- More levels than may be open are not open in any state, so there every parser agrees. -/
theorem Agree.of_maxNesting_lt {depth : Nat} (h : maxNesting < depth) (p q : Parse α) :
    Agree tokens depth p q := by
  intro s hs hdepth
  have hle := hs.depth_le
  omega

include ho

/-- An observer who accepts goes unnoticed. -/
theorem Agree.observed {depth : Nat} {p q : Parse α} (h : Agree tokens depth p q) :
    Agree tokens depth p (observe o >>= fun _ => q) := by
  intro s hs hdepth
  have hseen : observe o s = (.ok (), s) := by rw [observe, ho s hs]
  rw [bind_apply, hseen]
  exact h s hs hdepth

theorem expressionWithin_agree (levels : Nat) {depth : Nat} (hlevels : maxNesting < levels + depth)
    (floor : Power) :
    Agree tokens depth (expressionWithin .standard levels floor)
      (expressionObserved o levels floor) := by
  induction levels generalizing depth floor with
  | zero => exact .of_maxNesting_lt (by omega) _ _
  | succ levels ih =>
    have hinner : ∀ floor, Agree tokens (depth + 1) (expressionWithin .standard levels floor)
        (expressionObserved o levels floor) := ih (by omega)
    exact .nested (.observed ho ((operand_agree hinner .standard).bind fun left =>
      operators_agree hinner .standard floor left))

theorem statementWithin_agree (levels : Nat) {depth : Nat}
    (hlevels : maxNesting < levels + depth) :
    Agree tokens depth (statementWithin .standard levels) (statementObserved o levels) := by
  induction levels generalizing depth with
  | zero => exact .of_maxNesting_lt (by omega) _ _
  | succ levels ih =>
    have hinner : Agree tokens (depth + 1) (statementWithin .standard levels)
        (statementObserved o levels) := ih (by omega)
    exact .nested (.observed ho (.bind_peek fun _ =>
      statementRule_agree hinner (expressionWithin_agree ho levels (by omega) .lowest) _))

end Levels

/-- A call of a parser in a state that can be reached, and the same call under observation. -/
structure Steady (tokens : List Token) (s : ParseState) (p : Parse α)
    (observed : Observer → Parse α) : Prop where
  leads : s.Leads (p s).2
  unnoticed : ∀ o : Observer, o.Accepts tokens → observed o s = p s

theorem Steady.of_agree {tokens : List Token} {s : ParseState} (hs : s.Reachable tokens)
    {p : Parse α} {observed : Observer → Parse α}
    (h : ∀ o : Observer, o.Accepts tokens → Agree tokens s.depth p (observed o)) :
    Steady tokens s p observed where
  leads := (h .silent (fun _ _ => rfl) s hs rfl).2.2
  unnoticed o ho := (h o ho s hs rfl).1

/-!
## Loops without their test
-/

/-- The answer with one more value in front. -/
def consAnswer (x : α) (answer : Except Diagnostic (List α) × ParseState) :
    Except Diagnostic (List α) × ParseState := (answer.1.map (x :: ·), answer.2)

/-- Reading items until a kind stops them. -/
inductive Repeats (stop : Kind → Bool) (item : Parse α) :
    ParseState → Except Diagnostic (List α) × ParseState → Prop
  | ends {s : ParseState} (stops : stop s.current.kind) : Repeats stop item s (.ok [], s)
  | fails {s s' : ParseState} {e : Diagnostic} (goes : ¬ stop s.current.kind)
      (one : item s = (.error e, s')) : Repeats stop item s (.error e, s')
  | more {s s' : ParseState} {x : α} {answer : Except Diagnostic (List α) × ParseState}
      (goes : ¬ stop s.current.kind) (one : item s = (.ok x, s'))
      (others : Repeats stop item s' answer) : Repeats stop item s (consAnswer x answer)

/-- Reading items with a comma between any two. -/
inductive RepeatsSeparated (item : Parse α) :
    ParseState → Except Diagnostic (List α) × ParseState → Prop
  | fails {s s' : ParseState} {e : Diagnostic} (one : item s = (.error e, s')) :
      RepeatsSeparated item s (.error e, s')
  | last {s s' : ParseState} {x : α} (one : item s = (.ok x, s'))
      (other : s'.current.kind ≠ .comma) : RepeatsSeparated item s (.ok [x], s')
  | more {s s' : ParseState} {x : α} {answer : Except Diagnostic (List α) × ParseState}
      (one : item s = (.ok x, s')) (comma : s'.current.kind = .comma)
      (others : RepeatsSeparated item s'.advance answer) :
      RepeatsSeparated item s (consAnswer x answer)

/-- Letting operators take what has been read. -/
inductive RepeatsOperators (expression : ExpressionParser) (floor : Power) :
    Expr → ParseState → Except Diagnostic Expr × ParseState → Prop
  | ends {left : Expr} {s : ParseState}
      (loose : ∀ power rule, Rules.standardOperator s.current.kind = some (power, rule) →
        ¬ floor < power) : RepeatsOperators expression floor left s (.ok left, s)
  | fails {left : Expr} {s s' : ParseState} {power : Power} {rule : OperatorRule} {e : Diagnostic}
      (operator : Rules.standardOperator s.current.kind = some (power, rule))
      (tighter : floor < power) (one : rule.parse expression left power s = (.error e, s')) :
      RepeatsOperators expression floor left s (.error e, s')
  | more {left whole : Expr} {s s' : ParseState} {power : Power} {rule : OperatorRule}
      {answer : Except Diagnostic Expr × ParseState}
      (operator : Rules.standardOperator s.current.kind = some (power, rule))
      (tighter : floor < power) (one : rule.parse expression left power s = (.ok whole, s'))
      (others : RepeatsOperators expression floor whole s' answer) :
      RepeatsOperators expression floor left s answer

section Loops

variable {item : Parse α} {R : ParseState → α → ParseState → Prop} (h : Ensures item R)
  (hshort : ∀ s x s', R s x s' → s'.after.length < s.after.length)
include h hshort

/-- With items that read something the test in the loop never fails. -/
theorem manyUntil_repeats (stop : Kind → Bool) {s : ParseState} (hs : s.Closed) :
    Repeats stop item s (manyUntil stop item s) := by
  fun_induction manyUntil stop item s with
  | case1 s hstop => exact .ends hstop
  | case2 s hstop e s₁ hitem => exact .fails hstop hitem
  | case3 s hstop x s₁ hitem hlt e s₂ hrest ih =>
    have hothers := ih (h s hs x s₁ hitem).2
    rw [hrest] at hothers
    exact .more hstop hitem hothers
  | case4 s hstop x s₁ hitem hlt xs s₂ hrest ih =>
    have hothers := ih (h s hs x s₁ hitem).2
    rw [hrest] at hothers
    exact .more hstop hitem hothers
  | case5 s hstop x s₁ hitem hge => exact absurd (hshort _ _ _ (h s hs x s₁ hitem).1) hge

theorem separated_repeats {s : ParseState} (hs : s.Closed) :
    RepeatsSeparated item s (separated item s) := by
  fun_induction separated item s with
  | case1 s e s₁ hitem => exact .fails hitem
  | case2 s x s₁ hitem hcomma hlt e s₂ hrest ih =>
    have hothers := ih (h s hs x s₁ hitem).2.advance
    rw [hrest] at hothers
    exact .more hitem hcomma hothers
  | case3 s x s₁ hitem hcomma hlt xs s₂ hrest ih =>
    have hothers := ih (h s hs x s₁ hitem).2.advance
    rw [hrest] at hothers
    exact .more hitem hcomma hothers
  | case4 s x s₁ hitem hcomma hge =>
    have hlt := hshort _ _ _ (h s hs x s₁ hitem).1
    have hle : s₁.advance.after.length ≤ s₁.after.length := by
      unfold ParseState.advance
      split <;> simp [*]
    omega
  | case5 s x s₁ hitem hne => exact .last hitem hne

end Loops

theorem operators_repeats {step : ExpressionParser}
    (hstep : ∀ floor, Ensures (step floor) (ReadsExpr floor)) (floor : Power) (left : Expr)
    {s : ParseState} (hs : s.Closed) :
    RepeatsOperators step floor left s (operators .standard step floor left s) := by
  fun_induction operators .standard step floor left s with
  | case1 left s hnone =>
    refine .ends fun power rule hrule => ?_
    have hnone' : Rules.standardOperator s.current.kind = none := hnone
    rw [hnone'] at hrule
    cases hrule
  | case2 left s power rule hrule htighter e s₁ hone => exact .fails hrule htighter hone
  | case3 left s power rule hrule htighter whole s₁ hone hlt ih =>
    have hnext := (operator_ensures hstep rule left power s hs whole s₁ hone).2
    exact .more hrule htighter hone (ih hnext)
  | case4 left s power rule hrule htighter whole s₁ hone hge =>
    have hreads := (operator_ensures hstep rule left power s hs whole s₁ hone).1 hrule
    exact absurd hreads.length_after_lt hge
  | case5 left s power rule hrule hloose =>
    refine .ends fun power' rule' hrule' => ?_
    have hrule'' : Rules.standardOperator s.current.kind = some (power, rule) := hrule
    rw [hrule''] at hrule'
    cases hrule'
    exact hloose

/-- Every loop of the parser, entered in the state, ends without its test. -/
structure LoopsEnd (s : ParseState) : Prop where
  /-- The statements of a program, of a block and of an arm. -/
  statements (levels : Nat) (stop : Kind → Bool) :
    Repeats stop (statementWithin .standard levels) s
      (manyUntil stop (statementWithin .standard levels) s)
  cases (levels : Nat) (stop : Kind → Bool) :
    Repeats stop
      (case (expressionWithin .standard levels .lowest) (statementWithin .standard levels)) s
      (manyUntil stop
        (case (expressionWithin .standard levels .lowest) (statementWithin .standard levels)) s)
  methods (levels : Nat) (stop : Kind → Bool) :
    Repeats stop (method (statementWithin .standard levels)) s
      (manyUntil stop (method (statementWithin .standard levels)) s)
  arguments (levels : Nat) (floor : Power) :
    RepeatsSeparated (expressionWithin .standard levels floor) s
      (separated (expressionWithin .standard levels floor) s)
  parameters (wanted : String) :
    RepeatsSeparated (expectBut .identifier wanted) s
      (separated (expectBut .identifier wanted) s)
  operators (levels : Nat) (floor : Power) (left : Expr) :
    RepeatsOperators (expressionWithin .standard levels) floor left s
      (operators .standard (expressionWithin .standard levels) floor left s)

theorem LoopsEnd.of_closed {s : ParseState} (hs : s.Closed) : LoopsEnd s where
  statements levels stop :=
    manyUntil_repeats (statementWithin_ensures levels) (fun _ _ _ h => h.length_after_lt) stop hs
  cases levels stop := by
    refine manyUntil_repeats
      (case_ensures (statementWithin_ensures levels) (expressionWithin_ensures levels .lowest))
      ?_ stop hs
    rintro s arm s' ⟨value, s₁, body, rfl, harm, hbody⟩
    exact (harm.spans.append hbody.spans).length_after_lt (by simp [armSpelling_ne_nil])
  methods levels stop :=
    manyUntil_repeats (method_ensures (statementWithin_ensures levels))
      (fun _ _ _ h => h.length_after_lt) stop hs
  arguments levels floor :=
    separated_repeats (expressionWithin_ensures levels floor) (fun _ _ _ h => h.length_after_lt) hs
  parameters wanted :=
    separated_repeats (Ensures.expectBut (by decide) wanted)
      (fun _ _ _ h => h.spans_kept.length_after_lt (List.cons_ne_nil _ _)) hs
  operators levels floor left :=
    operators_repeats (fun floor => expressionWithin_ensures levels floor) floor left hs

/-- In every state that can be reached each call goes forward in the tokens and in the numbers and
leaves as many levels open as it found, whatever it answers. Its counter never decreases either if
there is room in it for the numbers that the call gives out, that is, if it does not go round to
zero. Meanwhile the call opens levels only in states that can be reached, so never more than may be
open, and needs no bound on them. An expression and a statement are made of tokens before the end of
input, at least one. All loops end. -/
theorem steady_of_reachable {tokens : List Token} {s : ParseState} (hs : s.Reachable tokens) :
    (s.tokens = (ParseState.ofTokens tokens).tokens ∧ s.position < s.tokens.length ∧
        s.depth ≤ maxNesting) ∧
      (∀ floor, Steady tokens s (expression .standard floor)
        fun o => expressionObserved o (maxNesting + 1) floor) ∧
      Steady tokens s (statement .standard) (fun o => statementObserved o (maxNesting + 1)) ∧
      Steady tokens s (block (statement .standard))
        (fun o => block (statementObserved o (maxNesting + 1))) ∧
      Steady tokens s (manyUntil (· = .endOfInput) (statement .standard))
        (fun o => manyUntil (· = .endOfInput) (statementObserved o (maxNesting + 1))) ∧
      (ParseState.ofTokens tokens).Leads (Program.run tokens).2 ∧
      (∀ floor e s', expression .standard floor s = (.ok e, s') → s.Consumes s') ∧
      (∀ stmt s', statement .standard s = (.ok stmt, s') → s.Consumes s') ∧
      LoopsEnd s := by
  have hlevels (depth : Nat) : maxNesting < maxNesting + 1 + depth := by omega
  have hexpression (floor : Power) {o : Observer} (ho : o.Accepts tokens) (depth : Nat) :
      Agree tokens depth (expression .standard floor)
        (expressionObserved o (maxNesting + 1) floor) :=
    expressionWithin_agree ho (maxNesting + 1) (hlevels depth) floor
  have hstatement {o : Observer} (ho : o.Accepts tokens) (depth : Nat) :
      Agree tokens depth (statement .standard) (statementObserved o (maxNesting + 1)) :=
    statementWithin_agree ho (maxNesting + 1) (hlevels depth)
  have hprogram {s : ParseState} (hs : s.Reachable tokens) :
      Steady tokens s (manyUntil (· = .endOfInput) (statement .standard))
        (fun o => manyUntil (· = .endOfInput) (statementObserved o (maxNesting + 1))) :=
    .of_agree hs fun o ho => .manyUntil _ (hstatement ho _)
  refine ⟨⟨hs.tokens_eq, s.position_lt_length, hs.depth_le⟩,
    fun floor => .of_agree hs fun o ho => hexpression floor ho _,
    .of_agree hs fun o ho => hstatement ho _,
    .of_agree hs fun o ho => block_agree (hstatement ho _), hprogram hs, (hprogram .start).leads,
    fun floor e s' h => ?_, fun stmt s' h => ?_, .of_closed hs.closed⟩
  · have hreads := (expressionWithin_ensures (maxNesting + 1) floor s hs.closed e s' h).1
    exact .of_spans hreads.spans e.spelling_ne_nil
  · have hreads := (statementWithin_ensures (maxNesting + 1) s hs.closed stmt s' h).1
    exact .of_spans hreads.spans stmt.spelling_ne_nil

/-- The text `{ print a;`, without an end. -/
def unclosedText : List Token :=
  [.bare .openCurly "\x7b", .bare .printWord "print", .bare .identifier "a",
    .bare .semicolon ";"]

/-- Behind the bracket a statement of three tokens is read there. A block is not, and its reading
goes back to no level. It has given out one number, for which the counter has room. -/
theorem steady_unclosedText : ∃ stmt s e s',
    statement .standard (ParseState.ofTokens unclosedText).advance = (.ok stmt, s) ∧
      s.position = 4 ∧ (ParseState.ofTokens unclosedText).advance.Consumes s ∧
      block (statement .standard) (ParseState.ofTokens unclosedText) = (.error e, s') ∧
      s'.position = 4 ∧ (ParseState.ofTokens unclosedText).Leads s' ∧ s'.given = 1 ∧
      (ParseState.ofTokens unclosedText).counter ≤ s'.counter := by
  obtain ⟨stmt, s, e, s', h, hposition, hblock, hposition', hgiven⟩ : ∃ stmt s e s',
      statement .standard (ParseState.ofTokens unclosedText).advance = (.ok stmt, s) ∧
        s.position = 4 ∧
        block (statement .standard) (ParseState.ofTokens unclosedText) = (.error e, s') ∧
        s'.position = 4 ∧ s'.given = 1 := by
    obtain ⟨e, he⟩ :
        ∃ e, (block (statement .standard) (ParseState.ofTokens unclosedText)).1 = .error e :=
      exists_eq_error_of_isNone (by decide +kernel)
    exact ⟨_, _, e, _, Prod.ext (eq_ok_get (by decide +kernel)) rfl, by decide +kernel,
      Prod.ext he rfl, by decide +kernel, by decide +kernel⟩
  have hstart : (ParseState.ofTokens unclosedText).Reachable unclosedText := .start
  obtain ⟨-, -, -, -, -, -, -, hconsumes, -⟩ := steady_of_reachable hstart.advance
  obtain ⟨-, -, -, hsteady, -⟩ := steady_of_reachable hstart
  have hleads := hsteady.leads
  rw [hblock] at hleads
  have hroom : (ParseState.ofTokens unclosedText).counter.toNat +
      (s'.given - (ParseState.ofTokens unclosedText).given) < UInt32.size := by
    rw [hgiven]
    decide
  exact ⟨stmt, s, e, s', h, hposition, hconsumes stmt s h, hblock, hposition', hleads, hgiven,
    hleads.counter hroom⟩

end Parse
end LexicalScoping
