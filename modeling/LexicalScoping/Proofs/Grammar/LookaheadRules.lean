import LexicalScoping.Proofs.Grammar.Lookahead
import LexicalScoping.Proofs.Grammar.AlikeRules
import LexicalScoping.Proofs.Grammar.Faithful
import LexicalScoping.Proofs.Grammar.Progress

/-!
# The parser does not look ahead

Every rule of the grammar is blind to what is behind the token where it stops, provided that the
parsers for its parts are. A rule that reads its first token without asking is only tried on a token
that the grammar lists for it, so never on the end of input. It follows that what the parser answers
is decided by the tokens up to the one where it stands in the end.
-/
namespace LexicalScoping
namespace Parse

variable {s : ParseState}

theorem assignTo_blind (operator : Token) (value : Expr) (span : Span) (left : Expr) :
    Blind (assignTo operator value span left) := by
  cases left with
  | read target => exact Blind.freshId.bind fun _ => .pure _
  | get object name => exact .pure _
  | _ => exact .failOn operator _

theorem superclass_blind : Blind superclass :=
  (Blind.expectBut (by decide) _).bind fun _ => Blind.freshId.bind fun _ => .pure _

section FirstToken

variable (hs : s.Closed) (hk : s.current.kind ≠ .endOfInput)
include hs hk

theorem primary_blind : BlindAt s primary := by
  refine .bind_peek ?_
  split
  iterate 5
    · split
      · exact Blind.failHere _ s hs
      · exact (BlindAt.advance hs hk).bind fun _ => .pure _
  · exact (BlindAt.advance hs hk).bind fun _ => Blind.freshId.bind fun _ => .pure _
  · exact Blind.failHere _ s hs

theorem selfRef_blind : BlindAt s selfRef :=
  (BlindAt.advance hs hk).bind fun _ => Blind.freshId.bind fun _ => .pure _

theorem superMethod_blind : BlindAt s superMethod :=
  (BlindAt.advance hs hk).bind fun _ => (Blind.expectBut (by decide) _).bind fun _ =>
    (Blind.expectBut (by decide) _).bind fun _ => Blind.freshId.bind fun _ => .pure _

theorem member_blind (object : Expr) : BlindAt s (member object) :=
  (BlindAt.advance hs hk).bind fun _ => (Blind.expectBut (by decide) _).bind fun _ => .pure _

theorem breakLoop_blind : BlindAt s breakLoop :=
  (BlindAt.advance hs hk).bind fun _ => (Blind.expect (by decide)).bind fun _ => .pure _

theorem continueLoop_blind : BlindAt s continueLoop :=
  (BlindAt.advance hs hk).bind fun _ => (Blind.expect (by decide)).bind fun _ => .pure _

end FirstToken

section Expressions

variable {step : ExpressionParser} (hstep : ∀ floor, Blind (step floor))
include hstep

section FirstToken

variable (hs : s.Closed) (hk : s.current.kind ≠ .endOfInput)
include hs hk

theorem unary_blind : BlindAt s (unary step) :=
  (BlindAt.advance hs hk).bind fun _ => (hstep _).bind fun _ => .pure _

theorem grouping_blind : BlindAt s (grouping step) :=
  (BlindAt.advance hs hk).bind fun _ => (hstep _).bind fun _ =>
    (Blind.expectBut (by decide) _).bind fun _ => (Blind.spanFrom _).bind fun _ => .pure _

theorem binary_blind (evaluation : Evaluation) (left : Expr) (power : Power) :
    BlindAt s (binary step evaluation left power) :=
  (BlindAt.advance hs hk).bind fun _ => (hstep _).bind fun _ => .pure _

theorem assignment_blind (left : Expr) : BlindAt s (assignment step left) :=
  (BlindAt.advance hs hk).bind fun _ => (hstep _).bind fun _ => assignTo_blind _ _ _ left

theorem conditional_blind (condition : Expr) : BlindAt s (conditional step condition) :=
  (BlindAt.advance hs hk).bind fun _ => (hstep _).bind fun _ =>
    (Blind.expectBut (by decide) _).bind fun _ => (hstep _).bind fun _ => .pure _

theorem call_blind (callee : Expr) : BlindAt s (call step callee) :=
  (BlindAt.advance hs hk).bind fun _ => (Blind.separatedUntil _ (hstep _)).bind fun _ =>
    (Blind.expectBut (by decide) _).bind fun _ => (Blind.spanFrom _).bind fun _ => .pure _

theorem operandRule_blind (rule : OperandRule) : BlindAt s (rule.parse step) := by
  cases rule with
  | primary => exact primary_blind hs hk
  | selfRef => exact selfRef_blind hs hk
  | superMethod => exact superMethod_blind hs hk
  | unary => exact unary_blind hstep hs hk
  | grouping => exact grouping_blind hstep hs hk

theorem operatorRule_blind (rule : OperatorRule) (left : Expr) (power : Power) :
    BlindAt s (rule.parse step left power) := by
  cases rule with
  | assignment => exact assignment_blind hstep hs hk left
  | conditional => exact conditional_blind hstep hs hk left
  | logical => exact binary_blind hstep hs hk _ left power
  | binary => exact binary_blind hstep hs hk _ left power
  | call => exact call_blind hstep hs hk left
  | member => exact member_blind hs hk left

end FirstToken

theorem operand_blind : Blind (operand .standard step) := by
  refine fun s hs => .bind_peek ?_
  cases hrule : Rules.standard.operand s.current.kind with
  | none => exact Blind.failHere _ s hs
  | some rule => exact operandRule_blind hstep hs (Rules.ne_endOfInput_of_operand hrule) rule

omit hstep in
/-- An operator that is let through takes the left operand, and the others follow if it has taken
tokens. -/
theorem operators_eq (rules : Rules) (step : ExpressionParser) (floor : Power) (left : Expr) :
    operators rules step floor left = (peek >>= fun token =>
      match rules.operator token.kind with
      | none => pure left
      | some (power, rule) =>
        if floor < power then
          ifTaken (rule.parse step left power) (operators rules step floor) pure
        else pure left) := by
  funext s
  rw [operators, bind_apply]
  simp only [peek]
  cases rules.operator s.current.kind with
  | none => rfl
  | some answer =>
    by_cases htighter : floor < answer.1
    · simp only [if_pos htighter, ifTaken]
      cases answer.2.parse step left answer.1 s with
      | mk whole s₁ => cases whole <;> rfl
    · simp only [if_neg htighter]
      rfl

theorem operators_blind (floor : Power) (left : Expr) :
    Blind (operators .standard step floor left) := by
  intro s hs
  induction hn : s.after.length using Nat.strongRecOn generalizing s left with
  | ind n ih =>
    subst hn
    rw [operators_eq]
    refine .bind_peek ?_
    cases hrule : Rules.standard.operator s.current.kind with
    | none => exact Blind.pure _ s hs
    | some answer =>
      have hone := operatorRule_blind hstep hs (Rules.ne_endOfInput_of_operator hrule) answer.2 left
        answer.1
      exact .ite (fun _ => hone.ifTaken (fun whole s₁ hs₁ hlt => ih _ hlt whole s₁ hs₁ rfl) .pure)
        fun _ => Blind.pure _ s hs

end Expressions

theorem expressionWithin_blind (levels : Nat) (floor : Power) :
    Blind (expressionWithin .standard levels floor) := by
  induction levels generalizing floor with
  | zero => exact .failHere _
  | succ levels ih => exact ((operand_blind ih).bind fun _ => operators_blind ih floor _).nested

section Statements

variable {expression : Parse Expr} {statement : Parse Stmt}

section Parts

variable (hexpression : Blind expression)
include hexpression

theorem evaluated_blind : Blind (evaluated expression) :=
  fun s hs => .bind_peek <| hexpression.bind (fun _ => (Blind.expect (by decide)).bind fun _ =>
    (Blind.spanFrom _).bind fun _ => .pure _) s hs

theorem expressionStatement_blind : Blind (expressionStatement expression) :=
  (evaluated_blind hexpression).bind fun _ => .pure _

theorem head_blind (construct : String) : Blind (head expression construct) :=
  (Blind.expectBut (by decide) _).bind fun _ => hexpression.bind fun _ =>
    (Blind.expectBut (by decide) _).bind fun _ => .pure _

theorem letDecl_blind (hs : s.Closed) (hk : s.current.kind ≠ .endOfInput) :
    BlindAt s (letDecl expression) :=
  (BlindAt.advance hs hk).bind fun _ => (Blind.expectBut (by decide) _).bind fun _ =>
    (Blind.afterKind (by decide) hexpression).bind fun _ => (Blind.expect (by decide)).bind fun _ =>
      (Blind.spanFrom _).bind fun _ => .pure _

theorem forStart_blind : Blind (forStart expression) := by
  refine fun s hs => .bind_peek ?_
  split
  · next hk => exact (BlindAt.advance hs (by rw [hk]; decide)).bind fun _ => .pure _
  · next hk => exact (letDecl_blind hexpression hs (by rw [hk]; decide)).bind fun _ => .pure _
  · exact (evaluated_blind hexpression).bind (fun _ => .pure _) s hs

theorem caseValue_blind : Blind (caseValue expression) := by
  refine fun s hs => .bind_peek ?_
  split
  · next hk =>
    exact (BlindAt.advance hs (by rw [hk]; decide)).bind fun _ => hexpression.bind fun _ => .pure _
  · next hk => exact (BlindAt.advance hs (by rw [hk]; decide)).bind fun _ => .pure _
  · exact Blind.failHere _ s hs

end Parts

section Bodies

variable (hstatement : Blind statement)
include hstatement

theorem block_blind : Blind (block statement) :=
  (Blind.expectBut (by decide) _).bind fun _ => (Blind.manyUntil _ hstatement).bind fun _ =>
    (Blind.expectBut (by decide) _).bind fun _ => (Blind.spanFrom _).bind fun _ => .pure _

theorem functionFrom_blind (start : Position) : Blind (functionFrom statement start) :=
  (Blind.expectBut (by decide) _).bind fun _ => (Blind.expectBut (by decide) _).bind fun _ =>
    (Blind.separatedUntil _ (.expectBut (by decide) _)).bind fun _ =>
      (Blind.expectBut (by decide) _).bind fun _ => (block_blind hstatement).bind fun _ =>
        (Blind.spanFrom _).bind fun _ => .pure _

theorem method_blind : Blind (method statement) :=
  fun s hs => .bind_peek <| functionFrom_blind hstatement _ s hs

theorem case_blind (hexpression : Blind expression) : Blind (case expression statement) :=
  fun s hs => .bind_peek <| (caseValue_blind hexpression).bind
    (fun _ => (Blind.expectBut (by decide) _).bind fun _ => (Blind.manyUntil _ hstatement).bind
      fun _ => (Blind.spanFrom _).bind fun _ => .pure _) s hs

end Bodies

section FirstToken

variable (hs : s.Closed) (hk : s.current.kind ≠ .endOfInput)
include hs hk

section Values

variable (hexpression : Blind expression)
include hexpression

theorem print_blind : BlindAt s (print expression) :=
  (BlindAt.advance hs hk).bind fun _ => hexpression.bind fun _ =>
    (Blind.expect (by decide)).bind fun _ => (Blind.spanFrom _).bind fun _ => .pure _

theorem returnValue_blind : BlindAt s (returnValue expression) :=
  (BlindAt.advance hs hk).bind fun _ => (Blind.unlessKind _ hexpression).bind fun _ =>
    (Blind.expect (by decide)).bind fun _ => (Blind.spanFrom _).bind fun _ => .pure _

end Values

variable (hstatement : Blind statement)
include hstatement

theorem function_blind : BlindAt s (function statement) :=
  (BlindAt.advance hs hk).bind fun _ => (functionFrom_blind hstatement _).bind fun _ => .pure _

theorem classDecl_blind : BlindAt s (classDecl statement) :=
  (BlindAt.advance hs hk).bind fun _ => (Blind.expectBut (by decide) _).bind fun _ =>
    (Blind.afterKind (by decide) superclass_blind).bind fun _ =>
      (Blind.expectBut (by decide) _).bind fun _ =>
        (Blind.manyUntil _ (method_blind hstatement)).bind fun _ =>
          (Blind.expectBut (by decide) _).bind fun _ => (Blind.spanFrom _).bind fun _ => .pure _

variable (hexpression : Blind expression)
include hexpression

theorem ifElse_blind : BlindAt s (ifElse expression statement) :=
  (BlindAt.advance hs hk).bind fun _ => (head_blind hexpression _).bind fun _ =>
    hstatement.bind fun _ => (Blind.afterKind (by decide) hstatement).bind fun _ =>
      (Blind.spanFrom _).bind fun _ => .pure _

theorem whileLoop_blind : BlindAt s (whileLoop expression statement) :=
  (BlindAt.advance hs hk).bind fun _ => (head_blind hexpression _).bind fun _ =>
    hstatement.bind fun _ => (Blind.spanFrom _).bind fun _ => .pure _

theorem doWhile_blind : BlindAt s (doWhile expression statement) :=
  (BlindAt.advance hs hk).bind fun _ => hstatement.bind fun _ =>
    (Blind.expectBut (by decide) _).bind fun _ => (head_blind hexpression _).bind fun _ =>
      (Blind.expect (by decide)).bind fun _ => (Blind.spanFrom _).bind fun _ => .pure _

theorem forLoop_blind : BlindAt s (forLoop expression statement) :=
  (BlindAt.advance hs hk).bind fun _ => (Blind.expectBut (by decide) _).bind fun _ =>
    (forStart_blind hexpression).bind fun _ => (Blind.unlessKind _ hexpression).bind fun _ =>
      (Blind.expectBut (by decide) _).bind fun _ => (Blind.unlessKind _ hexpression).bind fun _ =>
        (Blind.expectBut (by decide) _).bind fun _ => hstatement.bind fun _ =>
          (Blind.spanFrom _).bind fun _ => .pure _

theorem switch_blind : BlindAt s (switch expression statement) :=
  (BlindAt.advance hs hk).bind fun _ => (head_blind hexpression _).bind fun _ =>
    (Blind.expectBut (by decide) _).bind fun _ =>
      (Blind.manyUntil _ (case_blind hstatement hexpression)).bind fun _ =>
        (Blind.expect (by decide)).bind fun _ => (Blind.spanFrom _).bind fun _ => .pure _

theorem statementRule_blind (rule : StatementRule) :
    BlindAt s (rule.parse expression statement) := by
  cases rule with
  | any => exact hstatement s hs
  | expression => exact expressionStatement_blind hexpression s hs
  | letDecl => exact (letDecl_blind hexpression hs hk).bind fun _ => .pure _
  | print => exact print_blind hs hk hexpression
  | ifElse => exact ifElse_blind hs hk hstatement hexpression
  | whileLoop => exact whileLoop_blind hs hk hstatement hexpression
  | doWhile => exact doWhile_blind hs hk hstatement hexpression
  | forLoop => exact forLoop_blind hs hk hstatement hexpression
  | switch => exact switch_blind hs hk hstatement hexpression
  | breakLoop => exact breakLoop_blind hs hk
  | continueLoop => exact continueLoop_blind hs hk
  | returnValue => exact returnValue_blind hs hk hexpression
  | block => exact (block_blind hstatement).bind (fun _ => .pure _) s hs
  | function => exact function_blind hs hk hstatement
  | classDecl => exact classDecl_blind hs hk hstatement

end FirstToken
end Statements

theorem statementWithin_blind (levels : Nat) : Blind (statementWithin .standard levels) := by
  induction levels with
  | zero => exact .failHere _
  | succ levels ih =>
    have hexpression := expressionWithin_blind levels .lowest
    refine Blind.nested fun s hs => .bind_peek ?_
    cases hrule : Rules.standard.statement s.current.kind with
    | none => exact expressionStatement_blind hexpression s hs
    | some rule =>
      have hk : s.current.kind ≠ .endOfInput := by
        intro hend
        rw [hend] at hrule
        cases hrule
      exact statementRule_blind hs hk ih hexpression rule

end Parse

namespace ParseState

/-- Whether an end token is put behind a list is decided by its end, so what is in front stays. -/
theorem exists_closedAfter_append (first : Token) (front rest : List Token) :
    ∃ ahead, closedAfter first (front ++ rest) = front ++ ahead := by
  induction front generalizing first with
  | nil => exact ⟨closedAfter first rest, rfl⟩
  | cons next front ih =>
    obtain ⟨ahead, h⟩ := ih next
    exact ⟨ahead, by rw [List.cons_append, closedAfter, h, List.cons_append]⟩

end ParseState

namespace Program

open ParseState (ofTokens)

theorem run_blind (tokens : List Token) :
    Parse.BlindAt (ofTokens tokens)
      (Parse.manyUntil (· = .endOfInput) (Parse.statement .standard)) :=
  (Parse.statementWithin_blind _).manyUntil _ _ (ParseState.closed_ofTokens tokens)

/-- The parser goes forward in the tokens, also when it fails. -/
theorem leads_run (tokens : List Token) : (ofTokens tokens).Leads (run tokens).2 :=
  (Parse.Agree.manyUntil (· = .endOfInput)
    (Parse.statementWithin_agree (fun _ _ => rfl : Parse.Observer.silent.Accepts tokens)
      (maxNesting + 1) (Nat.lt_add_right _ (Nat.lt_succ_self _))) _ .start rfl).2.2

section Closed

variable {tokens : List Token} {last : Token} (hlast : tokens.getLast? = some last)
  (hend : last.kind = .endOfInput)
include hlast hend

/-- The parser stays within the tokens. -/
theorem run_tokens : (run tokens).2.tokens = tokens := by
  obtain ⟨first, rest, rfl, hstart⟩ := ParseState.exists_ofTokens_eq hlast hend
  rw [(leads_run _).tokens, hstart]
  rfl

theorem getElem?_position_run :
    tokens[(run tokens).2.position]? = some (run tokens).2.current := by
  have hat := (run tokens).2.at_position
  rw [run_tokens hlast hend] at hat
  exact hat.getElem?

/-- Tokens that agree up to the one where the parser stands in the end are parsed to the same
answer. -/
theorem parse_eq_of_agree {tokens' : List Token}
    (hagree : ∀ i ≤ (run tokens).2.position, tokens'[i]? = tokens[i]?) :
    parse tokens' = parse tokens := by
  obtain ⟨-, taken, hafter, hrun⟩ := run_blind tokens
  change (ofTokens tokens).after = taken ++ (run tokens).2.after at hafter
  obtain ⟨first, rest, htokens, hstart⟩ := ParseState.exists_ofTokens_eq hlast hend
  have hrest : rest = taken ++ (run tokens).2.after := by rw [← hafter, hstart]
  have hposition : (run tokens).2.position = taken.length := by
    have hall : (run tokens).2.tokens.length = rest.length + 1 := by
      rw [run_tokens hlast hend, htokens, List.length_cons]
    have hahead : rest.length = taken.length + (run tokens).2.after.length := by
      rw [hrest, List.length_append]
    rw [ParseState.tokens, List.length_append, List.length_reverse, List.length_cons] at hall
    show (run tokens).2.before.length = taken.length
    omega
  have hfront : tokens'.take (taken.length + 1) = first :: taken := by
    have htake : tokens'.take (taken.length + 1) = tokens.take (taken.length + 1) := by
      refine List.ext_getElem? fun i => ?_
      simp only [List.getElem?_take]
      split
      · exact hagree i (by omega)
      · rfl
    rw [htake, htokens, hrest, List.take_succ_cons, List.take_left]
  obtain ⟨ahead, hahead⟩ :=
    ParseState.exists_closedAfter_append first taken (tokens'.drop (taken.length + 1))
  have hstart' : ofTokens tokens' = (ofTokens tokens).withAhead (taken ++ ahead) := by
    rw [← List.take_append_drop (taken.length + 1) tokens', hfront, hstart, List.cons_append,
      ofTokens, hahead]
    rfl
  have hrun' : run tokens' = ((run tokens).1, (run tokens).2.withAhead ahead) := by
    rw [run, hstart']
    exact hrun ahead
  rw [parse, parse, hrun']
  rcases run tokens with ⟨answer, s⟩
  cases answer <;> rfl

/-- A program ends at the first end of input. -/
theorem ends_of_parse {program : Program} (h : parse tokens = .ok program) :
    (run tokens).2.current.kind = .endOfInput ∧
      ∀ token ∈ tokens.take (run tokens).2.position, token.kind ≠ .endOfInput := by
  cases hrun : run tokens with
  | mk answer s =>
    unfold parse at h
    rw [hrun] at h
    cases answer with
    | error e => cases h
    | ok statements =>
      have hreads := readsStmts_of_run hrun
      obtain ⟨hat, hspelt⟩ := hreads.spans tokens 0 (ParseState.at_ofTokens hlast hend)
      refine ⟨by simpa using hreads.stop_current, ?_⟩
      rw [hat.position_eq, Nat.zero_add]
      exact forall_ne_endOfInput_of_fits hspelt.forall₂

/-- The parser never looks beyond the current token. Where it stands in the end is a place in the
tokens. If it fails there, whatever has the same tokens up to that place, this one included, fails
with the same diagnostic, so nothing can be put behind them to make a program. If it answers a
program, it stands at the first end of input, and whatever is put behind that makes the same. -/
theorem parse_up_to_position :
    tokens[(run tokens).2.position]? = some (run tokens).2.current ∧
      (∀ e, parse tokens = .error e → ∀ tokens' : List Token,
        (∀ i ≤ (run tokens).2.position, tokens'[i]? = tokens[i]?) → parse tokens' = .error e) ∧
      ∀ program, parse tokens = .ok program →
        (run tokens).2.current.kind = .endOfInput ∧
          (∀ token ∈ tokens.take (run tokens).2.position, token.kind ≠ .endOfInput) ∧
          ∀ rest, parse (tokens.take ((run tokens).2.position + 1) ++ rest) = .ok program := by
  have hcurrent := getElem?_position_run hlast hend
  refine ⟨hcurrent, fun e he tokens' hagree => ?_, fun program hprogram => ?_⟩
  · rw [parse_eq_of_agree hlast hend hagree, he]
  · obtain ⟨hkind, hproper⟩ := ends_of_parse hlast hend hprogram
    refine ⟨hkind, hproper, fun rest => ?_⟩
    rw [← hprogram]
    refine parse_eq_of_agree hlast hend fun i hi => ?_
    have hlt := (List.getElem?_eq_some_iff.1 hcurrent).1
    rw [List.getElem?_append_left (by rw [List.length_take]; omega),
      List.getElem?_take_of_lt (by omega)]

end Closed

/-- The text `print a; a + b = c;`, whose second statement assigns to what is no target. That shows
only when the value has been read. -/
def sumTargetText : List Token :=
  [.bare .printWord "print", .bare .identifier "a", .bare .semicolon ";", .bare .identifier "a",
    .bare .plus "+", .bare .identifier "b", .bare .assignment "=", .bare .identifier "c",
    .bare .semicolon ";", .bare .endOfInput "EOF"]

/-- The parser stands before the last semicolon, so other tokens may follow that. In the first
statement alone it comes to the end. -/
theorem parse_up_to_sumTargetText :
    (∃ e, parse sumTargetText = .error e ∧
      ∀ rest, parse (sumTargetText.take 9 ++ rest) = .error e) ∧
      ∃ program, parse (sumTargetText.take 3 ++ [.bare .endOfInput "EOF"]) = .ok program ∧
        ∀ rest, parse (sumTargetText.take 3 ++ .bare .endOfInput "EOF" :: rest) = .ok program := by
  obtain ⟨e, he⟩ : ∃ e, (run sumTargetText).1 = .error e :=
    exists_eq_error_of_isNone (by decide +kernel)
  obtain ⟨s, hrun, hposition⟩ : ∃ s, run sumTargetText = (.error e, s) ∧ s.position = 8 :=
    ⟨_, Prod.ext he rfl, by decide +kernel⟩
  obtain ⟨statements, t, hrun', hposition'⟩ : ∃ statements t,
      run (sumTargetText.take 3 ++ [.bare .endOfInput "EOF"]) = (.ok statements, t) ∧
        t.position = 3 :=
    ⟨_, _, Prod.ext (eq_ok_get (by decide +kernel)) rfl, by decide +kernel⟩
  have herror : parse sumTargetText = .error e := by rw [parse, hrun]
  have hok : parse (sumTargetText.take 3 ++ [.bare .endOfInput "EOF"]) =
      .ok ⟨statements, t.given⟩ := by rw [parse, hrun']
  have hlast : sumTargetText.getLast? = some (.bare .endOfInput "EOF") := rfl
  have hlast' : (sumTargetText.take 3 ++ [Token.bare .endOfInput "EOF"]).getLast? =
      some (.bare .endOfInput "EOF") := rfl
  obtain ⟨-, hfails, -⟩ := parse_up_to_position hlast rfl
  obtain ⟨-, -, hanswers⟩ := parse_up_to_position hlast' rfl
  refine ⟨⟨e, herror, fun rest => hfails e herror _ fun i hi => ?_⟩, _, hok, fun rest => ?_⟩
  · rw [hrun, hposition] at hi
    rw [List.getElem?_append_left (Nat.lt_succ_of_le hi),
      List.getElem?_take_of_lt (Nat.lt_succ_of_le hi)]
  · have h := (hanswers _ hok).2.2 rest
    rwa [hrun', hposition'] at h

end Program
end LexicalScoping
