import LexicalScoping.Proofs.Grammar.Ensures
import LexicalScoping.Proofs.Token.Read
import Mathlib.Data.List.Forall2

/-!
# Reading alike

Two token lists that agree in the kinds of their tokens are read alike: the parser looks at kinds
and at whether there is a literal, and at nothing else. `Parse.Alike` says this of two parsers, of
which the second is mostly the first again: from states that stand at corresponding tokens they come
to corresponding answers, or both to diagnostics of one name about corresponding tokens. Which
tokens correspond is left open. As with `Parse.Ensures`, there is one rule for each way to build a
parser.
-/
namespace LexicalScoping

/-- What the parser sees of two tokens is the same if they correspond. -/
structure Correspondence (R : Token → Token → Prop) : Prop where
  kind : ∀ {t t'}, R t t' → t.kind = t'.kind
  literal : ∀ {t t'}, R t t' → t.literal.map Literal.plain = t'.literal.map Literal.plain

section Alike

variable (R : Token → Token → Prop)

/-- The tokens correspond and are names. -/
def Token.NamesAlike (t t' : Token) : Prop := R t t' ∧ t.kind = .identifier

/-- The diagnostics have causes of one name and stand at corresponding tokens. -/
def Diagnostic.Alike (d d' : Diagnostic) : Prop :=
  d.cause.name = d'.cause.name ∧
    ∃ t t', R t t' ∧ d.position = t.span.start ∧ d'.position = t'.span.start

/-- The references have one number and corresponding names. -/
structure Reference.Alike (target target' : Reference) : Prop where
  id : target.id = target'.id
  name : Token.NamesAlike R target.name target'.name

/-- The expressions have the same shape and numbers, with corresponding tokens. -/
inductive Expr.Alike : Expr → Expr → Prop
  | literal {value value' : Literal} {span span' : Span} : value.plain = value'.plain →
    Alike (.literal value span) (.literal value' span')
  | read {target target' : Reference} : target.Alike R target' →
    Alike (.read target) (.read target')
  | assign {target target' : Reference} {value value' : Expr} {span span' : Span} :
    target.Alike R target' → Alike value value' →
    Alike (.assign target value span) (.assign target' value' span')
  | binary {evaluation : Evaluation} {left left' : Expr} {operator operator' : Token}
    {right right' : Expr} {span span' : Span} : Alike left left' → R operator operator' →
    Alike right right' →
    Alike (.binary evaluation left operator right span)
      (.binary evaluation left' operator' right' span')
  | unary {operator operator' : Token} {operand operand' : Expr} {span span' : Span} :
    R operator operator' → Alike operand operand' →
    Alike (.unary operator operand span) (.unary operator' operand' span')
  | grouping {content content' : Expr} {span span' : Span} : Alike content content' →
    Alike (.grouping content span) (.grouping content' span')
  | conditional {condition condition' thenBranch thenBranch' elseBranch elseBranch' : Expr}
    {span span' : Span} : Alike condition condition' → Alike thenBranch thenBranch' →
    Alike elseBranch elseBranch' →
    Alike (.conditional condition thenBranch elseBranch span)
      (.conditional condition' thenBranch' elseBranch' span')
  | call {callee callee' : Expr} {arguments arguments' : List Expr} {span span' : Span} :
    Alike callee callee' → List.Forall₂ Alike arguments arguments' →
    Alike (.call callee arguments span) (.call callee' arguments' span')
  | get {object object' : Expr} {name name' : Token} {span span' : Span} :
    Alike object object' → R name name' → Alike (.get object name span) (.get object' name' span')
  | set {object object' : Expr} {name name' : Token} {value value' : Expr} {span span' : Span} :
    Alike object object' → R name name' → Alike value value' →
    Alike (.set object name value span) (.set object' name' value' span')
  | superMethod {id : Nat} {keyword keyword' method method' : Token} {span span' : Span} :
    R keyword keyword' → R method method' →
    Alike (.superMethod id keyword method span) (.superMethod id keyword' method' span')
  | selfRef {id : Nat} {keyword keyword' : Token} : R keyword keyword' →
    Alike (.selfRef id keyword) (.selfRef id keyword')

/-- The declarations have corresponding names and initial values of the same shape. -/
structure LetDecl.Alike (declaration declaration' : LetDecl) : Prop where
  name : Token.NamesAlike R declaration.name declaration'.name
  value : Option.Rel (Expr.Alike R) declaration.value declaration'.value

/-- The first clauses of two loops have the same shape and numbers. -/
inductive ForStart.Alike : ForStart → ForStart → Prop
  | declare {declaration declaration' : LetDecl} : declaration.Alike R declaration' →
    Alike (.declare declaration) (.declare declaration')
  | evaluate {e e' : Expr} {span span' : Span} : e.Alike R e' →
    Alike (.evaluate e span) (.evaluate e' span')

mutual

/-- The statements have the same shape and numbers, with corresponding tokens. -/
inductive Stmt.Alike : Stmt → Stmt → Prop
  | block {body body' : List Stmt} {span span' : Span} : List.Forall₂ Stmt.Alike body body' →
    Stmt.Alike (.block body span) (.block body' span')
  | letDecl {declaration declaration' : LetDecl} : declaration.Alike R declaration' →
    Stmt.Alike (.letDecl declaration) (.letDecl declaration')
  | expression {e e' : Expr} {span span' : Span} : e.Alike R e' →
    Stmt.Alike (.expression e span) (.expression e' span')
  | print {e e' : Expr} {span span' : Span} : e.Alike R e' →
    Stmt.Alike (.print e span) (.print e' span')
  | ifElse {condition condition' : Expr} {thenBody thenBody' : Stmt}
    {elseBody elseBody' : Option Stmt} {span span' : Span} : condition.Alike R condition' →
    Stmt.Alike thenBody thenBody' → Option.Rel Stmt.Alike elseBody elseBody' →
    Stmt.Alike (.ifElse condition thenBody elseBody span)
      (.ifElse condition' thenBody' elseBody' span')
  | whileLoop {condition condition' : Expr} {body body' : Stmt} {span span' : Span} :
    condition.Alike R condition' → Stmt.Alike body body' →
    Stmt.Alike (.whileLoop condition body span) (.whileLoop condition' body' span')
  | doWhile {body body' : Stmt} {condition condition' : Expr} {span span' : Span} :
    Stmt.Alike body body' → condition.Alike R condition' →
    Stmt.Alike (.doWhile body condition span) (.doWhile body' condition' span')
  | forLoop {start start' : Option ForStart} {condition condition' : Option Expr}
    {increment increment' : Option Expr} {body body' : Stmt} {span span' : Span} :
    Option.Rel (ForStart.Alike R) start start' →
    Option.Rel (Expr.Alike R) condition condition' →
    Option.Rel (Expr.Alike R) increment increment' → Stmt.Alike body body' →
    Stmt.Alike (.forLoop start condition increment body span)
      (.forLoop start' condition' increment' body' span')
  | switch {subject subject' : Expr} {arms arms' : List Case} {span span' : Span} :
    subject.Alike R subject' → List.Forall₂ Case.Alike arms arms' →
    Stmt.Alike (.switch subject arms span) (.switch subject' arms' span')
  | breakLoop {keyword keyword' : Token} : R keyword keyword' →
    Stmt.Alike (.breakLoop keyword) (.breakLoop keyword')
  | continueLoop {keyword keyword' : Token} : R keyword keyword' →
    Stmt.Alike (.continueLoop keyword) (.continueLoop keyword')
  | returnValue {keyword keyword' : Token} {value value' : Option Expr} {span span' : Span} :
    R keyword keyword' → Option.Rel (Expr.Alike R) value value' →
    Stmt.Alike (.returnValue keyword value span) (.returnValue keyword' value' span')
  | function {declaration declaration' : Function} : Function.Alike declaration declaration' →
    Stmt.Alike (.function declaration) (.function declaration')
  | classDecl {name name' : Token} {superclass superclass' : Option Reference}
    {methods methods' : List Function} {span span' : Span} : Token.NamesAlike R name name' →
    Option.Rel (Reference.Alike R) superclass superclass' →
    List.Forall₂ Function.Alike methods methods' →
    Stmt.Alike (.classDecl name superclass methods span)
      (.classDecl name' superclass' methods' span')

/-- The arms have the same shape and numbers. -/
inductive Case.Alike : Case → Case → Prop
  | mk {value value' : Option Expr} {body body' : List Stmt} {span span' : Span} :
    Option.Rel (Expr.Alike R) value value' → List.Forall₂ Stmt.Alike body body' →
    Case.Alike (.mk value body span) (.mk value' body' span')

/-- The functions have the same shape and numbers, with corresponding parameters. -/
inductive Function.Alike : Function → Function → Prop
  | mk {name name' : Token} {parameters parameters' : List Token} {body body' : List Stmt}
    {span span' : Span} : Token.NamesAlike R name name' →
    List.Forall₂ (Token.NamesAlike R) parameters parameters' →
    List.Forall₂ Stmt.Alike body body' →
    Function.Alike (.mk name parameters body span) (.mk name' parameters' body' span')

end

/-- The states stand at corresponding tokens, with the same number to give out next and as many
levels open. -/
structure ParseState.Alike (s s' : ParseState) : Prop where
  current : R s.current s'.current
  after : List.Forall₂ R s.after s'.after
  given : s.given = s'.given
  depth : s.depth = s'.depth

namespace Parse

variable {α β : Type}

/-- Both answers are values, or both diagnostics about corresponding tokens. -/
inductive AnswersAlike (A : α → α → Prop) :
    Except Diagnostic α × ParseState → Except Diagnostic α × ParseState → Prop
  | ok {x x' : α} {s s' : ParseState} : A x x' → s.Alike R s' →
    AnswersAlike A (.ok x, s) (.ok x', s')
  | error {d d' : Diagnostic} {s s' : ParseState} : d.Alike R d' →
    AnswersAlike A (.error d, s) (.error d', s')

/-- From states that are alike the parsers come to answers that are. -/
def Alike (A : α → α → Prop) (p p' : Parse α) : Prop :=
  ∀ s s', s.Alike R s' → AnswersAlike R A (p s) (p' s')

end Parse

end Alike

variable {R : Token → Token → Prop} {α β : Type}

/-- Causes of one name about corresponding tokens make diagnostics that are alike. -/
theorem Token.diagnostic_alike {t t' : Token} (h : R t t') {cause cause' : Cause}
    (hname : cause.name = cause'.name) :
    (t.diagnostic cause).Alike R (t'.diagnostic cause') :=
  ⟨hname, t, t', h, rfl, rfl⟩

namespace ParseState.Alike

variable {s s' : ParseState}

theorem length_after (h : s.Alike R s') : s.after.length = s'.after.length := h.after.length_eq

theorem advance (h : s.Alike R s') : s.advance.Alike R s'.advance := by
  obtain ⟨before, current, after, given, depth⟩ := s
  obtain ⟨before', current', after', given', depth'⟩ := s'
  obtain ⟨hcurrent, hafter, hid, hdepth⟩ := h
  cases hafter with
  | nil => exact ⟨hcurrent, .nil, hid, hdepth⟩
  | cons hnext hrest => exact ⟨hnext, hrest, hid, hdepth⟩

theorem opened (h : s.Alike R s') : s.opened.Alike R s'.opened :=
  ⟨h.current, h.after, h.given, congrArg (· + 1) h.depth⟩

theorem leave (h : s.Alike R s') : (Parse.leave s).Alike R (Parse.leave s') :=
  ⟨h.current, h.after, h.given, congrArg (· - 1) h.depth⟩

end ParseState.Alike

namespace Parse.AnswersAlike

variable {A : α → α → Prop} {answer answer' : Except Diagnostic α × ParseState}

theorem of_ok (h : AnswersAlike R A answer answer') {x : α} {s : ParseState}
    (hanswer : answer = (.ok x, s)) : ∃ x' s', answer' = (.ok x', s') ∧ A x x' ∧ s.Alike R s' := by
  cases h with
  | ok hx hs =>
    cases hanswer
    exact ⟨_, _, rfl, hx, hs⟩
  | error => cases hanswer

theorem of_error (h : AnswersAlike R A answer answer') {d : Diagnostic} {s : ParseState}
    (hanswer : answer = (.error d, s)) : ∃ d' s', answer' = (.error d', s') ∧ d.Alike R d' := by
  cases h with
  | ok => cases hanswer
  | error hd =>
    cases hanswer
    exact ⟨_, _, rfl, hd⟩

end Parse.AnswersAlike

namespace Parse.Alike

variable {A : α → α → Prop} {B : β → β → Prop} {p p' : Parse α}

theorem pure {x x' : α} (h : A x x') : Alike R A (Pure.pure x) (Pure.pure x') :=
  fun _ _ hs => .ok h hs

theorem bind {f f' : α → Parse β} (hp : Alike R A p p')
    (hf : ∀ x x', A x x' → Alike R B (f x) (f' x')) : Alike R B (p >>= f) (p' >>= f') := by
  intro s s' hs
  have hanswers := hp s s' hs
  rw [bind_apply, bind_apply]
  generalize p s = answer at hanswers
  generalize p' s' = answer' at hanswers
  cases hanswers with
  | ok hx hs₁ => exact hf _ _ hx _ _ hs₁
  | error hd => exact .error hd

theorem ite {condition condition' : Prop} [Decidable condition] [Decidable condition']
    (hiff : condition ↔ condition') {q q' : Parse α} (hp : Alike R A p p')
    (hq : Alike R A q q') :
    Alike R A (if condition then p else q) (if condition' then p' else q') := by
  by_cases hc : condition
  · rw [if_pos hc, if_pos (hiff.1 hc)]
    exact hp
  · rw [if_neg hc, if_neg (mt hiff.2 hc)]
    exact hq

theorem peek : Alike R R peek peek := fun _ _ hs => .ok hs.current hs

theorem advance : Alike R R advance advance := fun _ _ hs => .ok hs.current hs.advance

theorem freshId : Alike R (· = ·) freshId freshId := fun _ _ hs =>
  .ok hs.given ⟨hs.current, hs.after, congrArg (· + 1) hs.given, hs.depth⟩

/-- Stretches of source need not agree. -/
theorem spanFrom (start start' : Position) :
    Alike R (fun _ _ => True) (spanFrom start) (spanFrom start') :=
  fun _ _ hs => .ok trivial hs

theorem failHere {cause : Token → Cause} (hname : ∀ t t', (cause t).name = (cause t').name) :
    Alike R A (failHere cause) (failHere cause) := fun _ _ hs =>
  .error (Token.diagnostic_alike hs.current (hname _ _))

theorem failOn {t t' : Token} (h : R t t') (cause : Cause) :
    Alike R A (failOn t cause) (failOn t' cause) := fun _ _ _ =>
  .error (Token.diagnostic_alike h rfl)

theorem unexpected : Alike R A unexpected unexpected := failHere fun _ _ => rfl

theorem unexpectedBut (wanted : String) :
    Alike R A (unexpectedBut wanted) (unexpectedBut wanted) := failHere fun _ _ => rfl

section Kinds

variable (hR : Correspondence R)
include hR

/-- Looking at the kind of the current token, both go on in the same way. -/
theorem bind_peek {f f' : Token → Parse β}
    (hf : ∀ t t', R t t' → t.kind = t'.kind → Alike R B (f t) (f' t')) :
    Alike R B (Parse.peek >>= f) (Parse.peek >>= f') :=
  peek.bind fun t t' h => hf t t' h (hR.kind h)

/-- A token of the kind is taken by both, or by neither. -/
theorem takeKind {kind : Kind} {q q' : Parse Token}
    (hq : Alike R (fun t t' => R t t' ∧ t.kind = kind) q q') :
    Alike R (fun t t' => R t t' ∧ t.kind = kind)
      (do if (← Parse.peek).kind = kind then Parse.advance else q)
      (do if (← Parse.peek).kind = kind then Parse.advance else q') := by
  intro s s' hs
  have hkind := hR.kind hs.current
  show AnswersAlike R _ ((if s.current.kind = kind then Parse.advance else q) s)
    ((if s'.current.kind = kind then Parse.advance else q') s')
  by_cases h : s.current.kind = kind
  · rw [if_pos h, if_pos (hkind ▸ h)]
    exact .ok ⟨hs.current, h⟩ hs.advance
  · rw [if_neg h, if_neg (hkind ▸ h)]
    exact hq s s' hs

theorem expect (kind : Kind) :
    Alike R (fun t t' => R t t' ∧ t.kind = kind) (expect kind) (expect kind) :=
  takeKind hR unexpected

theorem expectBut (kind : Kind) (wanted : String) :
    Alike R (fun t t' => R t t' ∧ t.kind = kind) (expectBut kind wanted)
      (expectBut kind wanted) :=
  takeKind hR (unexpectedBut wanted)

theorem afterKind (kind : Kind) (h : Alike R A p p') :
    Alike R (Option.Rel A) (afterKind kind p) (afterKind kind p') := by
  refine bind_peek hR fun t t' _ hkind => ite (by rw [hkind]) ?_ (pure .none)
  exact advance.bind fun _ _ _ => h.bind fun _ _ hx => pure (.some hx)

theorem unlessKind (kind : Kind) (h : Alike R A p p') :
    Alike R (Option.Rel A) (unlessKind kind p) (unlessKind kind p') := by
  refine bind_peek hR fun t t' _ hkind => ite (by rw [hkind]) (pure .none) ?_
  exact h.bind fun _ _ hx => pure (.some hx)

/-- Both lists end at the same item, as equally much is left behind each. -/
theorem manyUntil (stop : Kind → Bool) (h : Alike R A p p') :
    Alike R (List.Forall₂ A) (manyUntil stop p) (manyUntil stop p') := by
  intro s s' hs
  fun_induction Parse.manyUntil stop p s generalizing s' with
  | case1 s hstop =>
    rw [Parse.manyUntil, if_pos (hR.kind hs.current ▸ hstop)]
    exact .ok .nil hs
  | case2 s hstop d s₁ hitem =>
    obtain ⟨d', s₁', hitem', hd⟩ := (h s s' hs).of_error hitem
    rw [Parse.manyUntil, if_neg (hR.kind hs.current ▸ hstop), hitem']
    exact .error hd
  | case3 s hstop x s₁ hitem hlt d s₂ hrest ih =>
    obtain ⟨x', s₁', hitem', hx, hs₁⟩ := (h s s' hs).of_ok hitem
    obtain ⟨d', s₂', hrest', hd⟩ := (ih s₁' hs₁).of_error hrest
    have hlt' : s₁'.after.length < s'.after.length := hs₁.length_after ▸ hs.length_after ▸ hlt
    rw [Parse.manyUntil, if_neg (hR.kind hs.current ▸ hstop)]
    simp only [hitem', if_pos hlt', hrest']
    exact .error hd
  | case4 s hstop x s₁ hitem hlt xs s₂ hrest ih =>
    obtain ⟨x', s₁', hitem', hx, hs₁⟩ := (h s s' hs).of_ok hitem
    obtain ⟨xs', s₂', hrest', hxs, hs₂⟩ := (ih s₁' hs₁).of_ok hrest
    have hlt' : s₁'.after.length < s'.after.length := hs₁.length_after ▸ hs.length_after ▸ hlt
    rw [Parse.manyUntil, if_neg (hR.kind hs.current ▸ hstop)]
    simp only [hitem', if_pos hlt', hrest']
    exact .ok (.cons hx hxs) hs₂
  | case5 s hstop x s₁ hitem hge =>
    obtain ⟨x', s₁', hitem', hx, hs₁⟩ := (h s s' hs).of_ok hitem
    have hge' : ¬ s₁'.after.length < s'.after.length := hs₁.length_after ▸ hs.length_after ▸ hge
    rw [Parse.manyUntil, if_neg (hR.kind hs.current ▸ hstop)]
    simp only [hitem', if_neg hge']
    exact .ok (.cons hx .nil) hs₁

theorem separated (h : Alike R A p p') :
    Alike R (List.Forall₂ A) (separated p) (separated p') := by
  intro s s' hs
  fun_induction Parse.separated p s generalizing s' with
  | case1 s d s₁ hitem =>
    obtain ⟨d', s₁', hitem', hd⟩ := (h s s' hs).of_error hitem
    rw [Parse.separated, hitem']
    exact .error hd
  | case2 s x s₁ hitem hcomma hlt d s₂ hrest ih =>
    obtain ⟨x', s₁', hitem', hx, hs₁⟩ := (h s s' hs).of_ok hitem
    obtain ⟨d', s₂', hrest', hd⟩ := (ih _ hs₁.advance).of_error hrest
    have hcomma' : s₁'.current.kind = .comma := hR.kind hs₁.current ▸ hcomma
    have hlt' : s₁'.advance.after.length < s'.after.length :=
      hs₁.advance.length_after ▸ hs.length_after ▸ hlt
    rw [Parse.separated]
    simp only [hitem', if_pos hcomma', if_pos hlt', hrest']
    exact .error hd
  | case3 s x s₁ hitem hcomma hlt xs s₂ hrest ih =>
    obtain ⟨x', s₁', hitem', hx, hs₁⟩ := (h s s' hs).of_ok hitem
    obtain ⟨xs', s₂', hrest', hxs, hs₂⟩ := (ih _ hs₁.advance).of_ok hrest
    have hcomma' : s₁'.current.kind = .comma := hR.kind hs₁.current ▸ hcomma
    have hlt' : s₁'.advance.after.length < s'.after.length :=
      hs₁.advance.length_after ▸ hs.length_after ▸ hlt
    rw [Parse.separated]
    simp only [hitem', if_pos hcomma', if_pos hlt', hrest']
    exact .ok (.cons hx hxs) hs₂
  | case4 s x s₁ hitem hcomma hge =>
    obtain ⟨x', s₁', hitem', hx, hs₁⟩ := (h s s' hs).of_ok hitem
    have hcomma' : s₁'.current.kind = .comma := hR.kind hs₁.current ▸ hcomma
    have hge' : ¬ s₁'.advance.after.length < s'.after.length :=
      hs₁.advance.length_after ▸ hs.length_after ▸ hge
    rw [Parse.separated]
    simp only [hitem', if_pos hcomma', if_neg hge']
    exact .ok (.cons hx .nil) hs₁.advance
  | case5 s x s₁ hitem hne =>
    obtain ⟨x', s₁', hitem', hx, hs₁⟩ := (h s s' hs).of_ok hitem
    have hne' : s₁'.current.kind ≠ .comma := hR.kind hs₁.current ▸ hne
    rw [Parse.separated]
    simp only [hitem', if_neg hne']
    exact .ok (.cons hx .nil) hs₁

theorem separatedUntil (close : Kind) (h : Alike R A p p') :
    Alike R (List.Forall₂ A) (separatedUntil close p) (separatedUntil close p') :=
  bind_peek hR fun _ _ _ hkind => ite (by rw [hkind]) (pure .nil) (separated hR h)

end Kinds

theorem nested (h : Alike R A p p') : Alike R A (nested p) (nested p') := by
  intro s s' hs
  rw [nested_apply, nested_apply, ← hs.depth]
  by_cases hroom : s.depth < maxNesting
  · rw [if_pos hroom, if_pos hroom]
    have hanswers := h _ _ hs.opened
    generalize p s.opened = answer at hanswers
    generalize p' s'.opened = answer' at hanswers
    cases hanswers with
    | ok hx hs₁ => exact .ok hx hs₁.leave
    | error hd => exact .error hd
  · rw [if_neg hroom, if_neg hroom]
    exact failHere (fun _ _ => rfl) s s' hs

end Parse.Alike
end LexicalScoping
