import LexicalScoping.Proofs.Grammar.Steady

/-!
# What a parser refuses a token for

Whatever a parser fails with is about one of its tokens: the diagnostic stands where that token
starts, and its cause names what is wrong with it (`Token.Refused`). That a number cannot be read is
only reported of a literal that has no value. `AnswersFor` says this of one answer, together with
the parser's staying at its tokens, and `Reports` of all answers that a parser gives. There is one
rule for each way to build a parser.
-/
namespace LexicalScoping

/-- The kinds of token that carry a value. -/
def Kind.literals : List Kind := [.number, .string, .trueWord, .falseWord, .nilWord]

/-- What a parser can find wrong with the token. -/
inductive Token.Refused (t : Token) : Cause → Prop
  | unexpected : Refused t (.unexpectedToken t.text)
  | unwanted (wanted : String) : Refused t (.unexpectedTokenDetailed t.text wanted)
  | valueless : t.kind ∈ Kind.literals → t.literal = none → Refused t (.numberParseError t.text)
  | target : Refused t .invalidAssignmentTarget
  | tooDeep : Refused t (.nestingTooDeep maxNesting)

/-- One of the tokens is refused. -/
def Diagnostic.Refuses (tokens : List Token) (d : Diagnostic) : Prop :=
  ∃ t ∈ tokens, t.Refused d.cause ∧ d.position = t.span.start

namespace Parse

variable {α β : Type}

/-- The parser stays at the tokens, and if it fails, it refuses one of them. -/
inductive AnswersFor (tokens : List Token) : Except Diagnostic α × ParseState → Prop
  | ok {x : α} {s : ParseState} : s.tokens = tokens → AnswersFor tokens (.ok x, s)
  | error {d : Diagnostic} {s : ParseState} : s.tokens = tokens → d.Refuses tokens →
    AnswersFor tokens (.error d, s)

/-- Wherever the parser fails, it refuses one of its tokens. -/
def Reports (p : Parse α) : Prop := ∀ s, AnswersFor s.tokens (p s)

namespace AnswersFor

variable {tokens : List Token} {s : ParseState} {p : Parse α}

theorem tokens_eq {answer : Except Diagnostic α × ParseState} (h : AnswersFor tokens answer) :
    answer.2.tokens = tokens := by
  cases h with
  | ok hs => exact hs
  | error hs _ => exact hs

theorem refuses {d : Diagnostic} (h : AnswersFor (α := α) tokens (.error d, s)) :
    d.Refuses tokens := by
  cases h
  assumption

/-- A failure stays one, whatever the parser would have answered. -/
theorem cast {d : Diagnostic} (h : AnswersFor (α := α) tokens (.error d, s)) :
    AnswersFor (α := β) tokens (.error d, s) := .error h.tokens_eq h.refuses

theorem failHere {cause : Token → Cause} (h : s.current.Refused (cause s.current)) :
    AnswersFor s.tokens (failHere cause s : Except Diagnostic α × ParseState) :=
  .error rfl ⟨s.current, by simp [ParseState.tokens], h, rfl⟩

/-- What is looked at, or read, is the current token. -/
theorem bind_peek {f : Token → Parse β} (h : AnswersFor tokens (f s.current s)) :
    AnswersFor tokens ((peek >>= f) s) := h

theorem bind_advance {f : Token → Parse β} (h : AnswersFor tokens (f s.current s.advance)) :
    AnswersFor tokens ((advance >>= f) s) := h

theorem bind {f : α → Parse β} (hp : AnswersFor tokens (p s))
    (hf : ∀ x s₁, s₁.tokens = tokens → AnswersFor tokens (f x s₁)) :
    AnswersFor tokens ((p >>= f) s) := by
  rw [bind_apply]
  generalize p s = answer at hp
  cases hp with
  | ok hs => exact hf _ _ hs
  | error hs hd => exact .error hs hd

end AnswersFor

namespace Reports

variable {p : Parse α}

/-- A parser that never fails. -/
theorem of_answers (h : ∀ s, ∃ x s', p s = (.ok x, s') ∧ s'.tokens = s.tokens) : Reports p := by
  intro s
  obtain ⟨x, s', hanswer, htokens⟩ := h s
  rw [hanswer]
  exact .ok htokens

theorem pure (x : α) : Reports (Pure.pure x : Parse α) := of_answers fun s => ⟨x, s, rfl, rfl⟩

theorem spanFrom (start : Position) : Reports (spanFrom start) :=
  of_answers fun s => ⟨_, s, rfl, rfl⟩

theorem freshId : Reports freshId := of_answers fun s => ⟨_, s.numbered, rfl, rfl⟩

theorem advance : Reports advance := of_answers fun s => ⟨_, s.advance, rfl, s.tokens_advance⟩

theorem unexpected : Reports (unexpected : Parse α) := fun _ => .failHere .unexpected

theorem unexpectedBut (wanted : String) : Reports (unexpectedBut wanted : Parse α) :=
  fun _ => .failHere (.unwanted wanted)

theorem bind {f : α → Parse β} (hp : Reports p) (hf : ∀ x, Reports (f x)) :
    Reports (p >>= f) := fun s => (hp s).bind fun x s₁ hs₁ => hs₁ ▸ hf x s₁

theorem bind_peek {f : Token → Parse β} (hf : ∀ token, Reports (f token)) :
    Reports (peek >>= f) := fun s => .bind_peek (hf s.current s)

theorem ite {condition : Prop} [Decidable condition] {q : Parse α} (hp : Reports p)
    (hq : Reports q) : Reports (if condition then p else q) := by
  split
  · exact hp
  · exact hq

theorem expect (kind : Kind) : Reports (expect kind) := bind_peek fun _ => ite advance unexpected

theorem expectBut (kind : Kind) (wanted : String) : Reports (expectBut kind wanted) :=
  bind_peek fun _ => ite advance (unexpectedBut wanted)

theorem afterKind (kind : Kind) (h : Reports p) : Reports (afterKind kind p) :=
  bind_peek fun _ => ite (advance.bind fun _ => h.bind fun _ => pure _) (pure _)

theorem unlessKind (kind : Kind) (h : Reports p) : Reports (unlessKind kind p) :=
  bind_peek fun _ => ite (pure _) (h.bind fun _ => pure _)

theorem manyUntil (stop : Kind → Bool) (h : Reports p) : Reports (manyUntil stop p) := by
  intro s
  fun_induction Parse.manyUntil stop p s with
  | case1 s hstop => exact .ok rfl
  | case2 s hstop e s₁ hitem => exact (hitem ▸ h s).cast
  | case3 s hstop x s₁ hitem hlt e s₂ hrest ih =>
    have htokens : s₁.tokens = s.tokens := (hitem ▸ h s).tokens_eq
    rwa [hrest, htokens] at ih
  | case4 s hstop x s₁ hitem hlt xs s₂ hrest ih =>
    have htokens : s₁.tokens = s.tokens := (hitem ▸ h s).tokens_eq
    exact .ok ((hrest ▸ ih).tokens_eq.trans htokens)
  | case5 s hstop x s₁ hitem hge => exact .ok (hitem ▸ h s).tokens_eq

theorem separated (h : Reports p) : Reports (separated p) := by
  intro s
  fun_induction Parse.separated p s with
  | case1 s e s₁ hitem => exact (hitem ▸ h s).cast
  | case2 s x s₁ hitem hcomma hlt e s₂ hrest ih =>
    have htokens : s₁.advance.tokens = s.tokens :=
      s₁.tokens_advance.trans (hitem ▸ h s).tokens_eq
    rwa [hrest, htokens] at ih
  | case3 s x s₁ hitem hcomma hlt xs s₂ hrest ih =>
    have htokens : s₁.advance.tokens = s.tokens :=
      s₁.tokens_advance.trans (hitem ▸ h s).tokens_eq
    exact .ok ((hrest ▸ ih).tokens_eq.trans htokens)
  | case4 s x s₁ hitem hcomma hge =>
    exact .ok (s₁.tokens_advance.trans (hitem ▸ h s).tokens_eq)
  | case5 s x s₁ hitem hne => exact .ok (hitem ▸ h s).tokens_eq

theorem separatedUntil (close : Kind) (h : Reports p) : Reports (separatedUntil close p) :=
  bind_peek fun _ => ite (pure _) h.separated

/-- A level that cannot be opened is reported of the token that would be the first in it. -/
theorem nested (h : Reports p) : Reports (nested p) := by
  intro s
  rw [nested_apply]
  split
  · have hanswer := h s.opened
    generalize p s.opened = answer at hanswer
    cases hanswer with
    | ok hs => exact .ok hs
    | error hs hd => exact .error hs hd
  · exact .failHere .tooDeep

end Reports
end Parse
end LexicalScoping
