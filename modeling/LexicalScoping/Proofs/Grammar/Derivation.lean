import LexicalScoping.Grammar.Statement
import LexicalScoping.Proofs.Grammar.Standing

/-!
# How a reading goes

The relations here say what one successful reading with the standard grammar does to the state of
the parser, rule by rule: which tokens it takes and in which states, what it asks of the levels that
are open, which numbers it gives out and which tree it makes. Whatever holds of every tree that is
read is shown by induction on these relations, without looking at the parser again.
-/
namespace LexicalScoping

/-- One token of the kind is read. -/
structure Takes (kind : Kind) (s : ParseState) (token : Token) (s' : ParseState) : Prop where
  current : s.current = token
  kind_eq : token.kind = kind
  proper : kind ≠ .endOfInput
  more : s.after ≠ []
  next : s' = s.advance

/-- The rule that reads the operators of a way to treat the right operand. -/
def Evaluation.rule : Evaluation → OperatorRule
  | .strict => .binary
  | .shortCircuit => .logical

/-- What follows a token of the kind, if it is there. -/
inductive ReadsAfter {α : Type} (kind : Kind) (item : ParseState → α → ParseState → Prop) :
    ParseState → Option α → ParseState → Prop
  | absent {s : ParseState} (other : s.current.kind ≠ kind) : ReadsAfter kind item s none s
  | present {s s₁ s₂ : ParseState} {token : Token} {x : α} (mark : Takes kind s token s₁)
      (follows : item s₁ x s₂) : ReadsAfter kind item s (some x) s₂

/-- What stands there unless a token of the kind does. -/
inductive ReadsUnless {α : Type} (kind : Kind) (item : ParseState → α → ParseState → Prop) :
    ParseState → Option α → ParseState → Prop
  | absent {s : ParseState} (mark : s.current.kind = kind) : ReadsUnless kind item s none s
  | present {s s₁ : ParseState} {x : α} (other : s.current.kind ≠ kind) (stands : item s x s₁) :
      ReadsUnless kind item s (some x) s₁

mutual

/-- An expression whose operators all bind tighter than the floor is read. -/
inductive ReadsExpr : Power → ParseState → Expr → ParseState → Prop
  | nested {floor : Power} {s s₁ s₂ : ParseState} {first whole : Expr}
      (room : s.depth < maxNesting) (operand : ReadsOperand s.opened first s₁)
      (operators : ReadsOperators floor first s₁ whole s₂) :
      ReadsExpr floor s whole (Parse.leave s₂)

/-- An operand is read. -/
inductive ReadsOperand : ParseState → Expr → ParseState → Prop
  | literal {s s₁ : ParseState} {token : Token} {value : Literal}
      (here : Takes token.kind s token s₁) (isLiteral : token.kind.isLiteral)
      (carries : token.literal = some value) : ReadsOperand s (.literal value token.span) s₁
  | read {s s₁ : ParseState} {token : Token} (name : Takes .identifier s token s₁) :
      ReadsOperand s (.read ⟨s₁.given, token⟩) s₁.numbered
  | selfRef {s s₁ : ParseState} {token : Token} (keyword : Takes .selfWord s token s₁) :
      ReadsOperand s (.selfRef s₁.given token) s₁.numbered
  | superMethod {s s₁ s₂ s₃ : ParseState} {token point method : Token}
      (keyword : Takes .superWord s token s₁) (dot : Takes .dot s₁ point s₂)
      (name : Takes .identifier s₂ method s₃) :
      ReadsOperand s
        (.superMethod s₃.given token method ⟨token.span.start, method.span.stop⟩) s₃.numbered
  | unary {s s₁ s₂ : ParseState} {token : Token} {operand : Expr}
      (operator : Takes token.kind s token s₁) (isUnary : token.kind = .dash ∨ token.kind = .not)
      (holds : ReadsExpr .unary s₁ operand s₂) :
      ReadsOperand s (.unary token operand ⟨token.span.start, operand.span.stop⟩) s₂
  | grouping {s s₁ s₂ s₃ : ParseState} {opening closing : Token} {content : Expr}
      (opens : Takes .openParen s opening s₁) (holds : ReadsExpr .lowest s₁ content s₂)
      (closes : Takes .closeParen s₂ closing s₃) :
      ReadsOperand s (.grouping content ⟨opening.span.start, s₃.lastEnd⟩) s₃

/-- Operators that bind tighter than the floor take what has been read as their left operand, until
there are no more. -/
inductive ReadsOperators : Power → Expr → ParseState → Expr → ParseState → Prop
  | stop {floor : Power} {left : Expr} {s : ParseState}
      (ends : ∀ power rule, Rules.standardOperator s.current.kind = some (power, rule) →
        ¬ floor < power) : ReadsOperators floor left s left s
  | step {floor power : Power} {left middle whole : Expr} {s s₁ s₂ : ParseState}
      (tighter : floor < power) (one : ReadsOperator power left s middle s₁)
      (others : ReadsOperators floor middle s₁ whole s₂) : ReadsOperators floor left s whole s₂

/-- One operator of the power is read with what it has on its right. -/
inductive ReadsOperator : Power → Expr → ParseState → Expr → ParseState → Prop
  | assign {s s₁ s₂ : ParseState} {target : Reference} {token : Token} {value : Expr}
      (operator : Takes .assignment s token s₁) (holds : ReadsExpr .lowest s₁ value s₂) :
      ReadsOperator .assignment (.read target) s
        (.assign ⟨s₂.given, target.name⟩ value ⟨target.name.span.start, value.span.stop⟩)
        s₂.numbered
  | set {s s₁ s₂ : ParseState} {object value : Expr} {name token : Token} {span : Span}
      (operator : Takes .assignment s token s₁) (holds : ReadsExpr .lowest s₁ value s₂) :
      ReadsOperator .assignment (.get object name span) s
        (.set object name value ⟨span.start, value.span.stop⟩) s₂
  | conditional {s s₁ s₂ s₃ s₄ : ParseState} {condition thenBranch elseBranch : Expr}
      {question colon : Token} (asks : Takes .question s question s₁)
      (holds : ReadsExpr .lowest s₁ thenBranch s₂) (divides : Takes .colon s₂ colon s₃)
      (otherwise : ReadsExpr .assignment s₃ elseBranch s₄) :
      ReadsOperator .conditional condition s
        (.conditional condition thenBranch elseBranch
          ⟨condition.span.start, elseBranch.span.stop⟩) s₄
  | binary {evaluation : Evaluation} {power : Power} {s s₁ s₂ : ParseState} {left right : Expr}
      {token : Token} (operator : Takes token.kind s token s₁)
      (isBinary : Rules.standardOperator token.kind = some (power, evaluation.rule))
      (holds : ReadsExpr power s₁ right s₂) :
      ReadsOperator power left s
        (.binary evaluation left token right ⟨left.span.start, right.span.stop⟩) s₂
  | call {s s₁ s₂ s₃ : ParseState} {callee : Expr} {opening closing : Token}
      {arguments : List Expr} (opens : Takes .openParen s opening s₁)
      (holds : ReadsArguments s₁ arguments s₂) (closes : Takes .closeParen s₂ closing s₃) :
      ReadsOperator .call callee s (.call callee arguments ⟨callee.span.start, s₃.lastEnd⟩) s₃
  | member {s s₁ s₂ : ParseState} {object : Expr} {point name : Token}
      (dot : Takes .dot s point s₁) (property : Takes .identifier s₁ name s₂) :
      ReadsOperator .member object s (.get object name ⟨object.span.start, name.span.stop⟩) s₂

/-- The arguments of a call are read, if there are any. -/
inductive ReadsArguments : ParseState → List Expr → ParseState → Prop
  | none {s : ParseState} (closes : s.current.kind = .closeParen) : ReadsArguments s [] s
  | some {s s₁ : ParseState} {arguments : List Expr} (other : s.current.kind ≠ .closeParen)
      (items : ReadsItems s arguments s₁) : ReadsArguments s arguments s₁

/-- Expressions with a comma between any two are read, at least one. -/
inductive ReadsItems : ParseState → List Expr → ParseState → Prop
  | last {s s₁ : ParseState} {e : Expr} (item : ReadsExpr .lowest s e s₁)
      (ends : s₁.current.kind ≠ .comma) : ReadsItems s [e] s₁
  | more {s s₁ s₂ s₃ : ParseState} {e : Expr} {comma : Token} {rest : List Expr}
      (item : ReadsExpr .lowest s e s₁) (divides : Takes .comma s₁ comma s₂)
      (items : ReadsItems s₂ rest s₃) : ReadsItems s (e :: rest) s₃

end

/-- Names with a comma between any two are read, at least one. -/
inductive ReadsNames : ParseState → List Token → ParseState → Prop
  | last {s s₁ : ParseState} {name : Token} (item : Takes .identifier s name s₁)
      (ends : s₁.current.kind ≠ .comma) : ReadsNames s [name] s₁
  | more {s s₁ s₂ s₃ : ParseState} {name comma : Token} {rest : List Token}
      (item : Takes .identifier s name s₁) (divides : Takes .comma s₁ comma s₂)
      (items : ReadsNames s₂ rest s₃) : ReadsNames s (name :: rest) s₃

/-- The parameters of a function are read, if there are any. -/
inductive ReadsParameters : ParseState → List Token → ParseState → Prop
  | none {s : ParseState} (closes : s.current.kind = .closeParen) : ReadsParameters s [] s
  | some {s s₁ : ParseState} {names : List Token} (other : s.current.kind ≠ .closeParen)
      (items : ReadsNames s names s₁) : ReadsParameters s names s₁

/-- An expression and its semicolon are read, and the stretch that they cover. -/
inductive ReadsEvaluated : ParseState → Expr × Span → ParseState → Prop
  | intro {s s₁ s₂ : ParseState} {e : Expr} {semicolon : Token} (holds : ReadsExpr .lowest s e s₁)
      (ends : Takes .semicolon s₁ semicolon s₂) :
      ReadsEvaluated s (e, ⟨s.current.span.start, s₂.lastEnd⟩) s₂

/-- An expression between parentheses is read. -/
inductive ReadsHead : ParseState → Expr → ParseState → Prop
  | intro {s s₁ s₂ s₃ : ParseState} {opening closing : Token} {e : Expr}
      (opens : Takes .openParen s opening s₁) (holds : ReadsExpr .lowest s₁ e s₂)
      (closes : Takes .closeParen s₂ closing s₃) : ReadsHead s e s₃

/-- A variable declaration is read. -/
inductive ReadsLet : ParseState → LetDecl → ParseState → Prop
  | intro {s s₁ s₂ s₃ s₄ : ParseState} {word name semicolon : Token} {value : Option Expr}
      (keyword : Takes .letWord s word s₁) (declares : Takes .identifier s₁ name s₂)
      (initial : ReadsAfter .assignment (ReadsExpr .lowest) s₂ value s₃)
      (ends : Takes .semicolon s₃ semicolon s₄) :
      ReadsLet s ⟨name, value, ⟨word.span.start, s₄.lastEnd⟩⟩ s₄

/-- The first clause of a `for` is read with its semicolon. -/
inductive ReadsStart : ParseState → Option ForStart → ParseState → Prop
  | none {s s₁ : ParseState} {semicolon : Token} (ends : Takes .semicolon s semicolon s₁) :
      ReadsStart s none s₁
  | declare {s s₁ : ParseState} {declaration : LetDecl} (declares : ReadsLet s declaration s₁) :
      ReadsStart s (some (.declare declaration)) s₁
  | evaluate {s s₁ : ParseState} {e : Expr} {span : Span}
      (neither : s.current.kind ≠ .semicolon ∧ s.current.kind ≠ .letWord)
      (evaluates : ReadsEvaluated s (e, span) s₁) : ReadsStart s (some (.evaluate e span)) s₁

/-- What announces an arm of a `switch` is read, up to its colon. -/
inductive ReadsArm : ParseState → Option Expr → ParseState → Prop
  | default {s s₁ s₂ : ParseState} {word colon : Token} (keyword : Takes .defaultWord s word s₁)
      (ends : Takes .colon s₁ colon s₂) : ReadsArm s none s₂
  | value {s s₁ s₂ s₃ : ParseState} {word colon : Token} {e : Expr}
      (keyword : Takes .caseWord s word s₁) (holds : ReadsExpr .lowest s₁ e s₂)
      (ends : Takes .colon s₂ colon s₃) : ReadsArm s (some e) s₃

/-- The name of a superclass is read. -/
inductive ReadsSuperclass : ParseState → Reference → ParseState → Prop
  | intro {s s₁ : ParseState} {token : Token} (name : Takes .identifier s token s₁) :
      ReadsSuperclass s ⟨s₁.given, token⟩ s₁.numbered

mutual

/-- A statement is read. -/
inductive ReadsStmt : ParseState → Stmt → ParseState → Prop
  | nested {s s₁ : ParseState} {stmt : Stmt} (room : s.depth < maxNesting)
      (form : ReadsForm s.opened stmt s₁) : ReadsStmt s stmt (Parse.leave s₁)

/-- A statement is read whose level is open already. -/
inductive ReadsForm : ParseState → Stmt → ParseState → Prop
  | block {s s₁ : ParseState} {body : List Stmt} {span : Span} (holds : ReadsBlock s body span s₁) :
      ReadsForm s (.block body span) s₁
  | letDecl {s s₁ : ParseState} {declaration : LetDecl} (declares : ReadsLet s declaration s₁) :
      ReadsForm s (.letDecl declaration) s₁
  | expression {s s₁ : ParseState} {e : Expr} {span : Span}
      (neither : Rules.standardStatement s.current.kind = none)
      (evaluates : ReadsEvaluated s (e, span) s₁) : ReadsForm s (.expression e span) s₁
  | print {s s₁ s₂ s₃ : ParseState} {word semicolon : Token} {e : Expr}
      (keyword : Takes .printWord s word s₁) (holds : ReadsExpr .lowest s₁ e s₂)
      (ends : Takes .semicolon s₂ semicolon s₃) :
      ReadsForm s (.print e ⟨word.span.start, s₃.lastEnd⟩) s₃
  | ifThen {s s₁ s₂ s₃ : ParseState} {word : Token} {condition : Expr} {thenBody : Stmt}
      (keyword : Takes .ifWord s word s₁) (head : ReadsHead s₁ condition s₂)
      (body : ReadsStmt s₂ thenBody s₃) (ends : s₃.current.kind ≠ .elseWord) :
      ReadsForm s (.ifElse condition thenBody none ⟨word.span.start, s₃.lastEnd⟩) s₃
  | ifElse {s s₁ s₂ s₃ s₄ s₅ : ParseState} {word otherwise : Token} {condition : Expr}
      {thenBody elseBody : Stmt} (keyword : Takes .ifWord s word s₁)
      (head : ReadsHead s₁ condition s₂) (body : ReadsStmt s₂ thenBody s₃)
      (divides : Takes .elseWord s₃ otherwise s₄) (other : ReadsStmt s₄ elseBody s₅) :
      ReadsForm s (.ifElse condition thenBody (some elseBody) ⟨word.span.start, s₅.lastEnd⟩) s₅
  | whileLoop {s s₁ s₂ s₃ : ParseState} {word : Token} {condition : Expr} {body : Stmt}
      (keyword : Takes .whileWord s word s₁) (head : ReadsHead s₁ condition s₂)
      (holds : ReadsStmt s₂ body s₃) :
      ReadsForm s (.whileLoop condition body ⟨word.span.start, s₃.lastEnd⟩) s₃
  | doWhile {s s₁ s₂ s₃ s₄ s₅ : ParseState} {word again semicolon : Token} {body : Stmt}
      {condition : Expr} (keyword : Takes .doWord s word s₁) (holds : ReadsStmt s₁ body s₂)
      (divides : Takes .whileWord s₂ again s₃) (head : ReadsHead s₃ condition s₄)
      (ends : Takes .semicolon s₄ semicolon s₅) :
      ReadsForm s (.doWhile body condition ⟨word.span.start, s₅.lastEnd⟩) s₅
  | forLoop {s s₁ s₂ s₃ s₄ s₅ s₆ s₇ s₈ : ParseState} {word opening semicolon closing : Token}
      {start : Option ForStart} {condition increment : Option Expr} {body : Stmt}
      (keyword : Takes .forWord s word s₁) (opens : Takes .openParen s₁ opening s₂)
      (first : ReadsStart s₂ start s₃)
      (test : ReadsUnless .semicolon (ReadsExpr .lowest) s₃ condition s₄)
      (divides : Takes .semicolon s₄ semicolon s₅)
      (step : ReadsUnless .closeParen (ReadsExpr .lowest) s₅ increment s₆)
      (closes : Takes .closeParen s₆ closing s₇) (holds : ReadsStmt s₇ body s₈) :
      ReadsForm s (.forLoop start condition increment body ⟨word.span.start, s₈.lastEnd⟩) s₈
  | switch {s s₁ s₂ s₃ s₄ s₅ : ParseState} {word opening closing : Token} {subject : Expr}
      {arms : List Case} (keyword : Takes .switchWord s word s₁) (head : ReadsHead s₁ subject s₂)
      (opens : Takes .openCurly s₂ opening s₃) (holds : ReadsCases s₃ arms s₄)
      (closes : Takes .closeCurly s₄ closing s₅) :
      ReadsForm s (.switch subject arms ⟨word.span.start, s₅.lastEnd⟩) s₅
  | breakLoop {s s₁ s₂ : ParseState} {word semicolon : Token}
      (keyword : Takes .breakWord s word s₁) (ends : Takes .semicolon s₁ semicolon s₂) :
      ReadsForm s (.breakLoop word) s₂
  | continueLoop {s s₁ s₂ : ParseState} {word semicolon : Token}
      (keyword : Takes .continueWord s word s₁) (ends : Takes .semicolon s₁ semicolon s₂) :
      ReadsForm s (.continueLoop word) s₂
  | returnValue {s s₁ s₂ s₃ : ParseState} {word semicolon : Token} {value : Option Expr}
      (keyword : Takes .returnWord s word s₁)
      (result : ReadsUnless .semicolon (ReadsExpr .lowest) s₁ value s₂)
      (ends : Takes .semicolon s₂ semicolon s₃) :
      ReadsForm s (.returnValue word value ⟨word.span.start, s₃.lastEnd⟩) s₃
  | function {s s₁ s₂ : ParseState} {word : Token} {declaration : Function}
      (keyword : Takes .fnWord s word s₁)
      (declares : ReadsFunction word.span.start s₁ declaration s₂) :
      ReadsForm s (.function declaration) s₂
  | classDecl {s s₁ s₂ s₃ s₄ s₅ s₆ : ParseState} {word name opening closing : Token}
      {parent : Option Reference} {methods : List Function} (keyword : Takes .classWord s word s₁)
      (declares : Takes .identifier s₁ name s₂)
      (inherits : ReadsAfter .less ReadsSuperclass s₂ parent s₃)
      (opens : Takes .openCurly s₃ opening s₄) (holds : ReadsMethods s₄ methods s₅)
      (closes : Takes .closeCurly s₅ closing s₆) :
      ReadsForm s (.classDecl name parent methods ⟨word.span.start, s₆.lastEnd⟩) s₆

/-- Statements between curly brackets are read, and the stretch that they cover. -/
inductive ReadsBlock : ParseState → List Stmt → Span → ParseState → Prop
  | intro {s s₁ s₂ s₃ : ParseState} {opening closing : Token} {body : List Stmt}
      (opens : Takes .openCurly s opening s₁) (holds : ReadsStmts Parse.endsBlock s₁ body s₂)
      (closes : Takes .closeCurly s₂ closing s₃) :
      ReadsBlock s body ⟨opening.span.start, s₃.lastEnd⟩ s₃

/-- Statements are read up to a kind that stops them. -/
inductive ReadsStmts : (Kind → Bool) → ParseState → List Stmt → ParseState → Prop
  | nil {stop : Kind → Bool} {s : ParseState} (ends : stop s.current.kind) : ReadsStmts stop s [] s
  | cons {stop : Kind → Bool} {s s₁ s₂ : ParseState} {stmt : Stmt} {rest : List Stmt}
      (goes : stop s.current.kind = false) (first : ReadsStmt s stmt s₁)
      (others : ReadsStmts stop s₁ rest s₂) : ReadsStmts stop s (stmt :: rest) s₂

/-- The arms of a `switch` are read up to its closing bracket. -/
inductive ReadsCases : ParseState → List Case → ParseState → Prop
  | nil {s : ParseState} (ends : s.current.kind = .closeCurly) : ReadsCases s [] s
  | cons {s s₁ s₂ s₃ : ParseState} {value : Option Expr} {body : List Stmt} {rest : List Case}
      (goes : s.current.kind ≠ .closeCurly) (arm : ReadsArm s value s₁)
      (holds : ReadsStmts Parse.endsCase s₁ body s₂) (others : ReadsCases s₂ rest s₃) :
      ReadsCases s (.mk value body ⟨s.current.span.start, s₂.lastEnd⟩ :: rest) s₃

/-- A function is read from its name on. -/
inductive ReadsFunction : Position → ParseState → Function → ParseState → Prop
  | intro {start : Position} {s s₁ s₂ s₃ s₄ s₅ : ParseState} {name opening closing : Token}
      {parameters : List Token} {body : List Stmt} {span : Span}
      (declares : Takes .identifier s name s₁) (opens : Takes .openParen s₁ opening s₂)
      (names : ReadsParameters s₂ parameters s₃) (closes : Takes .closeParen s₃ closing s₄)
      (holds : ReadsBlock s₄ body span s₅) :
      ReadsFunction start s (.mk name parameters body ⟨start, s₅.lastEnd⟩) s₅

/-- Methods are read up to the closing bracket of their class. -/
inductive ReadsMethods : ParseState → List Function → ParseState → Prop
  | nil {s : ParseState} (ends : Parse.endsBlock s.current.kind) : ReadsMethods s [] s
  | cons {s s₁ s₂ : ParseState} {method : Function} {rest : List Function}
      (goes : Parse.endsBlock s.current.kind = false)
      (first : ReadsFunction s.current.span.start s method s₁) (others : ReadsMethods s₁ rest s₂) :
      ReadsMethods s (method :: rest) s₂

end

namespace Takes

variable {kind : Kind} {s s' : ParseState} {token : Token}

theorem spans_of_fits (h : Takes kind s token s') {sign : Sign} (hf : sign.Fits token) :
    Spans s [sign] s' := by
  intro tokens i ha
  rw [h.next, List.length_singleton]
  exact ⟨ha.advance h.more, ⟨token, by rw [ha.getElem?, h.current], hf⟩, trivial⟩

/-- A token that the tree keeps. -/
theorem spans_kept (h : Takes kind s token s') : Spans s [.kept token] s' :=
  h.spans_of_fits ⟨h.kind_eq ▸ h.proper, rfl⟩

/-- A token of which the tree only knows the kind. -/
theorem spans_ofKind (h : Takes kind s token s') : Spans s [.ofKind kind] s' :=
  h.spans_of_fits ⟨h.kind_eq ▸ h.proper, h.kind_eq⟩

theorem given_eq (h : Takes kind s token s') : s'.given = s.given := by
  rw [h.next, ParseState.advance_given]

theorem length_after (h : Takes kind s token s') : s'.after.length + 1 = s.after.length := by
  obtain ⟨next, rest, hafter⟩ := List.exists_cons_of_ne_nil h.more
  simp [h.next, ParseState.advance, hafter]

theorem depth_eq (h : Takes kind s token s') : s'.depth = s.depth := by
  rw [h.next, ParseState.advance_depth]

end Takes
end LexicalScoping
