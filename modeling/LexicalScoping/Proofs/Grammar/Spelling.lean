import LexicalScoping.Tree.Basic

/-!
# How trees are spelled

A tree keeps some of the tokens that it was read from and forgets the others: a name, an operator
and some keywords are kept as they are, a literal is kept by its value and place, and of the other
keywords and the punctuation only the kind is known. The spelling of a tree lists what it says about
its tokens, in order, as the grammar writes it down.
-/
namespace LexicalScoping

/-- The kinds of literals. -/
def Kind.isLiteral : Kind → Bool
  | .number | .string | .trueWord | .falseWord | .nilWord => true
  | _ => false

/-- A token of which only the kind and the text matter. -/
def Token.bare (kind : Kind) (text : String) : Token := ⟨kind, text, none, default⟩

/-- What a tree says about one token of its text. -/
inductive Sign
  | ofKind (kind : Kind)
  | kept (token : Token)
  | literal (value : Literal) (span : Span)

/-- The token can stand where the tree has the sign. The end of input stands nowhere in a tree. -/
def Sign.Fits (sign : Sign) (token : Token) : Prop :=
  token.kind ≠ .endOfInput ∧
    match sign with
    | .ofKind kind => token.kind = kind
    | .kept same => token = same
    | .literal value span => token.kind.isLiteral ∧ token.literal = some value ∧ token.span = span

instance (sign : Sign) (token : Token) : Decidable (sign.Fits token) :=
  match sign with
  | .ofKind kind => inferInstanceAs (Decidable (token.kind ≠ .endOfInput ∧ token.kind = kind))
  | .kept same => inferInstanceAs (Decidable (token.kind ≠ .endOfInput ∧ token = same))
  | .literal value span => inferInstanceAs (Decidable (token.kind ≠ .endOfInput ∧
      token.kind.isLiteral ∧ token.literal = some value ∧ token.span = span))

/-- Spellings with a comma between any two. -/
def withCommas : List (List Sign) → List Sign
  | [] => []
  | [signs] => signs
  | signs :: next :: rest => signs ++ .ofKind .comma :: withCommas (next :: rest)

mutual

def Expr.spelling : Expr → List Sign
  | .literal value span => [.literal value span]
  | .read target => [.kept target.name]
  | .assign target value _ => .kept target.name :: .ofKind .assignment :: value.spelling
  | .binary _ left operator right _ => left.spelling ++ .kept operator :: right.spelling
  | .unary operator operand _ => .kept operator :: operand.spelling
  | .grouping content _ => .ofKind .openParen :: (content.spelling ++ [.ofKind .closeParen])
  | .conditional condition thenBranch elseBranch _ =>
    condition.spelling ++
      .ofKind .question :: (thenBranch.spelling ++ .ofKind .colon :: elseBranch.spelling)
  | .call callee arguments _ =>
    callee.spelling ++
      .ofKind .openParen :: (withCommas (Expr.spellings arguments) ++ [.ofKind .closeParen])
  | .get object name _ => object.spelling ++ [.ofKind .dot, .kept name]
  | .set object name value _ =>
    object.spelling ++ .ofKind .dot :: .kept name :: .ofKind .assignment :: value.spelling
  | .superMethod _ keyword method _ => [.kept keyword, .ofKind .dot, .kept method]
  | .selfRef _ keyword => [.kept keyword]

/-- The spelling of each expression. -/
def Expr.spellings : List Expr → List (List Sign)
  | [] => []
  | e :: rest => e.spelling :: Expr.spellings rest

end

/-- The spelling of what follows a mark, if it is there. -/
def afterMark (kind : Kind) : Option Expr → List Sign
  | none => []
  | some e => .ofKind kind :: e.spelling

def Expr.spelling? : Option Expr → List Sign
  | none => []
  | some e => e.spelling

def LetDecl.spelling (declaration : LetDecl) : List Sign :=
  .ofKind .letWord :: .kept declaration.name ::
    (afterMark .assignment declaration.value ++ [.ofKind .semicolon])

/-- The first clause of a `for` with its semicolon. -/
def ForStart.spelling : Option ForStart → List Sign
  | none => [.ofKind .semicolon]
  | some (.declare declaration) => declaration.spelling
  | some (.evaluate e _) => e.spelling ++ [.ofKind .semicolon]

/-- An expression between parentheses. -/
def headSpelling (e : Expr) : List Sign :=
  .ofKind .openParen :: (e.spelling ++ [.ofKind .closeParen])

/-- What announces an arm of a `switch`. -/
def armSpelling : Option Expr → List Sign
  | none => [.ofKind .defaultWord, .ofKind .colon]
  | some e => .ofKind .caseWord :: (e.spelling ++ [.ofKind .colon])

/-- The name of a function and its parameters. -/
def signatureSpelling (name : Token) (parameters : List Token) : List Sign :=
  .kept name :: .ofKind .openParen ::
    (withCommas (parameters.map fun parameter => [.kept parameter]) ++ [.ofKind .closeParen])

def superclassSpelling : Option Reference → List Sign
  | none => []
  | some parent => [.ofKind .less, .kept parent.name]

mutual

def Stmt.spelling : Stmt → List Sign
  | .block body _ => .ofKind .openCurly :: (Stmt.spellings body ++ [.ofKind .closeCurly])
  | .letDecl declaration => declaration.spelling
  | .expression e _ => e.spelling ++ [.ofKind .semicolon]
  | .print e _ => .ofKind .printWord :: (e.spelling ++ [.ofKind .semicolon])
  | .ifElse condition thenBody none _ =>
    .ofKind .ifWord :: (headSpelling condition ++ thenBody.spelling)
  | .ifElse condition thenBody (some elseBody) _ =>
    .ofKind .ifWord ::
      (headSpelling condition ++ (thenBody.spelling ++ .ofKind .elseWord :: elseBody.spelling))
  | .whileLoop condition body _ =>
    .ofKind .whileWord :: (headSpelling condition ++ body.spelling)
  | .doWhile body condition _ =>
    .ofKind .doWord ::
      (body.spelling ++ .ofKind .whileWord :: (headSpelling condition ++ [.ofKind .semicolon]))
  | .forLoop start condition increment body _ =>
    .ofKind .forWord :: .ofKind .openParen ::
      (ForStart.spelling start ++ (Expr.spelling? condition ++ .ofKind .semicolon ::
        (Expr.spelling? increment ++ .ofKind .closeParen :: body.spelling)))
  | .switch subject arms _ =>
    .ofKind .switchWord ::
      (headSpelling subject ++ .ofKind .openCurly ::
        (Case.spellings arms ++ [.ofKind .closeCurly]))
  | .breakLoop keyword => [.kept keyword, .ofKind .semicolon]
  | .continueLoop keyword => [.kept keyword, .ofKind .semicolon]
  | .returnValue keyword value _ =>
    .kept keyword :: (Expr.spelling? value ++ [.ofKind .semicolon])
  | .function declaration => .ofKind .fnWord :: declaration.spelling
  | .classDecl name superclass methods _ =>
    .ofKind .classWord :: .kept name :: (superclassSpelling superclass ++ .ofKind .openCurly ::
      (Function.spellings methods ++ [.ofKind .closeCurly]))

/-- Statements one after the other. -/
def Stmt.spellings : List Stmt → List Sign
  | [] => []
  | s :: rest => s.spelling ++ Stmt.spellings rest

/-- The arms of a `switch` one after the other. -/
def Case.spellings : List Case → List Sign
  | [] => []
  | .mk value body _ :: rest =>
    armSpelling value ++ (Stmt.spellings body ++ Case.spellings rest)

/-- A function from its name on. -/
def Function.spelling : Function → List Sign
  | .mk name parameters body _ =>
    signatureSpelling name parameters ++
      .ofKind .openCurly :: (Stmt.spellings body ++ [.ofKind .closeCurly])

/-- Methods one after the other. -/
def Function.spellings : List Function → List Sign
  | [] => []
  | f :: rest => f.spelling ++ Function.spellings rest

end

/-- No expression is spelled by nothing. -/
theorem Expr.spelling_ne_nil (e : Expr) : e.spelling ≠ [] := by
  cases e <;> simp [Expr.spelling]

/-- No statement is spelled by nothing. -/
theorem Stmt.spelling_ne_nil (s : Stmt) : s.spelling ≠ [] := by
  cases s with
  | ifElse condition thenBody elseBody span => cases elseBody <;> simp [Stmt.spelling]
  | _ => simp [Stmt.spelling, LetDecl.spelling]

theorem armSpelling_ne_nil (value : Option Expr) : armSpelling value ≠ [] := by
  cases value <;> simp [armSpelling]

theorem Function.spelling_ne_nil (f : Function) : f.spelling ≠ [] := by
  obtain ⟨name, parameters, body, span⟩ := f
  simp [Function.spelling]

theorem withCommas_cons {signs : List Sign} {rest : List (List Sign)} (h : rest ≠ []) :
    withCommas (signs :: rest) = signs ++ .ofKind .comma :: withCommas rest := by
  cases rest with
  | nil => contradiction
  | cons next rest => rfl

end LexicalScoping
