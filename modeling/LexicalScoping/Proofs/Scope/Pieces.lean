import LexicalScoping.Scope.Resolve

/-!
# The pieces of a program

For resolving a program it does not matter how its expressions are built, or which statement a body
without brackets belongs to. What matters are its pieces: the names that it declares, each with what
its initial value mentions, the names mentioned elsewhere, the keywords that are not allowed
everywhere, and the constructs that lie around other pieces. `follow` resolves a program piece by
piece, and `statements_eq_followAll` says that this is the walk over the program. What holds of the
walk can so be shown by induction on pieces, of which only one kind has others inside.
-/
namespace LexicalScoping

/-- A numbered use of a name in an expression. -/
inductive Mention
  | reads (target : Reference)
  | assigns (target : Reference)
  | selfRef (id : Nat) (keyword : Token)
  | superRef (id : Nat) (keyword : Token)
deriving DecidableEq

namespace Mention

def id : Mention → Nat
  | reads target => target.id
  | assigns target => target.id
  | selfRef id _ => id
  | superRef id _ => id

/-- The token that a diagnostic about the mention stands at. -/
def token : Mention → Token
  | reads target => target.name
  | assigns target => target.name
  | selfRef _ keyword => keyword
  | superRef _ keyword => keyword

def isAssignment : Mention → Bool
  | assigns _ => true
  | _ => false

end Mention

mutual

/-- The mentions in an expression in order, the target of an assignment behind its value. -/
def Expr.mentions : Expr → List Mention
  | .literal _ _ => []
  | .read target => [.reads target]
  | .assign target value _ => value.mentions ++ [.assigns target]
  | .binary _ left _ right _ => left.mentions ++ right.mentions
  | .unary _ operand _ => operand.mentions
  | .grouping content _ => content.mentions
  | .conditional condition thenBranch elseBranch _ =>
    condition.mentions ++ (thenBranch.mentions ++ elseBranch.mentions)
  | .call callee arguments _ => callee.mentions ++ Expr.mentionsAll arguments
  | .get object _ _ => object.mentions
  | .set object _ value _ => object.mentions ++ value.mentions
  | .superMethod id keyword _ _ => [.superRef id keyword]
  | .selfRef id keyword => [.selfRef id keyword]

def Expr.mentionsAll : List Expr → List Mention
  | [] => []
  | e :: rest => e.mentions ++ Expr.mentionsAll rest

end

def Expr.mentions? : Option Expr → List Mention
  | none => []
  | some e => e.mentions

/-- The superclass is mentioned as a variable that is read. -/
def superclassMentions : Option Reference → List Mention
  | none => []
  | some parent => [.reads parent]

/-- What can lie around a piece of a program. -/
inductive Construct
  | block
  /-- The body of a loop. -/
  | loop
  /-- The arms of a `switch`, each of which is a block. -/
  | switch
  | function
  | method (name : Token)
  /-- Around the body of a class that has a superclass. -/
  | inheritance
  | classBody (hasSuperclass : Bool)
deriving DecidableEq

/-- Whether a construct is a scope of its own. -/
def Construct.opensScope : Construct → Bool
  | loop => false
  | switch => false
  | _ => true

/-- A piece of a program. -/
inductive Piece
  /-- A name is declared; what its initial value mentions, or the superclass, is read meanwhile. -/
  | declares (name : Token) (value : List Mention)
  /-- A scope holds a name that nothing in the program declares. -/
  | provides (name : String)
  | mentions (list : List Mention)
  | breaks (keyword : Token)
  | continues (keyword : Token)
  /-- A `return`, with what its value mentions if it has one. -/
  | returns (keyword : Token) (value : Option (List Mention))
  | within (construct : Construct) (body : List Piece)

mutual

/-- All mentions in a piece of a program, in order. -/
def Piece.allMentions : Piece → List Mention
  | .declares _ value => value
  | .mentions list => list
  | .returns _ (some list) => list
  | .within _ body => Piece.allMentionsIn body
  | _ => []

def Piece.allMentionsIn : List Piece → List Mention
  | [] => []
  | piece :: rest => piece.allMentions ++ Piece.allMentionsIn rest

end

theorem Piece.allMentionsIn_append (front back : List Piece) :
    allMentionsIn (front ++ back) = allMentionsIn front ++ allMentionsIn back := by
  induction front with
  | nil => rfl
  | cons piece front ih => simp [allMentionsIn, ih]

/-- Parameters mention nothing. -/
theorem Piece.allMentionsIn_parameters (names : List Token) :
    allMentionsIn (names.map fun name => .declares name []) = [] := by
  induction names with
  | nil => rfl
  | cons name names ih => simp [allMentionsIn, allMentions, ih]

def LetDecl.piece (declaration : LetDecl) : Piece :=
  .declares declaration.name (Expr.mentions? declaration.value)

def ForStart.pieces : Option ForStart → List Piece
  | none => []
  | some (.declare declaration) => [declaration.piece]
  | some (.evaluate e _) => [.mentions e.mentions]

/-- A class is declared outside of the scopes that hold `super`, if there is a superclass, and
`self`. -/
def classPieces (name : Token) (superclass : Option Reference) (methods : List Piece) :
    List Piece :=
  .declares name (superclassMentions superclass) ::
    match superclass with
    | none => [.within (.classBody false) (.provides selfName :: methods)]
    | some _ =>
      [.within .inheritance
        [.provides superName, .within (.classBody true) (.provides selfName :: methods)]]

mutual

/-- The pieces of a statement in order. -/
def Stmt.pieces : Stmt → List Piece
  | .block body _ => [.within .block (Stmt.piecesAll body)]
  | .letDecl declaration => [declaration.piece]
  | .expression e _ => [.mentions e.mentions]
  | .print e _ => [.mentions e.mentions]
  | .ifElse condition thenBody none _ => .mentions condition.mentions :: thenBody.pieces
  | .ifElse condition thenBody (some elseBody) _ =>
    .mentions condition.mentions :: (thenBody.pieces ++ elseBody.pieces)
  | .whileLoop condition body _ => [.mentions condition.mentions, .within .loop body.pieces]
  | .doWhile body condition _ => [.within .loop body.pieces, .mentions condition.mentions]
  | .forLoop start condition increment body _ =>
    ForStart.pieces start ++ [.mentions (Expr.mentions? condition),
      .mentions (Expr.mentions? increment), .within .loop body.pieces]
  | .switch subject arms _ => [.mentions subject.mentions, .within .switch (Case.pieces arms)]
  | .breakLoop keyword => [.breaks keyword]
  | .continueLoop keyword => [.continues keyword]
  | .returnValue keyword value _ => [.returns keyword (value.map Expr.mentions)]
  | .function declaration =>
    [.declares declaration.name [], .within .function declaration.pieces]
  | .classDecl name superclass methods _ =>
    classPieces name superclass (Function.methodPieces methods)

def Stmt.piecesAll : List Stmt → List Piece
  | [] => []
  | s :: rest => s.pieces ++ Stmt.piecesAll rest

/-- The pieces of the arms of a `switch`. The value of an arm is outside of its block. -/
def Case.pieces : List Case → List Piece
  | [] => []
  | .mk value body _ :: rest =>
    .mentions (Expr.mentions? value) :: .within .block (Stmt.piecesAll body) :: Case.pieces rest

/-- The pieces inside a function, its parameters first. -/
def Function.pieces : Function → List Piece
  | .mk _ parameters body _ =>
    parameters.map (fun parameter => .declares parameter []) ++ Stmt.piecesAll body

/-- The methods of a class. Their names are not declared. -/
def Function.methodPieces : List Function → List Piece
  | [] => []
  | method :: rest => .within (.method method.name) method.pieces :: Function.methodPieces rest

end

/-- What is inside a construct in the given surroundings is surrounded by. -/
def Construct.inner (context : Context) : Construct → Context
  | block => context
  | loop => context.inLoop .loop
  | switch => context.inLoop .switch
  | function => context.inFunction .function
  | method name => context.inFunction (Walk.methodKind name)
  | inheritance => context
  | classBody hasSuperclass => context.inClass (if hasSuperclass then .subclass else .plain)

namespace Walk

/-- What the walk does at a mention. -/
def mention (context : Context) (walk : Walk) : Mention → Walk
  | .reads target => walk.read target
  | .assigns target => walk.bind target.id target.name.text
  | .selfRef id keyword => walk.readSelf context id keyword
  | .superRef id keyword => walk.readSuper context id keyword

def mentionAll (context : Context) (walk : Walk) (list : List Mention) : Walk :=
  list.foldl (mention context) walk

mutual

/-- What the walk does at a piece of a program. -/
def follow (context : Context) (walk : Walk) : Piece → Walk
  | .declares name value => ((walk.declare name).mentionAll context value).define name.text
  | .provides name => walk.define name
  | .mentions list => walk.mentionAll context list
  | .breaks keyword => walk.reportIf (context.loop = .none) keyword .breakOutsideLoop
  | .continues keyword => walk.reportIf (context.loop = .none) keyword .continueOutsideLoop
  | .returns keyword none =>
    walk.reportIf (context.function = .none) keyword .returnOutsideFunction
  | .returns keyword (some list) =>
    let walk := (walk.reportIf (context.function = .none) keyword .returnOutsideFunction).reportIf
      (context.function = .initializer) keyword .returnValueFromInitializer
    if context.function = .none then walk else walk.mentionAll context list
  | .within construct body =>
    if construct.opensScope then
      (walk.enterScope.followAll (construct.inner context) body).leaveScope
    else walk.followAll (construct.inner context) body

def followAll (context : Context) (walk : Walk) : List Piece → Walk
  | [] => walk
  | piece :: rest => (walk.follow context piece).followAll context rest

end

theorem mentionAll_append (context : Context) (walk : Walk) (front back : List Mention) :
    walk.mentionAll context (front ++ back) =
      (walk.mentionAll context front).mentionAll context back := List.foldl_append

theorem followAll_append (context : Context) (walk : Walk) (front back : List Piece) :
    walk.followAll context (front ++ back) =
      (walk.followAll context front).followAll context back := by
  induction front generalizing walk with
  | nil => rfl
  | cons piece front ih => exact ih (walk.follow context piece)

mutual

/-- The walk over an expression is the walk over its mentions. -/
theorem expression_eq_mentionAll (context : Context) (walk : Walk) :
    ∀ e : Expr, walk.expression context e = walk.mentionAll context e.mentions
  | .literal _ _ => rfl
  | .read _ => rfl
  | .assign _ value _ => by
    rw [expression, Expr.mentions, mentionAll_append, expression_eq_mentionAll context walk value]
    rfl
  | .binary _ left _ right _ => by
    simp only [expression, Expr.mentions, mentionAll_append, expression_eq_mentionAll]
  | .unary _ operand _ => expression_eq_mentionAll context walk operand
  | .grouping content _ => expression_eq_mentionAll context walk content
  | .conditional condition thenBranch elseBranch _ => by
    simp only [expression, Expr.mentions, mentionAll_append, expression_eq_mentionAll]
  | .call callee arguments _ => by
    simp only [expression, Expr.mentions, mentionAll_append, expression_eq_mentionAll,
      expressions_eq_mentionAll]
  | .get object _ _ => expression_eq_mentionAll context walk object
  | .set object _ value _ => by
    simp only [expression, Expr.mentions, mentionAll_append, expression_eq_mentionAll]
  | .superMethod _ _ _ _ => rfl
  | .selfRef _ _ => rfl

theorem expressions_eq_mentionAll (context : Context) (walk : Walk) :
    ∀ list : List Expr,
      walk.expressions context list = walk.mentionAll context (Expr.mentionsAll list)
  | [] => rfl
  | e :: rest => by
    simp only [expressions, Expr.mentionsAll, mentionAll_append, expression_eq_mentionAll,
      expressions_eq_mentionAll]

end

theorem expression?_eq_mentionAll (context : Context) (walk : Walk) (value : Option Expr) :
    walk.expression? context value = walk.mentionAll context (Expr.mentions? value) := by
  cases value with
  | none => rfl
  | some e => exact expression_eq_mentionAll context walk e

theorem letDecl_eq_follow (context : Context) (walk : Walk) (declaration : LetDecl) :
    walk.letDecl context declaration = walk.follow context declaration.piece := by
  simp only [letDecl, LetDecl.piece, follow, expression?_eq_mentionAll]

theorem forStart_eq_followAll (context : Context) (walk : Walk) (start : Option ForStart) :
    walk.forStart context start = walk.followAll context (ForStart.pieces start) := by
  rcases start with _ | declaration | ⟨e, span⟩
  · rfl
  · exact letDecl_eq_follow context walk declaration
  · exact expression_eq_mentionAll context walk e

theorem returnValue_eq_follow (context : Context) (walk : Walk) (keyword : Token)
    (value : Option Expr) : walk.returnValue context keyword value =
      walk.follow context (.returns keyword (value.map Expr.mentions)) := by
  cases value with
  | none => rfl
  | some e => simp only [returnValue, Option.map_some, follow, expression_eq_mentionAll]

/-- Opening a function is following its parameters in a new scope. -/
theorem enterFunction_eq_followAll (context : Context) (walk : Walk) (parameters : List Token) :
    walk.enterFunction parameters = walk.enterScope.followAll context
      (parameters.map fun parameter => .declares parameter []) := by
  unfold enterFunction
  generalize walk.enterScope = inner
  induction parameters generalizing inner with
  | nil => rfl
  | cons parameter parameters ih => exact ih (inner.declareDefined parameter)

/-- A class is declared, opened and closed as its pieces say. -/
theorem class_eq_followAll (context : Context) (walk : Walk) (name : Token)
    (superclass : Option Reference) {within : Walk → Walk} {methods : List Piece}
    (hmethods : ∀ walk : Walk, within walk =
      walk.followAll (context.inClass (classKindOf superclass)) methods) :
    (within (walk.enterClass name superclass)).leaveClass superclass =
      walk.followAll context (classPieces name superclass methods) := by
  cases superclass with
  | none => rw [hmethods]; rfl
  | some parent => rw [hmethods]; rfl

mutual

/-- The walk over a statement is the walk over its pieces. -/
theorem statement_eq_followAll (context : Context) (walk : Walk) :
    ∀ s : Stmt, walk.statement context s = walk.followAll context s.pieces
  | .block body _ => by
    rw [statement, statements_eq_followAll context walk.enterScope body]
    rfl
  | .letDecl declaration => letDecl_eq_follow context walk declaration
  | .expression e _ => expression_eq_mentionAll context walk e
  | .print e _ => expression_eq_mentionAll context walk e
  | .ifElse condition thenBody none _ => by
    rw [statement, expression_eq_mentionAll, statement_eq_followAll context _ thenBody]
    rfl
  | .ifElse condition thenBody (some elseBody) _ => by
    rw [statement, expression_eq_mentionAll, statement_eq_followAll context _ thenBody,
      statement_eq_followAll context _ elseBody, ← followAll_append]
    rfl
  | .whileLoop condition body _ => by
    rw [statement, expression_eq_mentionAll, statement_eq_followAll _ _ body]
    rfl
  | .doWhile body condition _ => by
    rw [statement, expression_eq_mentionAll, statement_eq_followAll _ _ body]
    rfl
  | .forLoop start condition increment body _ => by
    rw [statement, forStart_eq_followAll, expression?_eq_mentionAll, expression?_eq_mentionAll,
      statement_eq_followAll _ _ body, Stmt.pieces, followAll_append]
    rfl
  | .switch subject arms _ => by
    rw [statement, expression_eq_mentionAll, cases_eq_followAll _ _ arms]
    rfl
  | .breakLoop _ => rfl
  | .continueLoop _ => rfl
  | .returnValue keyword value _ => returnValue_eq_follow context walk keyword value
  | .function (.mk name parameters body span) =>
    function_eq_followAll context (walk.declareDefined name) .function
      (.mk name parameters body span)
  | .classDecl name superclass list _ =>
    class_eq_followAll context walk name superclass fun walk =>
      methods_eq_followAll (context.inClass (classKindOf superclass)) walk list

theorem statements_eq_followAll (context : Context) (walk : Walk) :
    ∀ list : List Stmt,
      walk.statements context list = walk.followAll context (Stmt.piecesAll list)
  | [] => rfl
  | s :: rest => by
    rw [statements, Stmt.piecesAll, followAll_append, statement_eq_followAll context walk s,
      statements_eq_followAll context _ rest]

theorem cases_eq_followAll (context : Context) (walk : Walk) :
    ∀ arms : List Case, walk.cases context arms = walk.followAll context (Case.pieces arms)
  | [] => rfl
  | .mk value body _ :: rest => by
    rw [cases, expression?_eq_mentionAll, statements_eq_followAll context _ body,
      cases_eq_followAll context _ rest]
    rfl

/-- A function of which the name has been declared. -/
theorem function_eq_followAll (context : Context) (walk : Walk) (kind : FunctionKind) :
    ∀ f : Function, ((walk.enterFunction f.parameters).statements (context.inFunction kind)
        f.body).leaveScope =
      (walk.enterScope.followAll (context.inFunction kind) f.pieces).leaveScope
  | .mk name parameters body _ => by
    rw [Function.pieces, followAll_append, ← enterFunction_eq_followAll,
      ← statements_eq_followAll _ _ body]
    rfl

theorem methods_eq_followAll (context : Context) (walk : Walk) :
    ∀ list : List Function,
      walk.methods context list = walk.followAll context (Function.methodPieces list)
  | [] => rfl
  | .mk name parameters body span :: rest => by
    have hmethod := function_eq_followAll context walk (methodKind name)
      (.mk name parameters body span)
    rw [Function.methodPieces, followAll, ← methods_eq_followAll context _ rest]
    exact congrArg (fun walk => methods context walk rest) hmethod

end

end Walk
end LexicalScoping
