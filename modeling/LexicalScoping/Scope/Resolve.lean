import LexicalScoping.Scope.Context
import LexicalScoping.Scope.Event
import LexicalScoping.Scope.Stack
import LexicalScoping.Tree.Basic

/-!
# Resolving a program

One walk over a program, from left to right and into everything before going on, opens and closes
scopes, records how far out each local reference finds its name, and reports what is not allowed
where it stands. The walk never stops early. Each step is a function from one state of the walk to
the next.
-/
namespace LexicalScoping

/-- The name that the methods of a class find their receiver under. -/
def selfName : String := "self"

/-- The name that the methods of a subclass find their superclass under. -/
def superName : String := "super"

/-- The method of this name is the initializer of its class. -/
def initializerName : String := "init"

/-- How far a walk has come. -/
structure Walk where
  scopes : Scopes
  bindings : Bindings
  diagnostics : Array Diagnostic
  events : Array Event
deriving Inhabited

namespace Walk

/-- Before the first step, with what has been reported elsewhere. -/
def begin (reported : Array Diagnostic) : Walk := ⟨.empty, .empty, reported, #[]⟩

def log (event : Event) (walk : Walk) : Walk := { walk with events := walk.events.push event }

def report (diagnostic : Diagnostic) (walk : Walk) : Walk :=
  { walk.log (.reported diagnostic) with diagnostics := walk.diagnostics.push diagnostic }

/-- Reports the cause at the token if the condition holds. -/
def reportIf (condition : Bool) (token : Token) (cause : Cause) (walk : Walk) : Walk :=
  if condition then walk.report (token.diagnostic cause) else walk

def enterScope (walk : Walk) : Walk :=
  let scopes := walk.scopes.enter
  { walk.log (.entered scopes.depth) with scopes }

def leaveScope (walk : Walk) : Walk :=
  let scopes := walk.scopes.leave
  { walk.log (.left scopes.depth) with scopes }

/-- Declares a name, or reports that it is declared already. -/
def declare (name : Token) (walk : Walk) : Walk :=
  match walk.scopes.tryDeclare name with
  | (.ok (), scopes) => { walk with scopes }
  | (.error diagnostic, scopes) => { walk with scopes }.report diagnostic

/-- A name that the innermost scope holds is reported, and nothing else changes. -/
theorem declare_of_holds {walk : Walk} {frame : Frame} {outer : List Frame} {name : Token}
    (hframes : walk.scopes.frames = frame :: outer) (h : frame.holds name.text) :
    walk.declare name =
      walk.report (name.diagnostic (.variableAlreadyDeclared name.text)) := by
  obtain ⟨⟨frames⟩, bindings, diagnostics, events⟩ := walk
  obtain rfl : frames = frame :: outer := hframes
  rw [declare, Scopes.tryDeclare_of_holds outer h]

theorem declare_of_not_holds {walk : Walk} {frame : Frame} {outer : List Frame} {name : Token}
    (hframes : walk.scopes.frames = frame :: outer) (h : ¬ frame.holds name.text) :
    walk.declare name =
      { walk with scopes := ⟨frame.set name.text .declared :: outer⟩ } := by
  obtain ⟨⟨frames⟩, bindings, diagnostics, events⟩ := walk
  obtain rfl : frames = frame :: outer := hframes
  rw [declare, Scopes.tryDeclare_of_not_holds outer h]

def define (name : String) (walk : Walk) : Walk :=
  { walk with scopes := walk.scopes.define name }

/-- Looks a name up for the reference of the given number. -/
def bind (id : Nat) (name : String) (walk : Walk) : Walk :=
  match walk.scopes.resolveReference id name walk.bindings with
  | (some distance, bindings) => { walk.log (.bound id name distance) with bindings }
  | (none, _) => walk

/-- A read of a variable. In the initial value of its own innermost declaration it is an error, but
it is looked up all the same. -/
def read (target : Reference) (walk : Walk) : Walk :=
  (walk.reportIf (walk.scopes.stateInnermost? target.name.text = some .declared) target.name
    (.readInOwnInitializer target.name.text)).bind target.id target.name.text

/-- A use of `self`, which is not looked up outside of a class. -/
def readSelf (context : Context) (id : Nat) (keyword : Token) (walk : Walk) : Walk :=
  if context.classKind = .none then walk.report (keyword.diagnostic .selfOutsideClass)
  else walk.bind id selfName

/-- A use of `super`, which is looked up wherever it stands. -/
def readSuper (context : Context) (id : Nat) (keyword : Token) (walk : Walk) : Walk :=
  ((walk.reportIf (context.classKind = .none) keyword .superOutsideClass).reportIf
    (context.classKind = .plain) keyword .superWithoutSuperclass).bind id superName

mutual

/-- Walks over an expression. -/
def expression (context : Context) (walk : Walk) : Expr → Walk
  | .literal _ _ => walk
  | .read target => walk.read target
  | .assign target value _ => (walk.expression context value).bind target.id target.name.text
  | .binary _ left _ right _ => (walk.expression context left).expression context right
  | .unary _ operand _ => walk.expression context operand
  | .grouping content _ => walk.expression context content
  | .conditional condition thenBranch elseBranch _ =>
    ((walk.expression context condition).expression context thenBranch).expression context
      elseBranch
  | .call callee arguments _ => (walk.expression context callee).expressions context arguments
  | .get object _ _ => walk.expression context object
  | .set object _ value _ => (walk.expression context object).expression context value
  | .superMethod id keyword _ _ => walk.readSuper context id keyword
  | .selfRef id keyword => walk.readSelf context id keyword

/-- Walks over expressions in order. -/
def expressions (context : Context) (walk : Walk) : List Expr → Walk
  | [] => walk
  | e :: rest => (walk.expression context e).expressions context rest

end

/-- Walks over an expression, if there is one. -/
def expression? (context : Context) (walk : Walk) : Option Expr → Walk
  | none => walk
  | some e => walk.expression context e

/-- A variable is declared before its initial value and readable after it. -/
def letDecl (context : Context) (walk : Walk) (declaration : LetDecl) : Walk :=
  ((walk.declare declaration.name).expression? context declaration.value).define
    declaration.name.text

/-- The first clause of a `for` belongs to the scope around the loop. -/
def forStart (context : Context) (walk : Walk) : Option ForStart → Walk
  | none => walk
  | some (.declare declaration) => walk.letDecl context declaration
  | some (.evaluate e _) => walk.expression context e

/-- The value of a `return` is looked into only inside a function. -/
def returnValue (context : Context) (walk : Walk) (keyword : Token) (value : Option Expr) : Walk :=
  let walk := walk.reportIf (context.function = .none) keyword .returnOutsideFunction
  match value with
  | none => walk
  | some e =>
    let walk := walk.reportIf (context.function = .initializer) keyword .returnValueFromInitializer
    if context.function = .none then walk else walk.expression context e

/-- Declares a name that can be read at once. -/
def declareDefined (name : Token) (walk : Walk) : Walk := (walk.declare name).define name.text

/-- Opens the scope of a function with its parameters. -/
def enterFunction (parameters : List Token) (walk : Walk) : Walk :=
  parameters.foldl (fun walk parameter => walk.declareDefined parameter) walk.enterScope

/-- The class that a class declaration is, by whether it names a superclass. -/
def classKindOf : Option Reference → ClassKind
  | none => .plain
  | some _ => .subclass

/-- Declares a class and opens its scopes. The superclass is read while the class is only declared.
The names `super`, if there is a superclass, and `self` get a scope each. -/
def enterClass (name : Token) (superclass : Option Reference) (walk : Walk) : Walk :=
  let walk := walk.declare name
  let walk := match superclass with
    | none => walk.define name.text
    | some parent => (((walk.read parent).define name.text).enterScope).define superName
  walk.enterScope.define selfName

/-- Closes the scopes of a class. -/
def leaveClass (superclass : Option Reference) (walk : Walk) : Walk :=
  match superclass with
  | none => walk.leaveScope
  | some _ => walk.leaveScope.leaveScope

/-- What a method is, by its name. -/
def methodKind (name : Token) : FunctionKind :=
  if name.text = initializerName then .initializer else .method

mutual

/-- Walks over a statement. -/
def statement (context : Context) (walk : Walk) : Stmt → Walk
  | .block body _ => (walk.enterScope.statements context body).leaveScope
  | .letDecl declaration => walk.letDecl context declaration
  | .expression e _ => walk.expression context e
  | .print e _ => walk.expression context e
  | .ifElse condition thenBody none _ =>
    (walk.expression context condition).statement context thenBody
  | .ifElse condition thenBody (some elseBody) _ =>
    ((walk.expression context condition).statement context thenBody).statement context elseBody
  | .whileLoop condition body _ =>
    (walk.expression context condition).statement (context.inLoop .loop) body
  | .doWhile body condition _ =>
    (walk.statement (context.inLoop .loop) body).expression context condition
  | .forLoop start condition increment body _ =>
    (((walk.forStart context start).expression? context condition).expression? context
      increment).statement (context.inLoop .loop) body
  | .switch subject arms _ =>
    (walk.expression context subject).cases (context.inLoop .switch) arms
  | .breakLoop keyword => walk.reportIf (context.loop = .none) keyword .breakOutsideLoop
  | .continueLoop keyword => walk.reportIf (context.loop = .none) keyword .continueOutsideLoop
  | .returnValue keyword value _ => walk.returnValue context keyword value
  | .function (.mk name parameters body _) =>
    (((walk.declareDefined name).enterFunction parameters).statements
      (context.inFunction .function) body).leaveScope
  | .classDecl name superclass list _ =>
    ((walk.enterClass name superclass).methods (context.inClass (classKindOf superclass))
      list).leaveClass superclass

/-- Walks over statements in order. -/
def statements (context : Context) (walk : Walk) : List Stmt → Walk
  | [] => walk
  | s :: rest => (walk.statement context s).statements context rest

/-- Walks over the arms of a `switch`, each with a scope of its own for its statements. -/
def cases (context : Context) (walk : Walk) : List Case → Walk
  | [] => walk
  | .mk value body _ :: rest =>
    (((walk.expression? context value).enterScope.statements context body).leaveScope).cases
      context rest

/-- Walks over the methods of a class. -/
def methods (context : Context) (walk : Walk) : List Function → Walk
  | [] => walk
  | .mk name parameters body _ :: rest =>
    (((walk.enterFunction parameters).statements (context.inFunction (methodKind name))
      body).leaveScope).methods context rest

end

/-- Walks over a whole program. -/
def program (reported : Array Diagnostic) (list : List Stmt) : Walk :=
  ((begin reported).log (.resolving list.length)).statements .topLevel list

end Walk

/-- What resolving a program gives. -/
structure Resolution where
  bindings : Bindings
  diagnostics : List Diagnostic
  events : List Event
deriving Inhabited

namespace Resolution

def hasErrors (resolution : Resolution) : Bool := !resolution.diagnostics.isEmpty

/-- The bindings of a program without errors, or else all its errors. -/
def toExcept (resolution : Resolution) : Except (List Diagnostic) Bindings :=
  if resolution.diagnostics.isEmpty then .ok resolution.bindings else .error resolution.diagnostics

end Resolution

/-- Resolves a program on its own. -/
def resolve (statements : List Stmt) : Resolution :=
  let walk := Walk.program #[] statements
  let finished := Event.finished walk.bindings.size walk.diagnostics.size
  ⟨walk.bindings, walk.diagnostics.toList, (walk.log finished).events.toList⟩

/-- Resolves a program, adding what is wrong with it to what has been reported before. -/
def resolveInto (reported : Array Diagnostic) (statements : List Stmt) :
    Bindings × Array Diagnostic :=
  let walk := Walk.program reported statements
  (walk.bindings, walk.diagnostics)

end LexicalScoping
