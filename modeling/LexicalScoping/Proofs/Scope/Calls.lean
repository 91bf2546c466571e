import LexicalScoping.Proofs.Grammar.Places
import LexicalScoping.Proofs.Scope.Blame

/-!
# How many calls a walk has open

The walk over a program calls itself for each statement and each expression that it comes to, and
the call is open until the walk has been over everything inside. A counted walk does the same as the
walk and also counts the calls that are open, and how many have been open at most. These are never
more than there are nodes on some path from a statement of the program down into it.

The walk goes down every path but those into the value of a `return` outside of all functions, and
such a `return` it reports. So if it reports none, it has as many calls open as the longest path has
nodes.
-/
namespace LexicalScoping

namespace Walk

/-- No `return` has been reported to stand outside of all functions. -/
def ReturnsInside (walk : Walk) : Prop :=
  ∀ d ∈ walk.reported, d.cause ≠ .returnOutsideFunction

/-- What has been reported before the step stays reported. -/
def Grows (f : Walk → Walk) : Prop := ∀ walk, walk.reported ⊆ (f walk).reported

namespace Grows

variable {f g : Walk → Walk}

theorem of_eq (h : ∀ walk, (f walk).reported = walk.reported) : Grows f := by
  intro walk
  rw [h walk]
  exact List.Subset.refl _

theorem comp (hg : Grows g) (hf : Grows f) : Grows fun walk => g (f walk) :=
  fun walk => List.Subset.trans (hf walk) (hg (f walk))

theorem report (diagnostic : Diagnostic) : Grows (Walk.report diagnostic) := by
  intro walk
  rw [reported_report]
  exact List.subset_append_left _ _

theorem reportIf (condition : Bool) (token : Token) (cause : Cause) :
    Grows (Walk.reportIf condition token cause) := by
  intro walk
  rw [reported_reportIf]
  exact List.subset_append_left _ _

theorem define (name : String) : Grows (Walk.define name) :=
  of_eq fun walk => reported_define walk name

theorem enterScope : Grows Walk.enterScope := of_eq reported_enterScope

theorem leaveScope : Grows Walk.leaveScope := of_eq reported_leaveScope

theorem declare (name : Token) : Grows (Walk.declare name) := by
  intro walk
  rw [Walk.declare]
  split
  · exact List.Subset.refl _
  · exact report _ _

theorem bind (id : Nat) (name : String) : Grows (Walk.bind id name) :=
  of_eq fun walk => reported_bind walk id name

theorem read (target : Reference) : Grows (Walk.read target) := by
  intro walk
  exact List.Subset.trans (reportIf _ _ _ walk) (bind _ _ _)

theorem readSelf (context : Context) (id : Nat) (keyword : Token) :
    Grows (Walk.readSelf context id keyword) := by
  intro walk
  rw [Walk.readSelf]
  split
  · exact report _ walk
  · exact bind _ _ walk

theorem readSuper (context : Context) (id : Nat) (keyword : Token) :
    Grows (Walk.readSuper context id keyword) :=
  (bind id superName).comp ((reportIf _ _ _).comp (reportIf _ _ _))

theorem declareDefined (name : Token) : Grows (Walk.declareDefined name) :=
  (define name.text).comp (declare name)

theorem enterFunction (parameters : List Token) : Grows (Walk.enterFunction parameters) := by
  have hall : Grows fun walk =>
      parameters.foldl (fun walk parameter => walk.declareDefined parameter) walk := by
    induction parameters with
    | nil => exact of_eq fun _ => rfl
    | cons parameter rest ih => exact ih.comp (declareDefined parameter)
  exact hall.comp enterScope

theorem enterClass (name : Token) (superclass : Option Reference) :
    Grows (Walk.enterClass name superclass) := by
  have hself : Grows fun walk => walk.enterScope.define selfName :=
    (define selfName).comp enterScope
  cases superclass with
  | none => exact hself.comp ((define name.text).comp (declare name))
  | some parent =>
    have hsuper : Grows fun walk => walk.enterScope.define superName :=
      (define superName).comp enterScope
    exact hself.comp (hsuper.comp ((define name.text).comp ((read parent).comp (declare name))))

theorem leaveClass (superclass : Option Reference) : Grows (Walk.leaveClass superclass) := by
  cases superclass with
  | none => exact leaveScope
  | some parent => exact leaveScope.comp leaveScope

end Grows

end Walk

/-- A walk, how many of its calls are open, and how many have been at most. -/
structure CountedWalk where
  walk : Walk
  active : Nat
  peak : Nat
deriving Inhabited

namespace CountedWalk

/-- A step that calls nothing. -/
def step (f : Walk → Walk) (state : CountedWalk) : CountedWalk :=
  { state with walk := f state.walk }

/-- The state in which one more call is open. -/
def opened (state : CountedWalk) : CountedWalk :=
  { state with active := state.active + 1, peak := max state.peak (state.active + 1) }

/-- A call for a statement or an expression, which is closed behind its body. -/
def call (body : CountedWalk → CountedWalk) (state : CountedWalk) : CountedWalk :=
  { body state.opened with active := (body state.opened).active - 1 }

mutual

/-- Walks over an expression in a call of its own. -/
def expression (context : Context) (state : CountedWalk) : Expr → CountedWalk
  | .literal _ _ => state.call id
  | .read target => state.call fun inner => inner.step (Walk.read target)
  | .assign target value _ => state.call fun inner =>
    (inner.expression context value).step (Walk.bind target.id target.name.text)
  | .binary _ left _ right _ => state.call fun inner =>
    (inner.expression context left).expression context right
  | .unary _ operand _ => state.call fun inner => inner.expression context operand
  | .grouping content _ => state.call fun inner => inner.expression context content
  | .conditional condition thenBranch elseBranch _ => state.call fun inner =>
    ((inner.expression context condition).expression context thenBranch).expression context
      elseBranch
  | .call callee arguments _ => state.call fun inner =>
    (inner.expression context callee).expressions context arguments
  | .get object _ _ => state.call fun inner => inner.expression context object
  | .set object _ value _ => state.call fun inner =>
    (inner.expression context object).expression context value
  | .superMethod id keyword _ _ => state.call fun inner =>
    inner.step (Walk.readSuper context id keyword)
  | .selfRef id keyword => state.call fun inner => inner.step (Walk.readSelf context id keyword)

/-- Walks over expressions in order. -/
def expressions (context : Context) (state : CountedWalk) : List Expr → CountedWalk
  | [] => state
  | e :: rest => (state.expression context e).expressions context rest

end

/-- Walks over an expression, if there is one. -/
def expression? (context : Context) (state : CountedWalk) : Option Expr → CountedWalk
  | none => state
  | some e => state.expression context e

def letDecl (context : Context) (state : CountedWalk) (declaration : LetDecl) : CountedWalk :=
  ((state.step (Walk.declare declaration.name)).expression? context declaration.value).step
    (Walk.define declaration.name.text)

/-- The first clause of a `for` is a statement, which is walked over in a call of its own. -/
def forStart (context : Context) (state : CountedWalk) : Option ForStart → CountedWalk
  | none => state
  | some (.declare declaration) => state.call fun inner => inner.letDecl context declaration
  | some (.evaluate e _) => state.call fun inner => inner.expression context e

def returnValue (context : Context) (state : CountedWalk) (keyword : Token)
    (value : Option Expr) : CountedWalk :=
  let state := state.step
    (Walk.reportIf (context.function = .none) keyword .returnOutsideFunction)
  match value with
  | none => state
  | some e =>
    let state := state.step
      (Walk.reportIf (context.function = .initializer) keyword .returnValueFromInitializer)
    if context.function = .none then state else state.expression context e

mutual

/-- Walks over a statement in a call of its own. -/
def statement (context : Context) (state : CountedWalk) : Stmt → CountedWalk
  | .block body _ => state.call fun inner =>
    ((inner.step Walk.enterScope).statements context body).step Walk.leaveScope
  | .letDecl declaration => state.call fun inner => inner.letDecl context declaration
  | .expression e _ => state.call fun inner => inner.expression context e
  | .print e _ => state.call fun inner => inner.expression context e
  | .ifElse condition thenBody none _ => state.call fun inner =>
    (inner.expression context condition).statement context thenBody
  | .ifElse condition thenBody (some elseBody) _ => state.call fun inner =>
    ((inner.expression context condition).statement context thenBody).statement context elseBody
  | .whileLoop condition body _ => state.call fun inner =>
    (inner.expression context condition).statement (context.inLoop .loop) body
  | .doWhile body condition _ => state.call fun inner =>
    (inner.statement (context.inLoop .loop) body).expression context condition
  | .forLoop start condition increment body _ => state.call fun inner =>
    (((inner.forStart context start).expression? context condition).expression? context
      increment).statement (context.inLoop .loop) body
  | .switch subject arms _ => state.call fun inner =>
    (inner.expression context subject).cases (context.inLoop .switch) arms
  | .breakLoop keyword => state.call fun inner =>
    inner.step (Walk.reportIf (context.loop = .none) keyword .breakOutsideLoop)
  | .continueLoop keyword => state.call fun inner =>
    inner.step (Walk.reportIf (context.loop = .none) keyword .continueOutsideLoop)
  | .returnValue keyword value _ => state.call fun inner => inner.returnValue context keyword value
  | .function (.mk name parameters body _) => state.call fun inner =>
    (((inner.step (Walk.declareDefined name)).step (Walk.enterFunction parameters)).statements
      (context.inFunction .function) body).step Walk.leaveScope
  | .classDecl name superclass list _ => state.call fun inner =>
    ((inner.step (Walk.enterClass name superclass)).methods
      (context.inClass (Walk.classKindOf superclass)) list).step (Walk.leaveClass superclass)

/-- Walks over statements in order. -/
def statements (context : Context) (state : CountedWalk) : List Stmt → CountedWalk
  | [] => state
  | s :: rest => (state.statement context s).statements context rest

/-- Walks over the arms of a `switch`. -/
def cases (context : Context) (state : CountedWalk) : List Case → CountedWalk
  | [] => state
  | .mk value body _ :: rest =>
    ((((state.expression? context value).step Walk.enterScope).statements context body).step
      Walk.leaveScope).cases context rest

/-- Walks over the methods of a class. -/
def methods (context : Context) (state : CountedWalk) : List Function → CountedWalk
  | [] => state
  | .mk name parameters body _ :: rest =>
    (((state.step (Walk.enterFunction parameters)).statements
      (context.inFunction (Walk.methodKind name)) body).step Walk.leaveScope).methods context rest

end

/-- Walks over a whole program. At first no call is open. -/
def program (reported : Array Diagnostic) (list : List Stmt) : CountedWalk :=
  statements .topLevel ⟨(Walk.begin reported).log (.resolving list.length), 0, 0⟩ list

/-! ## Counting changes nothing -/

@[simp] theorem walk_step (f : Walk → Walk) (state : CountedWalk) :
    (state.step f).walk = f state.walk := rfl

@[simp] theorem walk_opened (state : CountedWalk) : state.opened.walk = state.walk := rfl

@[simp] theorem walk_call (body : CountedWalk → CountedWalk) (state : CountedWalk) :
    (state.call body).walk = (body state.opened).walk := rfl

mutual

@[simp] theorem walk_expression (context : Context) (state : CountedWalk) :
    ∀ e : Expr, (state.expression context e).walk = state.walk.expression context e
  | .literal _ _ => rfl
  | .read _ => rfl
  | .assign _ value _ => by simp [expression, Walk.expression, walk_expression context _ value]
  | .binary _ left _ right _ => by
    simp [expression, Walk.expression, walk_expression context _ left,
      walk_expression context _ right]
  | .unary _ operand _ => by simp [expression, Walk.expression, walk_expression context _ operand]
  | .grouping content _ => by
    simp [expression, Walk.expression, walk_expression context _ content]
  | .conditional condition thenBranch elseBranch _ => by
    simp [expression, Walk.expression, walk_expression context _ condition,
      walk_expression context _ thenBranch, walk_expression context _ elseBranch]
  | .call callee arguments _ => by
    simp [expression, Walk.expression, walk_expression context _ callee,
      walk_expressions context _ arguments]
  | .get object _ _ => by simp [expression, Walk.expression, walk_expression context _ object]
  | .set object _ value _ => by
    simp [expression, Walk.expression, walk_expression context _ object,
      walk_expression context _ value]
  | .superMethod _ _ _ _ => rfl
  | .selfRef _ _ => rfl

@[simp] theorem walk_expressions (context : Context) (state : CountedWalk) :
    ∀ list : List Expr, (state.expressions context list).walk = state.walk.expressions context list
  | [] => rfl
  | e :: rest => by
    simp [expressions, Walk.expressions, walk_expression context _ e,
      walk_expressions context _ rest]

end

@[simp] theorem walk_expression? (context : Context) (state : CountedWalk) (value : Option Expr) :
    (state.expression? context value).walk = state.walk.expression? context value := by
  cases value with
  | none => rfl
  | some e => exact walk_expression context state e

@[simp] theorem walk_letDecl (context : Context) (state : CountedWalk) (declaration : LetDecl) :
    (state.letDecl context declaration).walk = state.walk.letDecl context declaration := by
  simp [letDecl, Walk.letDecl]

@[simp] theorem walk_forStart (context : Context) (state : CountedWalk)
    (start : Option ForStart) :
    (state.forStart context start).walk = state.walk.forStart context start := by
  rcases start with _ | declaration | ⟨e, span⟩
  · rfl
  · simp [forStart, Walk.forStart]
  · simp [forStart, Walk.forStart]

@[simp] theorem walk_returnValue (context : Context) (state : CountedWalk) (keyword : Token)
    (value : Option Expr) :
    (state.returnValue context keyword value).walk =
      state.walk.returnValue context keyword value := by
  cases value with
  | none => rfl
  | some e =>
    unfold returnValue Walk.returnValue
    by_cases hnone : context.function = .none
    · simp [hnone]
    · simp [hnone]

mutual

@[simp] theorem walk_statement (context : Context) (state : CountedWalk) :
    ∀ s : Stmt, (state.statement context s).walk = state.walk.statement context s
  | .block body _ => by simp [statement, Walk.statement, walk_statements context _ body]
  | .letDecl _ => by simp [statement, Walk.statement]
  | .expression _ _ => by simp [statement, Walk.statement]
  | .print _ _ => by simp [statement, Walk.statement]
  | .ifElse _ thenBody none _ => by
    simp [statement, Walk.statement, walk_statement context _ thenBody]
  | .ifElse _ thenBody (some elseBody) _ => by
    simp [statement, Walk.statement, walk_statement context _ thenBody,
      walk_statement context _ elseBody]
  | .whileLoop _ body _ => by simp [statement, Walk.statement, walk_statement _ _ body]
  | .doWhile body _ _ => by simp [statement, Walk.statement, walk_statement _ _ body]
  | .forLoop _ _ _ body _ => by simp [statement, Walk.statement, walk_statement _ _ body]
  | .switch _ arms _ => by simp [statement, Walk.statement, walk_cases _ _ arms]
  | .breakLoop _ => by simp [statement, Walk.statement]
  | .continueLoop _ => by simp [statement, Walk.statement]
  | .returnValue _ _ _ => by simp [statement, Walk.statement]
  | .function (.mk _ _ body _) => by simp [statement, Walk.statement, walk_statements _ _ body]
  | .classDecl _ _ list _ => by simp [statement, Walk.statement, walk_methods _ _ list]

@[simp] theorem walk_statements (context : Context) (state : CountedWalk) :
    ∀ list : List Stmt, (state.statements context list).walk = state.walk.statements context list
  | [] => rfl
  | s :: rest => by
    simp [statements, Walk.statements, walk_statement context _ s, walk_statements context _ rest]

@[simp] theorem walk_cases (context : Context) (state : CountedWalk) :
    ∀ arms : List Case, (state.cases context arms).walk = state.walk.cases context arms
  | [] => rfl
  | .mk _ body _ :: rest => by
    simp [cases, Walk.cases, walk_statements context _ body, walk_cases context _ rest]

@[simp] theorem walk_methods (context : Context) (state : CountedWalk) :
    ∀ list : List Function, (state.methods context list).walk = state.walk.methods context list
  | [] => rfl
  | .mk _ _ body _ :: rest => by
    simp [methods, Walk.methods, walk_statements _ _ body, walk_methods context _ rest]

end

/-- A counted walk over a program is the walk over it. -/
theorem walk_program (reported : Array Diagnostic) (list : List Stmt) :
    (program reported list).walk = Walk.program reported list := by
  rw [program, walk_statements, Walk.program]

/-! ## Calls are nodes on a path -/

/-- As many calls are open as the path to the place passes through nodes. -/
def At (state : CountedWalk) (place : Place) : Prop := state.active = place.depth

/-- Between the states all calls that are opened are closed again, and the peak does not rise above
the depths of the places. It rises to each of them unless a `return` is reported to stand outside of
all functions. -/
structure Reaches (state state' : CountedWalk) (places : List Place) : Prop where
  active : state'.active = state.active
  peak : ∀ bound, state.peak ≤ bound → (∀ inner ∈ places, inner.depth ≤ bound) →
    state'.peak ≤ bound
  rises : state.peak ≤ state'.peak
  reported : state.walk.reported ⊆ state'.walk.reported
  attained : state'.walk.ReturnsInside → ∀ inner ∈ places, inner.depth ≤ state'.peak

namespace At

variable {state : CountedWalk} {place : Place}

theorem inside (h : state.At place) (offset : Nat) :
    (place.inside offset).depth = state.active + 1 := by
  have hactive : state.active = place.level + place.shared := h
  show place.level + 1 + place.shared = _
  omega

theorem sharing (h : state.At place) (offset : Nat) :
    (place.sharing offset).depth = state.active + 1 := by
  have hactive : state.active = place.level + place.shared := h
  show place.level + (place.shared + 1) = _
  omega

theorem step (h : state.At place) (f : Walk → Walk) : (state.step f).At place := h

theorem reached (h : state.At place) {state' : CountedWalk} {places : List Place}
    (hreach : Reaches state state' places) : state'.At place := hreach.active.trans h

end At

namespace Reaches

variable {state state₁ state₂ : CountedWalk} {place : Place} {places more : List Place}

theorem refl (state : CountedWalk) : Reaches state state [] where
  active := rfl
  peak := fun _ h _ => h
  rises := Nat.le_refl _
  reported := List.Subset.refl _
  attained := fun _ _ hinner => nomatch hinner

theorem returnsInside (h : Reaches state state₁ places) (hreturns : state₁.walk.ReturnsInside) :
    state.walk.ReturnsInside := fun d hd => hreturns d (h.reported hd)

theorem append (h : Reaches state state₁ places) (hmore : Reaches state₁ state₂ more) :
    Reaches state state₂ (places ++ more) where
  active := hmore.active.trans h.active
  peak := by
    intro bound hpeak hall
    have hplaces : ∀ inner ∈ places, inner.depth ≤ bound :=
      fun inner hinner => hall inner (List.mem_append_left _ hinner)
    have hrest : ∀ inner ∈ more, inner.depth ≤ bound :=
      fun inner hinner => hall inner (List.mem_append_right _ hinner)
    exact hmore.peak bound (h.peak bound hpeak hplaces) hrest
  rises := Nat.le_trans h.rises hmore.rises
  reported := List.Subset.trans h.reported hmore.reported
  attained := by
    intro hreturns inner hinner
    rcases List.mem_append.1 hinner with hinner | hinner
    · have hpeak := h.attained (hmore.returnsInside hreturns) inner hinner
      exact Nat.le_trans hpeak hmore.rises
    · exact hmore.attained hreturns inner hinner

/-- What comes behind all calls that are closed again stands at the same place. -/
theorem andThen (hplace : state.At place) (h : Reaches state state₁ places)
    (hmore : state₁.At place → Reaches state₁ state₂ more) :
    Reaches state state₂ (places ++ more) := h.append (hmore (hplace.reached h))

/-- Steps before and after do not count. -/
theorem of_step {f : Walk → Walk} (h : Reaches (state.step f) state₁ places) (hf : Walk.Grows f) :
    Reaches state state₁ places where
  active := h.active
  peak := h.peak
  rises := h.rises
  reported := List.Subset.trans (hf state.walk) h.reported
  attained := h.attained

theorem step {f : Walk → Walk} (h : Reaches state state₁ places) (hf : Walk.Grows f) :
    Reaches state (state₁.step f) places where
  active := h.active
  peak := h.peak
  rises := h.rises
  reported := List.Subset.trans h.reported (hf state₁.walk)
  attained := fun hreturns => h.attained fun d hd => hreturns d (hf state₁.walk hd)

/-- A call is open for the node that it is made for. -/
theorem call {body : CountedWalk → CountedWalk} (hplace : place.depth = state.active + 1)
    (h : state.opened.At place → Reaches state.opened (body state.opened) places) :
    Reaches state (state.call body) (place :: places) := by
  have hbody := h hplace.symm
  have hactive : (body state.opened).active = state.active + 1 := hbody.active
  have hrises : max state.peak (state.active + 1) ≤ (body state.opened).peak := hbody.rises
  exact {
    active := by
      show (body state.opened).active - 1 = state.active
      omega
    peak := by
      intro bound hpeak hall
      have hhere : place.depth ≤ bound := hall place List.mem_cons_self
      have hopened : max state.peak (state.active + 1) ≤ bound := by omega
      exact hbody.peak bound hopened fun inner hinner => hall inner (List.mem_cons_of_mem _ hinner)
    rises := Nat.le_trans (Nat.le_max_left _ _) hrises
    reported := hbody.reported
    attained := by
      intro hreturns inner hinner
      rcases List.mem_cons.1 hinner with rfl | hinner
      · show inner.depth ≤ (body state.opened).peak
        omega
      · exact hbody.attained hreturns inner hinner }

end Reaches

mutual

theorem reaches_expression (context : Context) {state : CountedWalk} {place : Place}
    (hplace : place.depth = state.active + 1) :
    ∀ e : Expr, Reaches state (state.expression context e) (e.places place)
  | .literal _ _ => .call hplace fun _ => .refl _
  | .read target => .call hplace fun _ => (Reaches.refl _).step (.read target)
  | .assign target value _ => .call hplace fun h =>
    (reaches_expression context (h.inside 2) value).step (.bind target.id target.name.text)
  | .binary _ left _ right _ => .call hplace fun h =>
    .andThen h (reaches_expression context (h.sharing 0) left) fun h =>
      reaches_expression context (h.inside _) right
  | .unary _ operand _ => .call hplace fun h => reaches_expression context (h.inside 1) operand
  | .grouping content _ => .call hplace fun h => reaches_expression context (h.inside 1) content
  | .conditional condition thenBranch elseBranch _ => .call hplace fun h =>
    .andThen h (reaches_expression context (h.sharing 0) condition) fun h =>
      .andThen h (reaches_expression context (h.inside _) thenBranch) fun h =>
        reaches_expression context (h.inside _) elseBranch
  | .call callee arguments _ => .call hplace fun h =>
    .andThen h (reaches_expression context (h.sharing 0) callee) fun h =>
      reaches_expressions context h _ arguments
  | .get object _ _ => .call hplace fun h => reaches_expression context (h.sharing 0) object
  | .set object _ value _ => .call hplace fun h =>
    .andThen h (reaches_expression context (h.sharing 0) object) fun h =>
      reaches_expression context (h.inside _) value
  | .superMethod id keyword _ _ => .call hplace fun _ =>
    (Reaches.refl _).step (.readSuper context id keyword)
  | .selfRef id keyword => .call hplace fun _ =>
    (Reaches.refl _).step (.readSelf context id keyword)

theorem reaches_expressions (context : Context) {state : CountedWalk} {place : Place}
    (h : state.At place) (offset : Nat) :
    ∀ list : List Expr,
      Reaches state (state.expressions context list) (Expr.placesAll place offset list)
  | [] => .refl _
  | e :: rest =>
    .andThen h (reaches_expression context (h.inside offset) e) fun h =>
      reaches_expressions context h _ rest

end

section Statements

variable (context : Context) {state : CountedWalk} {place : Place}

theorem reaches_expression? (hplace : place.depth = state.active + 1) (value : Option Expr) :
    Reaches state (state.expression? context value) (Expr.places? place value) := by
  cases value with
  | none => exact .refl _
  | some e => exact reaches_expression context hplace e

theorem reaches_letDecl (h : state.At place) (declaration : LetDecl) :
    Reaches state (state.letDecl context declaration)
      (Expr.places? (place.inside 3) declaration.value) :=
  ((reaches_expression? context ((h.step _).inside 3) declaration.value).step
    (.define declaration.name.text)).of_step (.declare declaration.name)

theorem reaches_forStart (hplace : place.depth = state.active + 1) (start : Option ForStart) :
    Reaches state (state.forStart context start) (ForStart.places place start) := by
  rcases start with _ | declaration | ⟨e, span⟩
  · exact .refl _
  · show Reaches state (state.call fun inner => inner.letDecl context declaration) (place :: _)
    exact .call hplace fun h => reaches_letDecl context h declaration
  · show Reaches state (state.call fun inner => inner.expression context e) (place :: _)
    exact .call hplace fun h => reaches_expression context (h.inside 0) e

/-- The value of a `return` outside of all functions is not walked over, and the `return` is
reported. -/
theorem reaches_returnValue (h : state.At place) (keyword : Token) (value : Option Expr) :
    Reaches state (state.returnValue context keyword value)
      (Expr.places? (place.inside 1) value) := by
  have houtside := Walk.Grows.reportIf (context.function = .none) keyword .returnOutsideFunction
  have hinitializer :=
    Walk.Grows.reportIf (context.function = .initializer) keyword .returnValueFromInitializer
  cases value with
  | none => exact (Reaches.refl _).of_step houtside
  | some e =>
    simp only [returnValue]
    split
    case isTrue hnone =>
      have hsteps : Reaches state ((state.step _).step _) [] :=
        ((Reaches.refl state).step houtside).step hinitializer
      refine { hsteps with peak := fun _ hpeak _ => hpeak, attained := fun hreturns => ?_ }
      have hreported : keyword.diagnostic .returnOutsideFunction ∈ (state.walk.reportIf
          (context.function = .none) keyword .returnOutsideFunction).reported := by
        simp [hnone]
      exact absurd rfl (hreturns _ (hinitializer _ hreported))
    case isFalse =>
      exact ((reaches_expression context (((h.step _).step _).inside 1) e).of_step
        hinitializer).of_step houtside

end Statements

mutual

theorem reaches_statement (context : Context) {state : CountedWalk} {place : Place}
    (hplace : place.depth = state.active + 1) :
    ∀ s : Stmt, Reaches state (state.statement context s) (s.places place)
  | .block body _ => .call hplace fun h =>
    ((reaches_statements context (h.step _) 1 body).step .leaveScope).of_step .enterScope
  | .letDecl declaration => .call hplace fun h => reaches_letDecl context h declaration
  | .expression e _ => .call hplace fun h => reaches_expression context (h.inside 0) e
  | .print e _ => .call hplace fun h => reaches_expression context (h.inside 1) e
  | .ifElse condition thenBody none _ => .call hplace fun h =>
    .andThen h (reaches_expression context (h.inside 2) condition) fun h =>
      reaches_statement context (h.inside _) thenBody
  | .ifElse condition thenBody (some elseBody) _ => .call hplace fun h =>
    .andThen h (reaches_expression context (h.inside 2) condition) fun h =>
      .andThen h (reaches_statement context (h.inside _) thenBody) fun h =>
        reaches_statement context (h.inside _) elseBody
  | .whileLoop condition body _ => .call hplace fun h =>
    .andThen h (reaches_expression context (h.inside 2) condition) fun h =>
      reaches_statement _ (h.inside _) body
  | .doWhile body condition _ => .call hplace fun h =>
    .andThen h (reaches_statement _ (h.inside 1) body) fun h =>
      reaches_expression context (h.inside _) condition
  | .forLoop start condition increment body _ => .call hplace fun h =>
    .andThen h (reaches_forStart context (h.sharing 2) start) fun h =>
      .andThen h (reaches_expression? context (h.inside _) condition) fun h =>
        .andThen h (reaches_expression? context (h.inside _) increment) fun h =>
          reaches_statement _ (h.inside _) body
  | .switch subject arms _ => .call hplace fun h =>
    .andThen h (reaches_expression context (h.inside 2) subject) fun h =>
      reaches_cases _ h _ arms
  | .breakLoop _ => .call hplace fun _ => (Reaches.refl _).step (.reportIf _ _ _)
  | .continueLoop _ => .call hplace fun _ => (Reaches.refl _).step (.reportIf _ _ _)
  | .returnValue keyword value _ => .call hplace fun h =>
    reaches_returnValue context h keyword value
  | .function (.mk name parameters body _) => .call hplace fun h =>
    (((reaches_statements _ ((h.step _).step _) _ body).step .leaveScope).of_step
      (.enterFunction parameters)).of_step (.declareDefined name)
  | .classDecl name superclass list _ => .call hplace fun h =>
    ((reaches_methods _ (h.step _) _ list).step (.leaveClass superclass)).of_step
      (.enterClass name superclass)

theorem reaches_statements (context : Context) {state : CountedWalk} {place : Place}
    (h : state.At place) (offset : Nat) :
    ∀ list : List Stmt,
      Reaches state (state.statements context list) (Stmt.placesAll place offset list)
  | [] => .refl _
  | s :: rest =>
    .andThen h (reaches_statement context (h.inside offset) s) fun h =>
      reaches_statements context h _ rest

theorem reaches_cases (context : Context) {state : CountedWalk} {place : Place}
    (h : state.At place) (offset : Nat) :
    ∀ arms : List Case,
      Reaches state (state.cases context arms) (Case.placesAll place offset arms)
  | [] => .refl _
  | .mk value body _ :: rest => by
    refine .andThen h (reaches_expression? context (h.inside (offset + 1)) value) fun h => ?_
    have hbody := ((reaches_statements context (h.step Walk.enterScope)
      (offset + (armSpelling value).length) body).of_step .enterScope).step .leaveScope
    exact .andThen h hbody fun h => reaches_cases context h _ rest

theorem reaches_methods (context : Context) {state : CountedWalk} {place : Place}
    (h : state.At place) (offset : Nat) :
    ∀ list : List Function,
      Reaches state (state.methods context list) (Function.placesAll place offset list)
  | [] => .refl _
  | .mk name parameters body span :: rest => by
    have hbody : Reaches state _ (Function.places place offset (.mk name parameters body span)) :=
      ((reaches_statements (context.inFunction (Walk.methodKind name))
        (h.step (Walk.enterFunction parameters)) _ body).of_step
          (.enterFunction parameters)).step .leaveScope
    exact .andThen h hbody fun h => reaches_methods context h _ rest

end

theorem reaches_program (reported : Array Diagnostic) (list : List Stmt) :
    Reaches ⟨(Walk.begin reported).log (.resolving list.length), 0, 0⟩ (program reported list)
      (Stmt.placesAll .top 0 list) := by
  have hbegin : CountedWalk.At ⟨(Walk.begin reported).log (.resolving list.length), 0, 0⟩
      Place.top := rfl
  exact reaches_statements .topLevel hbegin 0 list

/-- No more calls are open at once than there are nodes on some path. -/
theorem peak_program_le (reported : Array Diagnostic) (list : List Stmt) (bound : Nat)
    (h : ∀ place ∈ Stmt.placesAll .top 0 list, place.depth ≤ bound) :
    (program reported list).peak ≤ bound :=
  (reaches_program reported list).peak bound (Nat.zero_le _) h

/-- If no `return` is reported to stand outside of all functions, as many calls are open at once as
there are nodes on the longest path. -/
theorem depth_le_peak_program {reported : Array Diagnostic} {list : List Stmt}
    (h : (Walk.program reported list).ReturnsInside) :
    ∀ place ∈ Stmt.placesAll .top 0 list, place.depth ≤ (program reported list).peak := by
  rw [← walk_program] at h
  exact (reaches_program reported list).attained h

end CountedWalk
end LexicalScoping
