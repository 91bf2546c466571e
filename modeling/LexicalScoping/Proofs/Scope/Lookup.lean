import LexicalScoping.Proofs.Scope.Outline
import Mathlib.Data.List.Forall2

/-!
# The walk follows the outline

Looking up names along an outline takes the names that the open scopes hold and the bindings made so
far, and nothing else. The walk over a program does the same: its frames hold the same names and its
bindings are the same, whatever it reports. Declaring a name again adds nothing to a frame, and
defining one only adds it where it has not been declared, as `self` and `super`.
-/
namespace LexicalScoping

/-- The names that the open scopes hold, innermost first, and the bindings made so far. -/
structure Sight where
  scopes : List (List String)
  bindings : Bindings

namespace Sight

/-- How far out the first scope lies that holds the name. -/
def distance? (scopes : List (List String)) (name : String) : Option Nat :=
  scopes.findIdx? (fun names => name ∈ names)

/-- The innermost scope holds more names. Outside all scopes names are not tracked. -/
def extend (names : List String) : List (List String) → List (List String)
  | [] => []
  | own :: outer => (own ++ names) :: outer

/-- A use is bound if some scope holds its name, unless it is exempt. -/
def bind (use : Use) (sight : Sight) : Sight :=
  if use.exempt then sight
  else
    match distance? sight.scopes use.name with
    | some distance => { sight with bindings := sight.bindings.insert use.id distance }
    | none => sight

mutual

/-- Looks up the names along a piece of an outline. -/
def look (sight : Sight) : Outline → Sight
  | .declares name => { sight with scopes := extend [name] sight.scopes }
  | .uses use => sight.bind use
  | .scope body =>
    { sight with bindings := (lookAll ⟨[] :: sight.scopes, sight.bindings⟩ body).bindings }

def lookAll (sight : Sight) : List Outline → Sight
  | [] => sight
  | piece :: rest => (sight.look piece).lookAll rest

end

theorem extend_append (front back : List String) (scopes : List (List String)) :
    extend (front ++ back) scopes = extend back (extend front scopes) := by
  cases scopes <;> simp [extend]

@[simp] theorem extend_nil (scopes : List (List String)) : extend [] scopes = scopes := by
  cases scopes <;> simp [extend]

@[simp] theorem scopes_bind (use : Use) (sight : Sight) :
    (sight.bind use).scopes = sight.scopes := by
  unfold bind
  split
  · rfl
  · split <;> rfl

theorem scopes_look (sight : Sight) (piece : Outline) :
    (sight.look piece).scopes = extend (Outline.declared [piece]) sight.scopes := by
  cases piece <;> simp [look, Outline.declared]

/-- Only what is declared directly in an outline changes the scopes. -/
theorem scopes_lookAll (sight : Sight) (list : List Outline) :
    (sight.lookAll list).scopes = extend (Outline.declared list) sight.scopes := by
  induction list generalizing sight with
  | nil => simp [lookAll, Outline.declared]
  | cons piece rest ih =>
    have hsplit : Outline.declared (piece :: rest) =
        Outline.declared [piece] ++ Outline.declared rest :=
      Outline.declared_append [piece] rest
    rw [lookAll, ih, scopes_look, hsplit, extend_append]

theorem lookAll_append (sight : Sight) (front back : List Outline) :
    sight.lookAll (front ++ back) = (sight.lookAll front).lookAll back := by
  induction front generalizing sight with
  | nil => rfl
  | cons piece front ih => exact ih (sight.look piece)

/-- Where all uses are exempt, nothing happens. -/
theorem lookAll_exempt (sight : Sight) {list : List Use} (h : ∀ use ∈ list, use.exempt) :
    sight.lookAll (list.map .uses) = sight := by
  induction list with
  | nil => rfl
  | cons use list ih =>
    have huse : sight.look (.uses use) = sight := by simp [look, bind, h use (by simp)]
    rw [List.map_cons, lookAll, huse]
    exact ih fun other hother => h other (by simp [hother])

end Sight

/-- The flags say whether the context is in a function and in a class. -/
structure Context.Flagged (context : Context) (inFunction inClass : Bool) : Prop where
  function : decide (context.function ≠ .none) = inFunction
  classKind : decide (context.classKind ≠ .none) = inClass

namespace Context.Flagged

variable {context : Context} {f c : Bool}

theorem topLevel : Context.topLevel.Flagged false false := ⟨rfl, rfl⟩

theorem inLoop (h : context.Flagged f c) (kind : LoopKind) :
    (context.inLoop kind).Flagged f c := ⟨h.function, h.classKind⟩

theorem inFunction (h : context.Flagged f c) {kind : FunctionKind}
    (hk : kind ≠ .none) : (context.inFunction kind).Flagged true c :=
  ⟨decide_eq_true hk, h.classKind⟩

theorem inClass (h : context.Flagged f c) {kind : ClassKind} (hk : kind ≠ .none) :
    (context.inClass kind).Flagged f true := ⟨h.function, decide_eq_true hk⟩

end Context.Flagged

theorem Walk.methodKind_ne_none (name : Token) : methodKind name ≠ .none := by
  unfold methodKind
  split <;> decide

theorem Walk.classKindOf_ne_none (superclass : Option Reference) :
    classKindOf superclass ≠ .none := by
  cases superclass <;> simp [classKindOf]

/-- The walk and the sight hold the same names and have made the same bindings. -/
structure Walk.Agrees (walk : Walk) (sight : Sight) : Prop where
  bindings : walk.bindings = sight.bindings
  scopes : List.Forall₂ (fun frame names => ∀ name, Frame.holds frame name ↔ name ∈ names)
    walk.scopes.frames sight.scopes

namespace Walk.Agrees

variable {walk : Walk} {sight : Sight}

/-- What the walk does to its log and its diagnostics does not show. -/
theorem of_eq (h : walk.Agrees sight) {walk' : Walk} (hb : walk'.bindings = walk.bindings)
    (hs : walk'.scopes = walk.scopes) : walk'.Agrees sight :=
  ⟨hb.trans h.bindings, hs ▸ h.scopes⟩

theorem log (h : walk.Agrees sight) (event : Event) : (walk.log event).Agrees sight :=
  h.of_eq rfl rfl

theorem report (h : walk.Agrees sight) (diagnostic : Diagnostic) :
    (walk.report diagnostic).Agrees sight := h.of_eq rfl rfl

theorem reportIf (h : walk.Agrees sight) (condition : Bool) (token : Token) (cause : Cause) :
    (walk.reportIf condition token cause).Agrees sight := by
  unfold Walk.reportIf
  split
  · exact h.report _
  · exact h

theorem distance_eq (h : walk.Agrees sight) (name : String) :
    walk.scopes.distance? name = Sight.distance? sight.scopes name := by
  have hall := h.scopes
  unfold Scopes.distance? Sight.distance?
  generalize walk.scopes.frames = frames at hall
  generalize sight.scopes = scopes at hall
  induction hall with
  | nil => rfl
  | @cons frame names frames scopes hframe _ ih =>
    have hhead : Frame.holds frame name = decide (name ∈ names) := by
      rw [Bool.eq_iff_iff, hframe name, decide_eq_true_iff]
    rw [List.findIdx?_cons, List.findIdx?_cons, hhead, ih]

theorem bind (h : walk.Agrees sight) (id : Nat) (name : String) :
    (walk.bind id name).Agrees (sight.bind ⟨id, name, false⟩) := by
  have hd := h.distance_eq name
  unfold Walk.bind Scopes.resolveReference Sight.bind
  rw [hd]
  cases Sight.distance? sight.scopes name with
  | none => exact h
  | some distance =>
    refine ⟨?_, h.scopes⟩
    show walk.bindings.insert id distance = sight.bindings.insert id distance
    rw [h.bindings]

theorem read (h : walk.Agrees sight) (target : Reference) :
    (walk.read target).Agrees (sight.bind ⟨target.id, target.name.text, false⟩) :=
  (h.reportIf _ _ _).bind _ _

theorem readSelf (h : walk.Agrees sight) (context : Context) (id : Nat) (keyword : Token) :
    (walk.readSelf context id keyword).Agrees
      (sight.bind ⟨id, selfName, !decide (context.classKind ≠ .none)⟩) := by
  unfold Walk.readSelf
  by_cases hclass : context.classKind = .none
  · rw [if_pos hclass]
    simpa [Sight.bind, hclass] using h.report _
  · rw [if_neg hclass]
    simpa [hclass] using h.bind id selfName

theorem readSuper (h : walk.Agrees sight) (context : Context) (id : Nat) (keyword : Token) :
    (walk.readSuper context id keyword).Agrees (sight.bind ⟨id, superName, false⟩) :=
  ((h.reportIf _ _ _).reportIf _ _ _).bind _ _

theorem enterScope (h : walk.Agrees sight) :
    walk.enterScope.Agrees ⟨[] :: sight.scopes, sight.bindings⟩ :=
  ⟨h.bindings, .cons (fun name => by simp [Frame.holds, Frame.state?]) h.scopes⟩

theorem leaveScope {names : List String} {scopes : List (List String)} {bindings : Bindings}
    (h : walk.Agrees ⟨names :: scopes, bindings⟩) :
    walk.leaveScope.Agrees ⟨scopes, bindings⟩ := by
  refine ⟨h.bindings, ?_⟩
  have hall := h.scopes
  show List.Forall₂ _ walk.scopes.frames.tail scopes
  cases hf : walk.scopes.frames with
  | nil => rw [hf] at hall; cases hall
  | cons frame frames =>
    rw [hf] at hall
    cases hall with
    | cons _ hrest => exact hrest

/-- A name is declared for the innermost scope, whether it was there already or not. -/
theorem declare (h : walk.Agrees sight) (name : Token) :
    (walk.declare name).Agrees (sight.look (.declares name.text)) := by
  obtain ⟨⟨frames⟩, made, diagnostics, events⟩ := walk
  obtain ⟨scopes, kept⟩ := sight
  obtain ⟨hb, hall⟩ := h
  cases hall with
  | nil => exact ⟨hb, .nil⟩
  | @cons frame names frames scopes hframe hrest =>
    by_cases hheld : frame.holds name.text
    · rw [Walk.declare_of_holds rfl hheld]
      refine ⟨?_, ?_⟩
      · simpa [Sight.look, Walk.report, Walk.log] using hb
      · have hmem := (hframe name.text).1 hheld
        refine .cons (fun other => ?_) hrest
        rw [hframe, List.mem_append, List.mem_singleton]
        constructor
        · exact .inl
        · rintro (hother | rfl)
          · exact hother
          · exact hmem
    · rw [Walk.declare_of_not_holds rfl hheld]
      refine ⟨?_, ?_⟩
      · simpa [Sight.look] using hb
      · refine .cons (fun other => ?_) hrest
        rw [Frame.holds_set, Bool.or_eq_true, decide_eq_true_iff, hframe, List.mem_append,
          List.mem_singleton, or_comm]

/-- Defining a name adds it to the innermost scope as declaring it does. -/
theorem define (h : walk.Agrees sight) (name : String) :
    (walk.define name).Agrees (sight.look (.declares name)) := by
  obtain ⟨⟨frames⟩, made, diagnostics, events⟩ := walk
  obtain ⟨scopes, kept⟩ := sight
  obtain ⟨hb, hall⟩ := h
  cases hall with
  | nil => exact ⟨hb, .nil⟩
  | cons hframe hrest =>
    refine ⟨hb, .cons (fun other => ?_) hrest⟩
    rw [Frame.holds_set, Bool.or_eq_true, decide_eq_true_iff, hframe, List.mem_append,
      List.mem_singleton, or_comm]

/-- Defining a name that the innermost scope holds changes nothing. -/
theorem define_again (h : walk.Agrees sight) {names : List String} {scopes : List (List String)}
    (hs : sight.scopes = Sight.extend names scopes) {name : String} (hname : name ∈ names) :
    (walk.define name).Agrees sight := by
  obtain ⟨hb, hall⟩ := h.define name
  refine ⟨hb, ?_⟩
  rw [hs]
  simp only [Sight.look, hs] at hall
  generalize (walk.define name).scopes.frames = frames at hall ⊢
  cases scopes with
  | nil => exact hall
  | cons own outer =>
    cases hall with
    | cons hframe hrest =>
      refine .cons (fun other => ?_) hrest
      rw [hframe]
      simp only [List.mem_append, List.mem_singleton]
      constructor
      · rintro ((hother | hother) | rfl)
        · exact .inl hother
        · exact .inr hother
        · exact .inr hname
      · exact .inl

/-- What the walk does between opening and closing a scope is what a scope of the outline does. -/
theorem leaveScope_look {list : List Outline}
    (h : walk.Agrees (Sight.lookAll ⟨[] :: sight.scopes, sight.bindings⟩ list)) :
    walk.leaveScope.Agrees (sight.look (.scope list)) := by
  have hs := Sight.scopes_lookAll ⟨[] :: sight.scopes, sight.bindings⟩ list
  obtain ⟨hb, hall⟩ := h
  rw [hs] at hall
  have hinner : walk.Agrees ⟨([] ++ Outline.declared list) :: sight.scopes,
      (sight.look (.scope list)).bindings⟩ := ⟨hb, hall⟩
  exact hinner.leaveScope

variable {context : Context} {inFunction inClass : Bool}

mutual

theorem expression (hc : context.Flagged inFunction inClass) {walk : Walk} {sight : Sight}
    (h : walk.Agrees sight) :
    ∀ e : Expr, (walk.expression context e).Agrees (sight.lookAll (e.outline inClass))
  | .literal _ _ => h
  | .read target => h.read target
  | .assign target value _ => by
    rw [Expr.outline, Expr.uses, List.map_append, Sight.lookAll_append]
    exact (h.expression hc value).bind _ _
  | .binary _ left _ right _ => by
    rw [Expr.outline, Expr.uses, List.map_append, Sight.lookAll_append]
    exact (h.expression hc left).expression hc right
  | .unary _ operand _ => h.expression hc operand
  | .grouping content _ => h.expression hc content
  | .conditional condition thenBranch elseBranch _ => by
    rw [Expr.outline, Expr.uses, List.map_append, List.map_append, Sight.lookAll_append,
      Sight.lookAll_append]
    exact ((h.expression hc condition).expression hc thenBranch).expression hc elseBranch
  | .call callee arguments _ => by
    rw [Expr.outline, Expr.uses, List.map_append, Sight.lookAll_append]
    exact (h.expression hc callee).expressions hc arguments
  | .get object _ _ => h.expression hc object
  | .set object _ value _ => by
    rw [Expr.outline, Expr.uses, List.map_append, Sight.lookAll_append]
    exact (h.expression hc object).expression hc value
  | .superMethod id keyword _ _ => h.readSuper context id keyword
  | .selfRef id keyword => by
    rw [← hc.classKind]
    exact h.readSelf context id keyword

theorem expressions (hc : context.Flagged inFunction inClass) {walk : Walk} {sight : Sight}
    (h : walk.Agrees sight) :
    ∀ list : List Expr, (walk.expressions context list).Agrees
      (sight.lookAll ((Expr.usesAll inClass false list).map .uses))
  | [] => h
  | e :: rest => by
    rw [Expr.usesAll, List.map_append, Sight.lookAll_append]
    exact (h.expression hc e).expressions hc rest

end

section Statements

variable (hc : context.Flagged inFunction inClass)
include hc

theorem expression? (h : walk.Agrees sight) (value : Option Expr) :
    (walk.expression? context value).Agrees (sight.lookAll (Expr.outline? inClass value)) := by
  cases value with
  | none => exact h
  | some e => exact h.expression hc e

theorem letDecl (h : walk.Agrees sight) (declaration : LetDecl) :
    (walk.letDecl context declaration).Agrees (sight.lookAll (declaration.outline inClass)) := by
  have hvalue : ((walk.declare declaration.name).expression? context declaration.value).Agrees
      (sight.lookAll (declaration.outline inClass)) :=
    (h.declare declaration.name).expression? hc declaration.value
  refine hvalue.define_again (Sight.scopes_lookAll _ _) ?_
  simp [LetDecl.outline, Outline.declared]

theorem forStart (h : walk.Agrees sight) (start : Option ForStart) :
    (walk.forStart context start).Agrees (sight.lookAll (ForStart.outline inClass start)) := by
  rcases start with _ | declaration | ⟨e, span⟩
  · exact h
  · exact h.letDecl hc declaration
  · exact h.expression hc e

theorem returnValue (h : walk.Agrees sight) (keyword : Token) (value : Option Expr) :
    (walk.returnValue context keyword value).Agrees
      (sight.lookAll (returnOutline inFunction inClass value)) := by
  cases value with
  | none => exact h.reportIf _ _ _
  | some e =>
    have hinside := h.reportIf (context.function = .none) keyword .returnOutsideFunction
    have hreported :=
      hinside.reportIf (context.function = .initializer) keyword .returnValueFromInitializer
    by_cases hfunction : context.function = .none
    · have hflag : inFunction = false := by rw [← hc.function]; simpa using hfunction
      subst hflag
      have hexempt : sight.lookAll (returnOutline false inClass (some e)) = sight :=
        sight.lookAll_exempt fun use huse => e.exempt_of_mem_uses huse
      rw [hexempt]
      simpa only [Walk.returnValue, if_pos hfunction] using hreported
    · have hflag : inFunction = true := by rw [← hc.function]; simpa using hfunction
      subst hflag
      simpa only [Walk.returnValue, if_neg hfunction, returnOutline, Bool.not_true,
        Expr.outline] using hreported.expression hc e

end Statements

theorem declareDefined (h : walk.Agrees sight) (name : Token) :
    (walk.declareDefined name).Agrees (sight.look (.declares name.text)) :=
  (h.declare name).define_again (Sight.scopes_look sight _) (by simp [Outline.declared])

/-- Opening a function opens a scope and declares its parameters there. -/
theorem enterFunction (h : walk.Agrees sight) (parameters : List Token) :
    (walk.enterFunction parameters).Agrees
      (Sight.lookAll ⟨[] :: sight.scopes, sight.bindings⟩
        (parameters.map fun parameter => .declares parameter.text)) := by
  unfold Walk.enterFunction
  have hopen := h.enterScope
  generalize (⟨[] :: sight.scopes, sight.bindings⟩ : Sight) = opened at hopen
  generalize walk.enterScope = inner at hopen
  induction parameters generalizing inner opened with
  | nil => exact hopen
  | cons parameter parameters ih => exact ih _ _ (hopen.declareDefined parameter)

/-- The scopes of a class around its methods are opened and closed as its outline says. -/
theorem classDecl (h : walk.Agrees sight) (name : Token) (superclass : Option Reference)
    {methods : List Outline} {within : Walk → Walk}
    (hmethods : ∀ {walk : Walk} {sight : Sight}, walk.Agrees sight →
      (within walk).Agrees (sight.lookAll methods)) :
    ((within (walk.enterClass name superclass)).leaveClass superclass).Agrees
      (sight.lookAll (.declares name.text ::
        (superclassOutline superclass ++ [classScopes superclass methods]))) := by
  cases superclass with
  | none =>
    exact (hmethods ((h.declareDefined name).enterScope.define selfName)).leaveScope_look
  | some parent =>
    have hread := (h.declare name).read parent
    have hscopes : (Sight.bind ⟨parent.id, parent.name.text, false⟩
        (sight.look (.declares name.text))).scopes = Sight.extend [name.text] sight.scopes := by
      rw [Sight.scopes_bind]
      rfl
    have hdefined := hread.define_again hscopes List.mem_cons_self
    exact (hmethods ((hdefined.enterScope.define superName).enterScope.define
      selfName)).leaveScope_look.leaveScope_look

mutual

theorem statement {context : Context} {inFunction inClass : Bool}
    (hc : context.Flagged inFunction inClass) {walk : Walk} {sight : Sight}
    (h : walk.Agrees sight) :
    ∀ s : Stmt, (walk.statement context s).Agrees (sight.lookAll (s.outline inFunction inClass))
  | .block body _ => (h.enterScope.statements hc body).leaveScope_look
  | .letDecl declaration => h.letDecl hc declaration
  | .expression e _ => h.expression hc e
  | .print e _ => h.expression hc e
  | .ifElse condition thenBody none _ => by
    rw [Stmt.outline, Sight.lookAll_append]
    exact (h.expression hc condition).statement hc thenBody
  | .ifElse condition thenBody (some elseBody) _ => by
    rw [Stmt.outline, Sight.lookAll_append, Sight.lookAll_append]
    exact ((h.expression hc condition).statement hc thenBody).statement hc elseBody
  | .whileLoop condition body _ => by
    rw [Stmt.outline, Sight.lookAll_append]
    exact (h.expression hc condition).statement (hc.inLoop .loop) body
  | .doWhile body condition _ => by
    rw [Stmt.outline, Sight.lookAll_append]
    exact (h.statement (hc.inLoop .loop) body).expression hc condition
  | .forLoop start condition increment body _ => by
    rw [Stmt.outline, Sight.lookAll_append, Sight.lookAll_append, Sight.lookAll_append]
    exact (((h.forStart hc start).expression? hc condition).expression? hc increment).statement
      (hc.inLoop .loop) body
  | .switch subject arms _ => by
    rw [Stmt.outline, Sight.lookAll_append]
    exact (h.expression hc subject).cases (hc.inLoop .switch) arms
  | .breakLoop _ => h.reportIf _ _ _
  | .continueLoop _ => h.reportIf _ _ _
  | .returnValue keyword value _ => h.returnValue hc keyword value
  | .function (.mk name parameters body span) => by
    have hkind : FunctionKind.function ≠ .none := by decide
    exact (h.declareDefined name).function hc hkind (.mk name parameters body span)
  | .classDecl name superclass list _ =>
    h.classDecl name superclass fun h =>
      h.methods (hc.inClass (Walk.classKindOf_ne_none superclass)) list

theorem statements {context : Context} {inFunction inClass : Bool}
    (hc : context.Flagged inFunction inClass) {walk : Walk} {sight : Sight}
    (h : walk.Agrees sight) :
    ∀ list : List Stmt, (walk.statements context list).Agrees
      (sight.lookAll (Stmt.outlines inFunction inClass list))
  | [] => h
  | s :: rest => by
    rw [Stmt.outlines, Sight.lookAll_append]
    exact (h.statement hc s).statements hc rest

theorem cases {context : Context} {inFunction inClass : Bool}
    (hc : context.Flagged inFunction inClass) {walk : Walk} {sight : Sight}
    (h : walk.Agrees sight) :
    ∀ arms : List Case, (walk.cases context arms).Agrees
      (sight.lookAll (Case.outlines inFunction inClass arms))
  | [] => h
  | .mk value body _ :: rest => by
    rw [Case.outlines, Sight.lookAll_append]
    exact ((h.expression? hc value).enterScope.statements hc body).leaveScope_look.cases hc rest

/-- A function that has been declared, or a method. -/
theorem function {context : Context} {inFunction inClass : Bool}
    (hc : context.Flagged inFunction inClass) {kind : FunctionKind} (hk : kind ≠ .none)
    {walk : Walk} {sight : Sight} (h : walk.Agrees sight) :
    ∀ f : Function, (((walk.enterFunction f.parameters).statements (context.inFunction kind)
      f.body).leaveScope).Agrees (sight.look (f.outline inClass))
  | .mk name parameters body _ => by
    have hbody := (h.enterFunction parameters).statements (hc.inFunction hk) body
    rw [← Sight.lookAll_append] at hbody
    exact hbody.leaveScope_look

theorem methods {context : Context} {inFunction : Bool} (hc : context.Flagged inFunction true)
    {walk : Walk} {sight : Sight} (h : walk.Agrees sight) :
    ∀ list : List Function, (walk.methods context list).Agrees
      (sight.lookAll (Function.outlines list))
  | [] => h
  | .mk name parameters body span :: rest =>
    (h.function hc (Walk.methodKind_ne_none name) (.mk name parameters body span)).methods hc rest

end

end Walk.Agrees
end LexicalScoping
