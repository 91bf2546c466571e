import LexicalScoping.Proofs.Grammar.Alike
import LexicalScoping.Proofs.Scope.Blame

/-!
# Resolving alike

Programs of one shape with the same numbers are resolved alike, if their names correspond one to
one. The invariant of the two walks is that their frames hold corresponding names in the same order
and state, that their bindings are equal, and that they have reported the same kinds of things about
corresponding tokens. A walk compares names with each other and one name with that of initializers,
so nothing more is asked of the correspondence.
-/
namespace LexicalScoping

/-- The names of corresponding tokens correspond one to one. The names that mean something to the
walk correspond to themselves. -/
structure Renaming (R : Token → Token → Prop) (N : String → String → Prop) : Prop where
  unique : ∀ {x x' y y'}, N x x' → N y y' → (x = y ↔ x' = y')
  text : ∀ {t t'}, Token.NamesAlike R t t' → N t.text t'.text
  selfName : N selfName selfName
  superName : N superName superName
  initializerName : N initializerName initializerName

/-- The frames hold corresponding names in the same order and state. -/
def Frame.Alike (N : String → String → Prop) : Frame → Frame → Prop :=
  List.Forall₂ fun entry entry' => N entry.1 entry'.1 ∧ entry.2 = entry'.2

/-- The open scopes hold corresponding names. -/
def Scopes.Alike (N : String → String → Prop) (scopes scopes' : Scopes) : Prop :=
  List.Forall₂ (Frame.Alike N) scopes.frames scopes'.frames

/-- The walks have come equally far. -/
structure Walk.Alike (R : Token → Token → Prop) (N : String → String → Prop)
    (walk walk' : Walk) : Prop where
  scopes : walk.scopes.Alike N walk'.scopes
  bindings : walk.bindings = walk'.bindings
  reported : List.Forall₂ (Diagnostic.Alike R) walk.reported walk'.reported

variable {R : Token → Token → Prop} {N : String → String → Prop}

section Names

variable (hN : Renaming R N)
include hN

theorem Frame.Alike.state?_eq {frame frame' : Frame} (h : frame.Alike N frame')
    {name name' : String} (hname : N name name') : frame.state? name = frame'.state? name' := by
  induction h with
  | nil => rfl
  | @cons entry entry' frame frame' hentry _ ih =>
    obtain ⟨hsame, hstate⟩ := hentry
    have hiff : name = entry.1 ↔ name' = entry'.1 := hN.unique hname hsame
    unfold state? at ih ⊢
    rw [lookup_cons_eq_ite, lookup_cons_eq_ite, ih, hstate]
    simp only [hiff]

theorem Frame.Alike.holds_eq {frame frame' : Frame} (h : frame.Alike N frame')
    {name name' : String} (hname : N name name') : frame.holds name = frame'.holds name' := by
  unfold holds
  rw [h.state?_eq hN hname]

theorem methodKind_eq {name name' : Token} (h : Token.NamesAlike R name name') :
    Walk.methodKind name = Walk.methodKind name' := by
  have hiff := hN.unique (hN.text h) hN.initializerName
  unfold Walk.methodKind
  simp only [hiff]

namespace Scopes.Alike

variable {scopes scopes' : Scopes} (h : scopes.Alike N scopes') {name name' : String}
  (hname : N name name')
include h

omit hN in
theorem enter : scopes.enter.Alike N scopes'.enter := .cons .nil h

omit hN in
theorem leave : scopes.leave.Alike N scopes'.leave := by
  obtain ⟨frames⟩ := scopes
  obtain ⟨frames'⟩ := scopes'
  cases h with
  | nil => exact .nil
  | cons _ hrest => exact hrest

include hname

theorem stateInnermost?_eq : scopes.stateInnermost? name = scopes'.stateInnermost? name' := by
  obtain ⟨frames⟩ := scopes
  obtain ⟨frames'⟩ := scopes'
  cases h with
  | nil => rfl
  | cons hframe _ => exact hframe.state?_eq hN hname

theorem distance?_eq : scopes.distance? name = scopes'.distance? name' := by
  obtain ⟨frames⟩ := scopes
  obtain ⟨frames'⟩ := scopes'
  unfold distance?
  change List.Forall₂ _ frames frames' at h
  induction h with
  | nil => rfl
  | cons hframe _ ih => simp only [List.findIdx?_cons, hframe.holds_eq hN hname, ih]

omit hN in
theorem define : (scopes.define name).Alike N (scopes'.define name') := by
  obtain ⟨frames⟩ := scopes
  obtain ⟨frames'⟩ := scopes'
  cases h with
  | nil => exact .nil
  | cons hframe hrest => exact .cons (.cons ⟨hname, rfl⟩ hframe) hrest

end Scopes.Alike
end Names

namespace Walk.Alike

variable {walk walk' : Walk}

section Steps

variable (h : walk.Alike R N walk')
include h

theorem report {t t' : Token} (ht : R t t') (cause cause' : Cause)
    (hname : cause.name = cause'.name) :
    (walk.report (t.diagnostic cause)).Alike R N (walk'.report (t'.diagnostic cause')) := by
  refine ⟨h.scopes, h.bindings, ?_⟩
  rw [reported_report, reported_report]
  exact List.rel_append h.reported (.cons (Token.diagnostic_alike ht hname) .nil)

theorem reportIf {t t' : Token} (ht : R t t') (condition : Bool) (cause cause' : Cause)
    (hname : cause.name = cause'.name) :
    (walk.reportIf condition t cause).Alike R N (walk'.reportIf condition t' cause') := by
  cases condition with
  | false => exact h
  | true => exact h.report ht cause cause' hname

theorem enterScope : walk.enterScope.Alike R N walk'.enterScope :=
  ⟨h.scopes.enter, h.bindings, h.reported⟩

theorem leaveScope : walk.leaveScope.Alike R N walk'.leaveScope :=
  ⟨h.scopes.leave, h.bindings, h.reported⟩

theorem defineName {name name' : String} (hname : N name name') :
    (walk.define name).Alike R N (walk'.define name') :=
  ⟨h.scopes.define hname, h.bindings, h.reported⟩

variable (hN : Renaming R N)
include hN

theorem bind (id : Nat) {name name' : String} (hname : N name name') :
    (walk.bind id name).Alike R N (walk'.bind id name') := by
  unfold Walk.bind Scopes.resolveReference
  rw [h.scopes.distance?_eq hN hname, h.bindings]
  cases walk'.scopes.distance? name' with
  | none => exact h
  | some distance => exact ⟨h.scopes, rfl, h.reported⟩

theorem declare {name name' : Token} (hname : Token.NamesAlike R name name') :
    (walk.declare name).Alike R N (walk'.declare name') := by
  have hreport := h.report hname.1 (.variableAlreadyDeclared name.text)
    (.variableAlreadyDeclared name'.text) rfl
  have htext := hN.text hname
  obtain ⟨⟨frames⟩, bindings, diagnostics, events⟩ := walk
  obtain ⟨⟨frames'⟩, bindings', diagnostics', events'⟩ := walk'
  obtain ⟨hscopes, hbindings, hreported⟩ := h
  cases hscopes with
  | nil => exact ⟨.nil, hbindings, hreported⟩
  | @cons frame frame' frames frames' hframe hrest =>
    have hholds := hframe.holds_eq hN htext
    by_cases hh : frame'.holds name'.text
    · rw [Walk.declare_of_holds rfl (hholds.trans hh), Walk.declare_of_holds rfl hh]
      exact hreport
    · have hnot : ¬ frame.holds name.text := by rwa [hholds]
      rw [Walk.declare_of_not_holds rfl hnot, Walk.declare_of_not_holds rfl hh]
      exact ⟨.cons (.cons ⟨htext, rfl⟩ hframe) hrest, hbindings, hreported⟩

theorem read {target target' : Reference} (htarget : target.Alike R target') :
    (walk.read target).Alike R N (walk'.read target') := by
  have htext := hN.text htarget.name
  unfold Walk.read
  rw [h.scopes.stateInnermost?_eq hN htext, htarget.id]
  exact (h.reportIf htarget.name.1 _ (.readInOwnInitializer target.name.text)
    (.readInOwnInitializer target'.name.text) rfl).bind hN _ htext

theorem readSelf (context : Context) (id : Nat) {keyword keyword' : Token}
    (hkeyword : R keyword keyword') :
    (walk.readSelf context id keyword).Alike R N (walk'.readSelf context id keyword') := by
  unfold Walk.readSelf
  by_cases hc : context.classKind = .none
  · rw [if_pos hc, if_pos hc]
    exact h.report hkeyword _ _ rfl
  · rw [if_neg hc, if_neg hc]
    exact h.bind hN id hN.selfName

theorem readSuper (context : Context) (id : Nat) {keyword keyword' : Token}
    (hkeyword : R keyword keyword') :
    (walk.readSuper context id keyword).Alike R N (walk'.readSuper context id keyword') :=
  ((h.reportIf hkeyword _ _ _ rfl).reportIf hkeyword _ _ _ rfl).bind hN id hN.superName

end Steps

mutual

theorem expression (hN : Renaming R N) (context : Context) {walk walk' : Walk}
    (h : walk.Alike R N walk') {e e' : Expr} : e.Alike R e' →
      (walk.expression context e).Alike R N (walk'.expression context e')
  | .literal _ => h
  | .read htarget => h.read hN htarget
  | .assign htarget hvalue => by
    have htext := hN.text htarget.name
    rw [Walk.expression, Walk.expression, htarget.id]
    exact (expression hN context h hvalue).bind hN _ htext
  | .binary hleft _ hright => expression hN context (expression hN context h hleft) hright
  | .unary _ hoperand => (expression hN context h hoperand :)
  | .grouping hcontent => (expression hN context h hcontent :)
  | .conditional hcondition hthen helse =>
    expression hN context (expression hN context (expression hN context h hcondition) hthen) helse
  | .call hcallee harguments => expressions hN context (expression hN context h hcallee) harguments
  | .get hobject _ => (expression hN context h hobject :)
  | .set hobject _ hvalue => expression hN context (expression hN context h hobject) hvalue
  | .superMethod hkeyword _ => h.readSuper hN context _ hkeyword
  | .selfRef hkeyword => h.readSelf hN context _ hkeyword

theorem expressions (hN : Renaming R N) (context : Context) {walk walk' : Walk}
    (h : walk.Alike R N walk') {list list' : List Expr} : List.Forall₂ (Expr.Alike R) list list' →
      (walk.expressions context list).Alike R N (walk'.expressions context list')
  | .nil => h
  | .cons he hrest => expressions hN context (expression hN context h he) hrest

end

section Parts

variable (hN : Renaming R N)
include hN

theorem expression? (context : Context) (h : walk.Alike R N walk') {value value' : Option Expr}
    (hvalue : Option.Rel (Expr.Alike R) value value') :
    (walk.expression? context value).Alike R N (walk'.expression? context value') := by
  cases hvalue with
  | none => exact h
  | some he => exact expression hN context h he

theorem letDecl (context : Context) (h : walk.Alike R N walk')
    {declaration declaration' : LetDecl} (hd : declaration.Alike R declaration') :
    (walk.letDecl context declaration).Alike R N (walk'.letDecl context declaration') :=
  (expression? hN context (h.declare hN hd.name) hd.value).defineName (hN.text hd.name)

theorem forStart (context : Context) (h : walk.Alike R N walk') {start start' : Option ForStart}
    (hstart : Option.Rel (ForStart.Alike R) start start') :
    (walk.forStart context start).Alike R N (walk'.forStart context start') := by
  cases hstart with
  | none => exact h
  | some hclause =>
    cases hclause with
    | declare hd => exact letDecl hN context h hd
    | evaluate he => exact expression hN context h he

theorem returnValue (context : Context) (h : walk.Alike R N walk') {keyword keyword' : Token}
    (hkeyword : R keyword keyword') {value value' : Option Expr}
    (hvalue : Option.Rel (Expr.Alike R) value value') :
    (walk.returnValue context keyword value).Alike R N
      (walk'.returnValue context keyword' value') := by
  have houtside := h.reportIf hkeyword (context.function = .none) .returnOutsideFunction
    .returnOutsideFunction rfl
  cases hvalue with
  | none => exact houtside
  | some he =>
    have hinitializer := houtside.reportIf hkeyword (context.function = .initializer)
      .returnValueFromInitializer .returnValueFromInitializer rfl
    by_cases hf : context.function = .none
    · simp only [Walk.returnValue, if_pos hf]
      exact hinitializer
    · simp only [Walk.returnValue, if_neg hf]
      exact expression hN context hinitializer he

theorem declareDefined (h : walk.Alike R N walk') {name name' : Token}
    (hname : Token.NamesAlike R name name') :
    (walk.declareDefined name).Alike R N (walk'.declareDefined name') :=
  (h.declare hN hname).defineName (hN.text hname)

theorem enterFunction (h : walk.Alike R N walk') {parameters parameters' : List Token}
    (hparameters : List.Forall₂ (Token.NamesAlike R) parameters parameters') :
    (walk.enterFunction parameters).Alike R N (walk'.enterFunction parameters') := by
  unfold Walk.enterFunction
  have hentered := h.enterScope
  generalize walk.enterScope = inner at hentered
  generalize walk'.enterScope = inner' at hentered
  induction hparameters generalizing inner inner' with
  | nil => exact hentered
  | cons hname _ ih => exact ih _ _ (declareDefined hN hentered hname)

theorem enterClass (h : walk.Alike R N walk') {name name' : Token}
    (hname : Token.NamesAlike R name name') {superclass superclass' : Option Reference}
    (hsuper : Option.Rel (Reference.Alike R) superclass superclass') :
    (walk.enterClass name superclass).Alike R N (walk'.enterClass name' superclass') := by
  have hdeclared := h.declare hN hname
  have htext := hN.text hname
  cases hsuper with
  | none => exact (hdeclared.defineName htext).enterScope.defineName hN.selfName
  | some hparent =>
    exact (((hdeclared.read hN hparent).defineName htext).enterScope.defineName
      hN.superName).enterScope.defineName hN.selfName

omit hN in
theorem leaveClass (h : walk.Alike R N walk') {superclass superclass' : Option Reference}
    (hsuper : Option.Rel (Reference.Alike R) superclass superclass') :
    (walk.leaveClass superclass).Alike R N (walk'.leaveClass superclass') := by
  cases hsuper with
  | none => exact h.leaveScope
  | some => exact h.leaveScope.leaveScope

omit hN in
theorem classKindOf_eq {superclass superclass' : Option Reference}
    (hsuper : Option.Rel (Reference.Alike R) superclass superclass') :
    classKindOf superclass = classKindOf superclass' := by
  cases hsuper <;> rfl

end Parts

mutual

theorem statement (hN : Renaming R N) (context : Context) {walk walk' : Walk}
    (h : walk.Alike R N walk') {s s' : Stmt} : s.Alike R s' →
      (walk.statement context s).Alike R N (walk'.statement context s')
  | .block hbody => (statements hN context h.enterScope hbody).leaveScope
  | .letDecl hd => letDecl hN context h hd
  | .expression he => expression hN context h he
  | .print he => expression hN context h he
  | .ifElse hcondition hthen .none =>
    (statement hN context (expression hN context h hcondition) hthen :)
  | .ifElse hcondition hthen (.some helse) =>
    statement hN context (statement hN context (expression hN context h hcondition) hthen) helse
  | .whileLoop hcondition hbody =>
    (statement hN (context.inLoop .loop) (expression hN context h hcondition) hbody :)
  | .doWhile hbody hcondition =>
    expression hN context (statement hN (context.inLoop .loop) h hbody) hcondition
  | .forLoop hstart hcondition hincrement hbody =>
    (statement hN (context.inLoop .loop) (expression? hN context (expression? hN context
      (forStart hN context h hstart) hcondition) hincrement) hbody :)
  | .switch hsubject harms =>
    cases hN (context.inLoop .switch) (expression hN context h hsubject) harms
  | .breakLoop hkeyword => h.reportIf hkeyword _ _ _ rfl
  | .continueLoop hkeyword => h.reportIf hkeyword _ _ _ rfl
  | .returnValue hkeyword hvalue => returnValue hN context h hkeyword hvalue
  | .function (.mk hname hparameters hbody) =>
    (statements hN (context.inFunction .function)
      (enterFunction hN (declareDefined hN h hname) hparameters) hbody).leaveScope
  | .classDecl hname hsuper hmethods => by
    rw [Walk.statement, Walk.statement, classKindOf_eq hsuper]
    exact (methods hN (context.inClass _) (enterClass hN h hname hsuper) hmethods).leaveClass hsuper

theorem statements (hN : Renaming R N) (context : Context) {walk walk' : Walk}
    (h : walk.Alike R N walk') {list list' : List Stmt} : List.Forall₂ (Stmt.Alike R) list list' →
      (walk.statements context list).Alike R N (walk'.statements context list')
  | .nil => h
  | .cons hs hrest => statements hN context (statement hN context h hs) hrest

theorem cases (hN : Renaming R N) (context : Context) {walk walk' : Walk}
    (h : walk.Alike R N walk') {arms arms' : List Case} : List.Forall₂ (Case.Alike R) arms arms' →
      (walk.cases context arms).Alike R N (walk'.cases context arms')
  | .nil => h
  | .cons (.mk hvalue hbody) hrest =>
    cases hN context (statements hN context (expression? hN context h hvalue).enterScope
      hbody).leaveScope hrest

theorem methods (hN : Renaming R N) (context : Context) {walk walk' : Walk}
    (h : walk.Alike R N walk') {list list' : List Function} :
    List.Forall₂ (Function.Alike R) list list' →
      (walk.methods context list).Alike R N (walk'.methods context list')
  | .nil => h
  | .cons (.mk hname hparameters hbody) hrest => by
    rw [Walk.methods, Walk.methods, methodKind_eq hN hname]
    exact methods hN context (statements hN (context.inFunction _) (enterFunction hN h hparameters)
      hbody).leaveScope hrest

end

end Walk.Alike

/-- Programs of one shape get the same bindings, and the same kinds of things are reported about
corresponding tokens of them. -/
theorem resolve_alike (hN : Renaming R N) {list list' : List Stmt}
    (h : List.Forall₂ (Stmt.Alike R) list list') :
    (resolve list).bindings = (resolve list').bindings ∧
      List.Forall₂ (Diagnostic.Alike R) (resolve list).diagnostics
        (resolve list').diagnostics := by
  have hbegin : ((Walk.begin #[]).log (.resolving list.length)).Alike R N
      ((Walk.begin #[]).log (.resolving list'.length)) := ⟨.nil, rfl, .nil⟩
  have hwalk := Walk.Alike.statements hN .topLevel hbegin h
  exact ⟨hwalk.bindings, hwalk.reported⟩

end LexicalScoping
