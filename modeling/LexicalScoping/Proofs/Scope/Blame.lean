import LexicalScoping.Proofs.Scope.Gains

/-!
# What is reported is what is wrong

Resolving a program reports, site by site and in order, what the surroundings of the site say is
wrong there, and nothing else. The invariant of the walk is that its open frames hold the names that
stand before the place, all of them readable, and that its context is what the constructs around the
place make it. Inside a declaration one name of the innermost frame may be unreadable; only mentions
stand there, and they leave the frames alone.
-/
namespace LexicalScoping

/-- The frames hold just these names, and each of them can be read. -/
def Scopes.Settled (scopes : Scopes) (names : List (List String)) : Prop :=
  List.Forall₂ (fun frame held => ∀ name, Frame.state? frame name =
    if name ∈ held then some .defined else none) scopes.frames names

namespace Scopes.Settled

variable {scopes : Scopes} {names : List (List String)}

theorem empty : Scopes.empty.Settled [] := .nil

theorem enter (h : scopes.Settled names) : scopes.enter.Settled ([] :: names) :=
  .cons (fun name => by simp [Frame.state?]) h

/-- What the innermost scope has gained it holds besides. -/
theorem gains {held : List String} {scopes' : Scopes} (h : scopes.Settled names)
    (hgains : Gains held scopes scopes') : scopes'.Settled (Sight.extend held names) := by
  cases hgains with
  | untracked =>
    cases h with
    | nil => exact .nil
  | innermost outer hstate =>
    cases h with
    | cons hframe hrest =>
      refine .cons (fun name => ?_) hrest
      by_cases hname : name ∈ held <;> simp [hstate, hframe, hname]

theorem stateInnermost?_ne_declared (h : scopes.Settled names) (name : String) :
    scopes.stateInnermost? name ≠ some .declared := by
  obtain ⟨frames⟩ := scopes
  cases h with
  | nil => simp [stateInnermost?]
  | @cons frame held _ _ hframe _ =>
    by_cases hm : name ∈ held <;> simp [stateInnermost?, hframe, hm]

end Scopes.Settled

namespace Walk

/-- What has been reported so far. -/
def reported (walk : Walk) : List Diagnostic := walk.diagnostics.toList

@[simp] theorem reported_report (walk : Walk) (diagnostic : Diagnostic) :
    (walk.report diagnostic).reported = walk.reported ++ [diagnostic] := by
  simp [reported, report]

@[simp] theorem reported_reportIf (walk : Walk) (condition : Bool) (token : Token)
    (cause : Cause) : (walk.reportIf condition token cause).reported =
      walk.reported ++ if condition then [token.diagnostic cause] else [] := by
  cases condition <;> simp [reportIf]

@[simp] theorem reported_bind (walk : Walk) (id : Nat) (name : String) :
    (walk.bind id name).reported = walk.reported := by
  unfold bind
  split <;> rfl

@[simp] theorem reported_enterScope (walk : Walk) : walk.enterScope.reported = walk.reported := rfl

@[simp] theorem reported_leaveScope (walk : Walk) : walk.leaveScope.reported = walk.reported := rfl

@[simp] theorem reported_define (walk : Walk) (name : String) :
    (walk.define name).reported = walk.reported := rfl

/-- What is wrong with a mention, as the walk sees it. -/
def fault? (context : Context) (scopes : Scopes) : Mention → Option Cause
  | .reads target =>
    if scopes.stateInnermost? target.name.text = some .declared then
      some (.readInOwnInitializer target.name.text)
    else none
  | .assigns _ => none
  | .selfRef _ _ => if context.classKind = .none then some .selfOutsideClass else none
  | .superRef _ _ =>
    match context.classKind with
    | .none => some .superOutsideClass
    | .plain => some .superWithoutSuperclass
    | .subclass => none

theorem reported_mention (context : Context) (walk : Walk) (m : Mention) :
    (walk.mention context m).reported =
      walk.reported ++ ((fault? context walk.scopes m).map m.token.diagnostic).toList := by
  cases m with
  | reads target =>
    by_cases h : walk.scopes.stateInnermost? target.name.text = some .declared <;>
      simp [mention, read, fault?, h, Mention.token]
  | assigns target => simp [mention, fault?]
  | selfRef id keyword =>
    by_cases h : context.classKind = .none <;>
      simp [mention, readSelf, fault?, h, Mention.token]
  | superRef id keyword =>
    cases h : context.classKind <;> simp [mention, readSuper, fault?, h, Mention.token]

theorem reported_mentionAll (context : Context) (walk : Walk) (list : List Mention) :
    (walk.mentionAll context list).reported = walk.reported ++
      list.filterMap fun m => (fault? context walk.scopes m).map m.token.diagnostic := by
  induction list generalizing walk with
  | nil => simp [mentionAll]
  | cons m list ih =>
    rw [mentionAll_cons, ih, scopes_mention, reported_mention, List.filterMap_cons]
    cases (fault? context walk.scopes m).map m.token.diagnostic <;> simp

/-- Declaring a name does nothing outside of all scopes; in a scope it is reported if the scope
holds the name, and otherwise the name is there without being readable. -/
theorem declare_cases {walk : Walk} {names : List (List String)} (h : walk.scopes.Settled names)
    (name : Token) :
    (names = [] ∧ walk.declare name = walk) ∨
    (∃ held outer, names = held :: outer ∧ name.text ∈ held ∧
      walk.declare name =
        walk.report (name.diagnostic (.variableAlreadyDeclared name.text))) ∨
    (∃ held outer frame frames, names = held :: outer ∧ name.text ∉ held ∧
      walk.scopes.frames = frame :: frames ∧
      walk.declare name = { walk with scopes := ⟨frame.set name.text .declared :: frames⟩ }) := by
  obtain ⟨⟨frames⟩, bindings, diagnostics, events⟩ := walk
  cases h with
  | nil => exact .inl ⟨rfl, rfl⟩
  | @cons frame held frames outer hframe _ =>
    by_cases hm : name.text ∈ held
    · have hholds : frame.holds name.text := by simp [Frame.holds, hframe, hm]
      exact .inr (.inl ⟨held, outer, rfl, hm, declare_of_holds rfl hholds⟩)
    · have hnot : ¬ frame.holds name.text := by simp [Frame.holds, hframe, hm]
      exact .inr (.inr ⟨held, outer, frame, frames, rfl, hm, rfl, declare_of_not_holds rfl hnot⟩)

section Declare

variable {walk : Walk} {names : List (List String)} (h : walk.scopes.Settled names) (name : Token)
include h

theorem reported_declare : (walk.declare name).reported = walk.reported ++
    if ∃ held ∈ names.head?, name.text ∈ held then
      [name.diagnostic (.variableAlreadyDeclared name.text)] else [] := by
  rcases declare_cases h name with ⟨rfl, he⟩ | ⟨held, outer, rfl, hm, he⟩ |
    ⟨held, outer, frame, frames, rfl, hm, -, he⟩
  · simp [he]
  · simp [he, hm]
  · rw [he]
    simp [hm, reported]

/-- The only name that can be unreadable is the one being declared, if it is new in its scope. -/
theorem stateInnermost?_declare (other : String) :
    (walk.declare name).scopes.stateInnermost? other = some .declared ↔
      other = name.text ∧ ∃ held ∈ names.head?, name.text ∉ held := by
  have hsettled := h.stateInnermost?_ne_declared other
  rcases declare_cases h name with ⟨rfl, he⟩ | ⟨held, outer, rfl, hm, he⟩ |
    ⟨held, outer, frame, frames, rfl, hm, hf, he⟩
  · simp [he, hsettled]
  · simp [he, hm, report, log, hsettled]
  · have hstate : frame.state? other ≠ some .declared := by
      simpa [Scopes.stateInnermost?, hf] using hsettled
    rw [he]
    by_cases hother : other = name.text
    · simp [Scopes.stateInnermost?, hother, hm]
    · simp [Scopes.stateInnermost?, hother, hstate]

end Declare

end Walk

namespace Context

/-- What the constructs around a place make its context. -/
def inside (around : List Layer) : Context :=
  around.foldr (fun layer context => layer.construct.inner context) topLevel

theorem inside_cons (layer : Layer) (around : List Layer) :
    inside (layer :: around) = layer.construct.inner (inside around) := rfl

end Context

namespace Site

/-- What a piece puts into its scope is held behind it. -/
theorem scopes_append (before list : List Piece) (around : List Layer) :
    scopes (before ++ list) around = Sight.extend (Piece.heldIn list) (scopes before around) := by
  cases around with
  | nil => rfl
  | cons layer around =>
    by_cases hc : layer.construct.opensScope
    · simp [scopes, hc, Piece.heldIn_append, Sight.extend]
    · simp [scopes, hc, Piece.heldIn_append, Sight.extend_append]

/-- The context of a site, as its surroundings make it. -/
def context (site : Site) : Context := .inside site.around

theorem loop_context (site : Site) : site.context.loop = .none ↔ ¬ site.InLoop := by
  obtain ⟨subject, before, around⟩ := site
  unfold context InLoop constructs
  induction around with
  | nil => simp [Context.inside, Context.topLevel]
  | cons layer around ih =>
    have hinner : (layer.construct.inner (Context.inside around)).loop = .none ↔
        ¬ layer.construct.isLoop ∧ (Context.inside around).loop = .none := by
      cases layer.construct <;>
        simp [Construct.inner, Construct.isLoop, Context.inLoop, Context.inFunction,
          Context.inClass]
    rw [Context.inside_cons, hinner, ih, List.map_cons, List.exists_mem_cons_iff, not_or]

theorem function_context (site : Site) : site.context.function =
    match site.function? with
    | none => .none
    | some (.method name) => Walk.methodKind name
    | some _ => .function := by
  obtain ⟨subject, before, around⟩ := site
  induction around with
  | nil => rfl
  | cons layer around ih =>
    obtain ⟨construct, outside⟩ := layer
    cases construct with
    | function => rfl
    | method name => rfl
    | _ => exact ih

theorem classKind_context (site : Site) : site.context.classKind =
    match site.class? with
    | none => .none
    | some (.classBody false) => .plain
    | some _ => .subclass := by
  obtain ⟨subject, before, around⟩ := site
  induction around with
  | nil => rfl
  | cons layer around ih =>
    obtain ⟨construct, outside⟩ := layer
    cases construct with
    | classBody hasSuperclass => cases hasSuperclass <;> rfl
    | _ => exact ih

theorem function_context_eq_none_iff (site : Site) :
    site.context.function = .none ↔ site.function? = none := by
  rw [function_context]
  split <;> simp [*, Walk.methodKind_ne_none]

section Diagnostic

variable {site : Site}

/-- A declaration is wrong in a scope that holds its name. -/
theorem diagnostic?_declares (name : Token) (before : List Piece) (around : List Layer) :
    (⟨.declares name, before, around⟩ : Site).diagnostic?.toList =
      if ∃ held ∈ (scopes before around).head?, name.text ∈ held then
        [name.diagnostic (.variableAlreadyDeclared name.text)] else [] := by
  have hiff : (⟨.declares name, before, around⟩ : Site).Redeclares name.text ↔
      ∃ held ∈ (scopes before around).head?, name.text ∈ held := Iff.rfl
  by_cases hr : (⟨.declares name, before, around⟩ : Site).Redeclares name.text
  · rw [if_pos (hiff.1 hr)]
    simp [diagnostic?, declarationCause?, hr, Subject.token]
  · rw [if_neg (mt hiff.2 hr)]
    simp [diagnostic?, declarationCause?, keywordCause?, hr]

/-- A keyword that is for loops is wrong in a context without a loop. -/
theorem diagnostic?_of_loop {cause : Cause} (hdeclaration : site.declarationCause? = none)
    (hkeyword : site.keywordCause? = if site.InLoop then none else some cause) :
    site.diagnostic?.toList =
      if site.context.loop = .none then [site.subject.token.diagnostic cause] else [] := by
  have hloop := loop_context site
  by_cases hin : site.InLoop
  · simp [diagnostic?, hdeclaration, hkeyword, hloop, hin]
  · simp [diagnostic?, hdeclaration, hkeyword, hloop, hin]

theorem diagnostic?_breaks (keyword : Token) (before : List Piece) (around : List Layer) :
    (⟨.breaks keyword, before, around⟩ : Site).diagnostic?.toList =
      if (Context.inside around).loop = .none then [keyword.diagnostic .breakOutsideLoop]
      else [] :=
  diagnostic?_of_loop rfl (by simp [keywordCause?, Unreached, Subject.isReturned])

theorem diagnostic?_continues (keyword : Token) (before : List Piece) (around : List Layer) :
    (⟨.continues keyword, before, around⟩ : Site).diagnostic?.toList =
      if (Context.inside around).loop = .none then [keyword.diagnostic .continueOutsideLoop]
      else [] :=
  diagnostic?_of_loop rfl (by simp [keywordCause?, Unreached, Subject.isReturned])

/-- A `return` is wrong in a context without a function, or with a value in an initializer. -/
theorem diagnostic?_returns (keyword : Token) (hasValue : Bool) (before : List Piece)
    (around : List Layer) :
    (⟨.returns keyword hasValue, before, around⟩ : Site).diagnostic?.toList =
      (if (Context.inside around).function = .none then [keyword.diagnostic .returnOutsideFunction]
        else []) ++
        if hasValue ∧ (Context.inside around).function = .initializer then
          [keyword.diagnostic .returnValueFromInitializer] else [] := by
  have hfunction : (Context.inside around).function = _ :=
    function_context ⟨.returns keyword hasValue, before, around⟩
  simp only [hfunction, diagnostic?, declarationCause?, keywordCause?, Unreached,
    Subject.isReturned, Bool.false_eq_true, false_and, if_false]
  cases (⟨.returns keyword hasValue, before, around⟩ : Site).function? with
  | none => simp [Subject.token]
  | some construct =>
    cases construct with
    | method name =>
      by_cases hinit : name.text = initializerName
      · cases hasValue <;> simp [Walk.methodKind, hinit, Subject.token]
      · simp [Walk.methodKind, hinit]
    | _ => simp

/-- What the walk finds wrong with a mention that it reaches is what the site of the mention says,
if the walk finds the name unreadable that the mention helps to declare, and no other. -/
theorem diagnostic?_mentions {m : Mention} {role : Role}
    (hsubject : site.subject = .mentions m role) (hreached : ¬ site.Unreached) {current : Scopes}
    (hstate : ∀ name, current.stateInnermost? name = some .declared ↔
      ∃ token, role = .initial token ∧ name = token.text ∧ site.DeclaresFirst token.text) :
    site.diagnostic? = (Walk.fault? site.context current m).map m.token.diagnostic := by
  simp only [diagnostic?, declarationCause?, keywordCause?, hsubject, if_neg hreached]
  cases m with
  | reads target =>
    cases role with
    | initial name => simp [Subject.token, Walk.fault?, hstate]
    | _ => simp [Walk.fault?, hstate]
  | assigns target => simp [Walk.fault?]
  | selfRef id keyword =>
    rw [Walk.fault?, classKind_context]
    cases site.class? with
    | none => simp [Subject.token]
    | some construct => cases construct with
      | classBody hasSuperclass => cases hasSuperclass <;> simp
      | _ => simp
  | superRef id keyword =>
    rw [Walk.fault?, classKind_context]
    cases site.class? with
    | none => simp [Subject.token]
    | some construct => cases construct with
      | classBody hasSuperclass => cases hasSuperclass <;> simp [Subject.token]
      | _ => simp

end Diagnostic
end Site

theorem filterMap_cons_toList {α β : Type} (f : α → Option β) (a : α) (list : List α) :
    (a :: list).filterMap f = (f a).toList ++ list.filterMap f := by
  cases h : f a <;> simp [h]

namespace Walk

variable {before : List Piece} {around : List Layer} {walk : Walk}

/-- What is reported at mentions that the walk reaches is what is wrong at their sites. -/
theorem reported_mentionAll_sites (before : List Piece) (around : List Layer) (walk : Walk)
    (role : Role)
    (hreached : role = .returned → (Context.inside around).function ≠ .none)
    (hstate : ∀ name, walk.scopes.stateInnermost? name = some .declared ↔ ∃ token,
      role = .initial token ∧ name = token.text ∧
        ∃ held ∈ (Site.scopes before around).head?, token.text ∉ held) (list : List Mention) :
    (walk.mentionAll (.inside around) list).reported =
      walk.reported ++ (mentionSites role before around list).filterMap Site.diagnostic? := by
  rw [reported_mentionAll, mentionSites, List.filterMap_map]
  congr 2
  funext m
  have hsite : ¬ (⟨.mentions m role, before, around⟩ : Site).Unreached := by
    rintro ⟨hreturned, hfunction⟩
    rw [← Site.function_context_eq_none_iff] at hfunction
    cases role with
    | returned => exact hreached rfl hfunction
    | _ => cases hreturned
  exact (Site.diagnostic?_mentions rfl hsite hstate).symm

/-- Outside of declarations every name of the innermost scope can be read. -/
theorem reported_mentionAll_settled (h : walk.scopes.Settled (Site.scopes before around))
    (role : Role) (hrole : ∀ token, role ≠ .initial token)
    (hreached : role = .returned → (Context.inside around).function ≠ .none)
    (list : List Mention) :
    (walk.mentionAll (.inside around) list).reported =
      walk.reported ++ (mentionSites role before around list).filterMap Site.diagnostic? := by
  have hstate (name : String) := h.stateInnermost?_ne_declared name
  exact reported_mentionAll_sites before around walk role hreached (by simp [hstate, hrole]) list

/-- In the value of a `return` that is in no function nothing is wrong. -/
theorem filterMap_unreached (hfunction : (Context.inside around).function = .none)
    (list : List Mention) :
    (mentionSites .returned before around list).filterMap Site.diagnostic? = [] := by
  rw [mentionSites, List.filterMap_map, List.filterMap_eq_nil_iff]
  intro m _
  have hnone := (Site.function_context_eq_none_iff ⟨.mentions m .returned, before, around⟩).1
    hfunction
  have hunreached : (⟨.mentions m .returned, before, around⟩ : Site).Unreached := ⟨rfl, hnone⟩
  cases m <;> simp [Site.diagnostic?, Site.declarationCause?, Site.keywordCause?, hunreached]

mutual

/-- Following a piece reports what is wrong at its sites. In the value of a declaration the declared
name may be unreadable, so that the scopes are not settled there. -/
theorem reported_follow (before : List Piece) (around : List Layer) {walk : Walk}
    (h : walk.scopes.Settled (Site.scopes before around)) : ∀ piece : Piece,
      (walk.follow (.inside around) piece).reported =
        walk.reported ++ (piece.sites before around).filterMap Site.diagnostic?
  | .declares name value => by
    have hvalue := reported_mentionAll_sites before around (walk.declare name) (.initial name)
      (by simp) (fun other => by simp [stateInnermost?_declare h]) value
    have hname := Site.diagnostic?_declares name before around
    rw [follow, reported_define, hvalue, reported_declare h, Piece.sites, filterMap_cons_toList,
      hname, List.append_assoc]
  | .provides _ => by simp [follow, Piece.sites]
  | .mentions list => reported_mentionAll_settled h .evaluated (by simp) (by simp) list
  | .breaks keyword => by
    have hbreak := Site.diagnostic?_breaks keyword before around
    rw [follow, reported_reportIf, Piece.sites, filterMap_cons_toList, hbreak]
    simp
  | .continues keyword => by
    have hcontinue := Site.diagnostic?_continues keyword before around
    rw [follow, reported_reportIf, Piece.sites, filterMap_cons_toList, hcontinue]
    simp
  | .returns keyword none => by
    have hreturn := Site.diagnostic?_returns keyword false before around
    rw [follow, reported_reportIf, Piece.sites, filterMap_cons_toList, hreturn]
    simp
  | .returns keyword (some value) => by
    have hreturn := Site.diagnostic?_returns keyword true before around
    rw [follow, Piece.sites, filterMap_cons_toList, hreturn]
    by_cases hf : (Context.inside around).function = .none
    · simp [hf, filterMap_unreached]
    · have hsettled : ((walk.reportIf ((Context.inside around).function = .none) keyword
          .returnOutsideFunction).reportIf ((Context.inside around).function = .initializer)
          keyword .returnValueFromInitializer).scopes.Settled (Site.scopes before around) := by
        simpa using h
      have hvalue := reported_mentionAll_settled hsettled .returned (by simp) (fun _ => hf) value
      simp only [if_neg hf]
      rw [hvalue]
      simp [hf]
  | .within construct body => by
    by_cases hc : construct.opensScope
    · have hinner : walk.enterScope.scopes.Settled
          (Site.scopes [] (⟨construct, before⟩ :: around)) := by
        simpa [Site.scopes, hc, Piece.heldIn] using h.enter
      have hbody := reported_followAll [] (⟨construct, before⟩ :: around) hinner body
      rw [reported_enterScope] at hbody
      rw [follow, if_pos hc, Piece.sites, reported_leaveScope]
      exact hbody
    · have hinner : walk.scopes.Settled (Site.scopes [] (⟨construct, before⟩ :: around)) := by
        simpa [Site.scopes, hc, Piece.heldIn] using h
      rw [follow, if_neg hc, Piece.sites]
      exact reported_followAll [] (⟨construct, before⟩ :: around) hinner body

theorem reported_followAll (before : List Piece) (around : List Layer) {walk : Walk}
    (h : walk.scopes.Settled (Site.scopes before around)) : ∀ list : List Piece,
      (walk.followAll (.inside around) list).reported =
        walk.reported ++ (Piece.sitesIn before around list).filterMap Site.diagnostic?
  | [] => by simp [followAll, Piece.sitesIn]
  | piece :: rest => by
    have hnext : (walk.follow (.inside around) piece).scopes.Settled
        (Site.scopes (before ++ [piece]) around) := by
      rw [Site.scopes_append, Piece.heldIn, Piece.heldIn, List.append_nil]
      exact h.gains (gains_follow _ walk piece)
    rw [followAll, reported_followAll (before ++ [piece]) around hnext rest,
      reported_follow before around h piece, Piece.sitesIn, List.filterMap_append,
      List.append_assoc]

end

end Walk

/-- What is reported about a program is what is wrong at its sites, in order. -/
theorem diagnostics_resolve (statements : List Stmt) :
    (resolve statements).diagnostics = (Stmt.sites statements).filterMap Site.diagnostic? := by
  have hsettled : ((Walk.begin #[]).log (.resolving statements.length)).scopes.Settled
      (Site.scopes [] []) := .empty
  have hreported := Walk.reported_followAll [] [] hsettled (Stmt.piecesAll statements)
  have hwalk : Walk.program #[] statements =
      ((Walk.begin #[]).log (.resolving statements.length)).followAll .topLevel
        (Stmt.piecesAll statements) := Walk.statements_eq_followAll _ _ _
  show (Walk.program #[] statements).reported = _
  rw [hwalk]
  exact hreported

end LexicalScoping
