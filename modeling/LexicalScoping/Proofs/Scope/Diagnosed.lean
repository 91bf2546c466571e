import LexicalScoping.Proofs.Grammar.Spelling
import LexicalScoping.Proofs.Scope.Blame

/-!
# Which declarations and which keywords are reported

The diagnostics of a program fall into two kinds. Those about declarations are, in order and one for
each site, the declarations of names that their scope holds already and the reads of a name in its
own first declaration in a scope. Those about keywords are, likewise, the keywords that no construct
around them allows. Nothing in the value of a `return` outside of every function is reported.
-/
namespace LexicalScoping

namespace Cause

/-- The cause is about a declaration. -/
def isDeclaration : Cause → Bool
  | variableAlreadyDeclared _ => true
  | readInOwnInitializer _ => true
  | _ => false

/-- The cause is about a keyword that is not allowed where it stands. -/
def isKeyword : Cause → Bool
  | selfOutsideClass => true
  | superOutsideClass => true
  | superWithoutSuperclass => true
  | breakOutsideLoop => true
  | continueOutsideLoop => true
  | returnOutsideFunction => true
  | returnValueFromInitializer => true
  | _ => false

end Cause

namespace Site

theorem isDeclaration_of_declarationCause? {site : Site} {cause : Cause}
    (h : site.declarationCause? = some cause) : cause.isDeclaration ∧ ¬ cause.isKeyword := by
  unfold declarationCause? at h
  grind [Cause.isDeclaration, Cause.isKeyword]

theorem isKeyword_of_keywordCause? {site : Site} {cause : Cause}
    (h : site.keywordCause? = some cause) : cause.isKeyword ∧ ¬ cause.isDeclaration := by
  unfold keywordCause? at h
  grind [Cause.isDeclaration, Cause.isKeyword]

/-- Of what is wrong at a site, what is about a declaration. -/
theorem filter_isDeclaration_diagnostic? (site : Site) :
    site.diagnostic?.filter (fun d => d.cause.isDeclaration) =
      site.declarationCause?.map site.subject.token.diagnostic := by
  unfold diagnostic?
  cases hd : site.declarationCause? with
  | some cause =>
    have hcause := (isDeclaration_of_declarationCause? hd).1
    simp [Token.diagnostic, hcause]
  | none =>
    cases hk : site.keywordCause? with
    | none => simp
    | some cause =>
      have hcause := (isKeyword_of_keywordCause? hk).2
      simp [Token.diagnostic, hcause]

/-- No site is wrong both as a declaration and as a keyword. -/
theorem keywordCause?_of_declarationCause? {site : Site} {cause : Cause}
    (h : site.declarationCause? = some cause) : site.keywordCause? = none := by
  unfold declarationCause? at h
  unfold keywordCause?
  grind

/-- Of what is wrong at a site, what is about a keyword. -/
theorem filter_isKeyword_diagnostic? (site : Site) :
    site.diagnostic?.filter (fun d => d.cause.isKeyword) =
      site.keywordCause?.map site.subject.token.diagnostic := by
  unfold diagnostic?
  cases hd : site.declarationCause? with
  | some cause =>
    have hcause := (isDeclaration_of_declarationCause? hd).2
    rw [keywordCause?_of_declarationCause? hd]
    simp [Token.diagnostic, hcause]
  | none =>
    cases hk : site.keywordCause? with
    | none => simp
    | some cause =>
      have hcause := (isKeyword_of_keywordCause? hk).1
      simp [Token.diagnostic, hcause]

/-- Nothing is wrong where nothing is reached. -/
theorem diagnostic?_of_unreached {site : Site} (h : site.Unreached) : site.diagnostic? = none := by
  obtain ⟨subject, before, around⟩ := site
  have hreturned := h.1
  have hkeyword : (⟨subject, before, around⟩ : Site).keywordCause? = none := if_pos h
  cases subject with
  | mentions m role =>
    cases role with
    | returned => cases m <;> simp [diagnostic?, declarationCause?, hkeyword]
    | _ => cases hreturned
  | _ => cases hreturned

end Site

/-- Of what is reported about a program, what is about declarations are, in order and one for each:
the declarations of a name that the scope they are directly in holds already, and the reads of a
name in its own declaration, if that is directly in a scope and the first of the name there. -/
theorem filter_isDeclaration_diagnostics_resolve (statements : List Stmt) :
    (resolve statements).diagnostics.filter (fun d => d.cause.isDeclaration) =
      (Stmt.sites statements).filterMap fun site =>
        site.declarationCause?.map site.subject.token.diagnostic := by
  rw [diagnostics_resolve, List.filter_filterMap]
  exact congrArg (fun f => (Stmt.sites statements).filterMap f)
    (funext Site.filter_isDeclaration_diagnostic?)

/-- In `{ let a; let a = a; }` only the second declaration is wrong: the name that it reads was
readable before. -/
example : (resolve [.block [.letDecl ⟨.bare .identifier "a", none, default⟩,
    .letDecl ⟨.bare .identifier "a", some (.read ⟨0, .bare .identifier "a"⟩), default⟩]
      default]).diagnostics = [⟨.variableAlreadyDeclared "a", default⟩] := by
  rfl

/-- Of what is reported about a program, what is about keywords are, in order and one for each, the
keywords that no construct around them allows. Whatever is reported stands outside of the values
that are returned from no function. -/
theorem filter_isKeyword_diagnostics_resolve (statements : List Stmt) :
    (resolve statements).diagnostics.filter (fun d => d.cause.isKeyword) =
        ((Stmt.sites statements).filterMap fun site =>
          site.keywordCause?.map site.subject.token.diagnostic) ∧
      (resolve statements).diagnostics =
        ((Stmt.sites statements).filter fun site => ¬ site.Unreached).filterMap
          Site.diagnostic? := by
  constructor
  · rw [diagnostics_resolve, List.filter_filterMap]
    exact congrArg (fun f => (Stmt.sites statements).filterMap f)
      (funext Site.filter_isKeyword_diagnostic?)
  · rw [diagnostics_resolve, List.filterMap_filter]
    apply List.filterMap_congr
    intro site _
    by_cases h : site.Unreached
    · simp [h, Site.diagnostic?_of_unreached h]
    · simp [h]

/-- In `fn f() { class C { } break; return super.m; }` the class is closed again when `super` is
used. -/
example : (resolve [.function (.mk (.bare .identifier "f") []
    [.classDecl (.bare .identifier "C") none [] default, .breakLoop (.bare .breakWord "break"),
      .returnValue (.bare .returnWord "return") (some (.superMethod 0 (.bare .superWord "super")
        (.bare .identifier "m") default)) default] default)]).diagnostics =
      [⟨.breakOutsideLoop, default⟩, ⟨.superOutsideClass, default⟩] := by
  rfl

end LexicalScoping
