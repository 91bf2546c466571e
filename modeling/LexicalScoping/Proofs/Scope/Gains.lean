import LexicalScoping.Proofs.Scope.Sites

/-!
# What the walk leaves of the open scopes

Whatever a piece of a program opens it also closes, and of the scopes around it only the innermost
gains names, those that the piece puts there. They can be read in the end, also where a declaration
was rejected. This holds from every state of the walk on, however it came about, and mentions leave
the scopes as they are.
-/
namespace LexicalScoping

/-- `Gains names scopes scopes'` says that from `scopes` to `scopes'` the innermost scope has gained
the names, which can be read there, and nothing else has changed. Where no scope is open there is
none to gain them, and none is open afterwards. -/
inductive Scopes.Gains (names : List String) : Scopes → Scopes → Prop
  | untracked : Gains names .empty .empty
  | innermost {frame frame' : Frame} (outer : List Frame)
      (state : ∀ name, frame'.state? name =
        if name ∈ names then some .defined else frame.state? name) :
      Gains names ⟨frame :: outer⟩ ⟨frame' :: outer⟩

namespace Scopes.Gains

variable {names : List String} {scopes scopes' : Scopes}

theorem of_eq (h : scopes' = scopes) : Gains [] scopes scopes' := by
  subst h
  obtain ⟨frames⟩ := scopes'
  cases frames with
  | nil => exact .untracked
  | cons frame outer => exact .innermost outer (by simp)

theorem append {front back : List String} {scopes₁ scopes₂ : Scopes}
    (hfront : Gains front scopes scopes₁) (hback : Gains back scopes₁ scopes₂) :
    Gains (front ++ back) scopes scopes₂ := by
  cases hfront with
  | untracked =>
    cases hback with
    | untracked => exact .untracked
  | innermost outer hstate =>
    cases hback with
    | innermost _ hstate' =>
      refine .innermost outer fun name => ?_
      by_cases hb : name ∈ back <;> simp [hstate', hstate, hb]

theorem define (scopes : Scopes) (name : String) : Gains [name] scopes (scopes.define name) := by
  obtain ⟨frames⟩ := scopes
  cases frames with
  | nil => exact .untracked
  | cons frame outer => exact .innermost outer (by simp)

/-- Once a scope that was opened is closed again, all is as it was. -/
theorem leave_eq (h : Gains names scopes.enter scopes') : scopes'.leave = scopes := by
  cases h with
  | innermost _ _ => rfl

theorem eq_empty (h : Gains names .empty scopes') : scopes' = .empty := by
  cases h with
  | untracked => rfl

end Scopes.Gains

namespace Walk

@[simp] theorem scopes_reportIf (walk : Walk) (condition : Bool) (token : Token) (cause : Cause) :
    (walk.reportIf condition token cause).scopes = walk.scopes := by
  cases condition <;> simp [reportIf, report, log]

@[simp] theorem scopes_bind (walk : Walk) (id : Nat) (name : String) :
    (walk.bind id name).scopes = walk.scopes := by
  unfold bind
  split <;> rfl

@[simp] theorem scopes_enterScope (walk : Walk) : walk.enterScope.scopes = walk.scopes.enter := rfl

theorem scopes_mention (context : Context) (walk : Walk) (m : Mention) :
    (walk.mention context m).scopes = walk.scopes := by
  cases m with
  | reads target => simp [mention, read]
  | assigns target => simp [mention]
  | selfRef id keyword =>
    by_cases h : context.classKind = .none <;> simp [mention, readSelf, h, report, log]
  | superRef id keyword => simp [mention, readSuper]

theorem mentionAll_cons (context : Context) (walk : Walk) (m : Mention) (list : List Mention) :
    walk.mentionAll context (m :: list) = (walk.mention context m).mentionAll context list := rfl

/-- Mentioning names opens and declares nothing. -/
@[simp] theorem scopes_mentionAll (context : Context) (walk : Walk) (list : List Mention) :
    (walk.mentionAll context list).scopes = walk.scopes := by
  induction list generalizing walk with
  | nil => rfl
  | cons m list ih => rw [mentionAll_cons, ih, scopes_mention]

/-- A name that is declared and then made readable is gained, also if its declaration was rejected
because the scope holds the name already. -/
theorem gains_define_declare (walk : Walk) (name : Token) :
    Scopes.Gains [name.text] walk.scopes ((walk.declare name).scopes.define name.text) := by
  obtain ⟨⟨frames⟩, bindings, diagnostics, events⟩ := walk
  cases frames with
  | nil => exact .untracked
  | cons frame outer =>
    by_cases hholds : frame.holds name.text
    · rw [declare_of_holds rfl hholds]
      exact .define _ name.text
    · rw [declare_of_not_holds rfl hholds]
      refine .innermost outer fun other => ?_
      by_cases hother : other = name.text <;> simp [hother]

mutual

/-- A piece puts its names into the innermost scope, and changes the scopes in no other way. -/
theorem gains_follow (context : Context) (walk : Walk) : ∀ piece : Piece,
    Scopes.Gains piece.held walk.scopes (walk.follow context piece).scopes
  | .declares name value => by
    have hdeclared := gains_define_declare walk name
    simpa [follow, define, Piece.held] using hdeclared
  | .provides name => .define walk.scopes name
  | .mentions list => .of_eq (scopes_mentionAll context walk list)
  | .breaks _ => .of_eq (scopes_reportIf walk _ _ _)
  | .continues _ => .of_eq (scopes_reportIf walk _ _ _)
  | .returns _ none => .of_eq (scopes_reportIf walk _ _ _)
  | .returns _ (some _) => by
    refine .of_eq ?_
    by_cases hf : context.function = .none <;> simp [follow, hf]
  | .within construct body => by
    by_cases hc : construct.opensScope
    · have hbody := gains_followAll (construct.inner context) walk.enterScope body
      rw [follow, if_pos hc, Piece.held, if_pos hc]
      exact .of_eq hbody.leave_eq
    · rw [follow, if_neg hc, Piece.held, if_neg hc]
      exact gains_followAll (construct.inner context) walk body

theorem gains_followAll (context : Context) (walk : Walk) : ∀ list : List Piece,
    Scopes.Gains (Piece.heldIn list) walk.scopes (walk.followAll context list).scopes
  | [] => .of_eq rfl
  | piece :: rest => (gains_follow context walk piece).append (gains_followAll context _ rest)

end

end Walk
end LexicalScoping
