import LexicalScoping.Proofs.Grammar.Derivation
import LexicalScoping.Proofs.Grammar.Places
import LexicalScoping.Proofs.Grammar.Sound

/-!
# How deep trees are that were read

A reading leaves as many levels open as it finds, and in the tree that it makes no level is above
the limit. The nodes on a path that share their level with the node above them are not counted, so a
path may pass through more nodes than the limit says, by as many as there are of those.
-/
namespace LexicalScoping

/-- None of the places is on a level above the limit. -/
def Shallow (places : List Place) : Prop := ∀ inner ∈ places, inner.level ≤ maxNesting

@[simp] theorem shallow_nil : Shallow [] := by simp [Shallow]

theorem shallow_cons {place : Place} {places : List Place} :
    Shallow (place :: places) ↔ place.level ≤ maxNesting ∧ Shallow places := by simp [Shallow]

theorem shallow_append {front back : List Place} :
    Shallow (front ++ back) ↔ Shallow front ∧ Shallow back := by
  simp [Shallow, or_imp, forall_and]

/-- On that level none of the places is above the limit, wherever it starts. -/
def Within (places : Place → List Place) (level : Nat) : Prop :=
  ∀ place, place.level = level → Shallow (places place)

namespace Within

variable {places more : Place → List Place} {level : Nat}

theorem nil : Within (fun _ => []) level := fun _ _ => shallow_nil

theorem cons (hle : level ≤ maxNesting) (h : Within places level) :
    Within (fun place => place :: places place) level :=
  fun place hplace => shallow_cons.2 ⟨hplace ▸ hle, h place hplace⟩

theorem append (h : Within places level) (hmore : Within more level) :
    Within (fun place => places place ++ more place) level :=
  fun place hplace => shallow_append.2 ⟨h place hplace, hmore place hplace⟩

theorem inside (h : Within places (level + 1)) (offset : Nat) :
    Within (fun place => places (place.inside offset)) level :=
  fun place hplace => h (place.inside offset) (congrArg (· + 1) hplace)

theorem sharing (h : Within places level) (offset : Nat) :
    Within (fun place => places (place.sharing offset)) level :=
  fun place hplace => h (place.sharing offset) hplace

/-- An expression is itself one of its nodes. -/
theorem le {e : Expr} (h : Within (Expr.places · e) level) : level ≤ maxNesting := by
  have hall : Shallow (e.places ⟨level, 0, 0⟩) := h ⟨level, 0, 0⟩ rfl
  obtain ⟨children, hchildren⟩ := e.exists_places ⟨level, 0, 0⟩
  rw [hchildren, shallow_cons] at hall
  exact hall.1

end Within

mutual

theorem ReadsExpr.within {floor : Power} {s s' : ParseState} {e : Expr} :
    ReadsExpr floor s e s' → s'.depth = s.depth ∧ Within (Expr.places · e) (s.depth + 1)
  | .nested room operand operators => by
    obtain ⟨hdepth, hfirst⟩ := operand.within room
    rw [← hdepth] at hfirst
    obtain ⟨hdepth', hwhole⟩ := operators.within hfirst
    rw [hdepth] at hdepth' hwhole
    refine ⟨?_, hwhole⟩
    show _ - 1 = _
    rw [hdepth']
    rfl

theorem ReadsOperand.within {s s' : ParseState} {e : Expr} :
    ReadsOperand s e s' → s.depth ≤ maxNesting →
      s'.depth = s.depth ∧ Within (Expr.places · e) s.depth
  | .literal here _ _, hroom => ⟨here.depth_eq, .cons hroom .nil⟩
  | .read name, hroom => ⟨name.depth_eq, .cons hroom .nil⟩
  | .selfRef keyword, hroom => ⟨keyword.depth_eq, .cons hroom .nil⟩
  | .superMethod keyword dot name, hroom =>
    ⟨name.depth_eq.trans (dot.depth_eq.trans keyword.depth_eq), .cons hroom .nil⟩
  | .unary operator _ holds, hroom => by
    obtain ⟨hdepth, hoperand⟩ := holds.within
    rw [operator.depth_eq] at hdepth hoperand
    exact ⟨hdepth, .cons hroom (hoperand.inside 1)⟩
  | .grouping opens holds closes, hroom => by
    obtain ⟨hdepth, hcontent⟩ := holds.within
    rw [opens.depth_eq] at hdepth hcontent
    exact ⟨closes.depth_eq.trans hdepth, .cons hroom (hcontent.inside 1)⟩

theorem ReadsOperators.within {floor : Power} {left whole : Expr} {s s' : ParseState} :
    ReadsOperators floor left s whole s' → Within (Expr.places · left) s.depth →
      s'.depth = s.depth ∧ Within (Expr.places · whole) s.depth
  | .stop _, hleft => ⟨rfl, hleft⟩
  | .step _ one others, hleft => by
    obtain ⟨hdepth, hmiddle⟩ := one.within hleft
    rw [← hdepth] at hmiddle
    obtain ⟨hdepth', hwhole⟩ := others.within hmiddle
    rw [hdepth] at hdepth' hwhole
    exact ⟨hdepth', hwhole⟩

/-- The object of an assigned property stays on the level of the property that was read before. -/
theorem ReadsOperator.within {power : Power} {left whole : Expr} {s s' : ParseState} :
    ReadsOperator power left s whole s' → Within (Expr.places · left) s.depth →
      s'.depth = s.depth ∧ Within (Expr.places · whole) s.depth
  | .assign operator holds, hleft => by
    obtain ⟨hdepth, hvalue⟩ := holds.within
    rw [operator.depth_eq] at hdepth hvalue
    exact ⟨hdepth, .cons hleft.le (hvalue.inside 2)⟩
  | .set operator holds, hleft => by
    obtain ⟨hdepth, hvalue⟩ := holds.within
    rw [operator.depth_eq] at hdepth hvalue
    have hobject : Within (fun place => Expr.places (place.sharing 0) _) s.depth :=
      fun place hplace => (shallow_cons.1 (hleft place hplace)).2
    exact ⟨hdepth, .cons hleft.le (hobject.append (hvalue.inside _))⟩
  | .conditional asks holds divides otherwise, hleft => by
    obtain ⟨hdepth, hthen⟩ := holds.within
    obtain ⟨hdepth', helse⟩ := otherwise.within
    rw [asks.depth_eq] at hdepth hthen
    rw [divides.depth_eq, hdepth] at hdepth' helse
    exact ⟨hdepth', .cons hleft.le
      ((hleft.sharing 0).append ((hthen.inside _).append (helse.inside _)))⟩
  | .binary operator _ holds, hleft => by
    obtain ⟨hdepth, hright⟩ := holds.within
    rw [operator.depth_eq] at hdepth hright
    exact ⟨hdepth, .cons hleft.le ((hleft.sharing 0).append (hright.inside _))⟩
  | .call opens holds closes, hleft => by
    obtain ⟨hdepth, harguments⟩ := holds.within
    rw [opens.depth_eq] at hdepth harguments
    exact ⟨closes.depth_eq.trans hdepth, .cons hleft.le ((hleft.sharing 0).append (harguments _))⟩
  | .member dot property, hleft =>
    ⟨property.depth_eq.trans dot.depth_eq, .cons hleft.le (hleft.sharing 0)⟩

theorem ReadsArguments.within {s s' : ParseState} {arguments : List Expr} :
    ReadsArguments s arguments s' →
      s'.depth = s.depth ∧ ∀ offset, Within (Expr.placesAll · offset arguments) s.depth
  | .none _ => ⟨rfl, fun _ => .nil⟩
  | .some _ items => items.within

theorem ReadsItems.within {s s' : ParseState} {arguments : List Expr} :
    ReadsItems s arguments s' →
      s'.depth = s.depth ∧ ∀ offset, Within (Expr.placesAll · offset arguments) s.depth
  | .last item _ => by
    obtain ⟨hdepth, he⟩ := item.within
    exact ⟨hdepth, fun offset => (he.inside offset).append .nil⟩
  | .more item divides items => by
    obtain ⟨hdepth, he⟩ := item.within
    obtain ⟨hdepth', hrest⟩ := items.within
    rw [divides.depth_eq, hdepth] at hdepth' hrest
    exact ⟨hdepth', fun offset => (he.inside offset).append (hrest _)⟩

end

variable {s s' : ParseState}

theorem ReadsNames.depth_eq {names : List Token} (h : ReadsNames s names s') :
    s'.depth = s.depth := by
  induction h with
  | last item _ => exact item.depth_eq
  | more item divides _ ih => exact ih.trans (divides.depth_eq.trans item.depth_eq)

theorem ReadsParameters.depth_eq {names : List Token} (h : ReadsParameters s names s') :
    s'.depth = s.depth := by
  cases h with
  | none _ => rfl
  | some _ items => exact items.depth_eq

theorem ReadsAfter.depth_eq_superclass {parent : Option Reference}
    (h : ReadsAfter .less ReadsSuperclass s parent s') : s'.depth = s.depth := by
  cases h with
  | absent _ => rfl
  | present mark follows =>
    obtain ⟨name⟩ := follows
    exact name.depth_eq.trans mark.depth_eq

theorem ReadsAfter.within {kind : Kind} {value : Option Expr}
    (h : ReadsAfter kind (ReadsExpr .lowest) s value s') :
    s'.depth = s.depth ∧ Within (Expr.places? · value) (s.depth + 1) := by
  cases h with
  | absent _ => exact ⟨rfl, .nil⟩
  | present mark follows =>
    rw [← mark.depth_eq]
    exact follows.within

theorem ReadsUnless.within {kind : Kind} {value : Option Expr}
    (h : ReadsUnless kind (ReadsExpr .lowest) s value s') :
    s'.depth = s.depth ∧ Within (Expr.places? · value) (s.depth + 1) := by
  cases h with
  | absent _ => exact ⟨rfl, .nil⟩
  | present _ stands => exact stands.within

theorem ReadsEvaluated.within {answer : Expr × Span} (h : ReadsEvaluated s answer s') :
    s'.depth = s.depth ∧ Within (Expr.places · answer.1) (s.depth + 1) := by
  cases h with
  | intro holds ends => exact ⟨ends.depth_eq.trans holds.within.1, holds.within.2⟩

theorem ReadsHead.within {e : Expr} (h : ReadsHead s e s') :
    s'.depth = s.depth ∧ Within (Expr.places · e) (s.depth + 1) := by
  cases h with
  | intro opens holds closes =>
    rw [← opens.depth_eq]
    exact ⟨closes.depth_eq.trans holds.within.1, holds.within.2⟩

theorem ReadsLet.within {declaration : LetDecl} (h : ReadsLet s declaration s')
    (hroom : s.depth ≤ maxNesting) :
    s'.depth = s.depth ∧ Within (LetDecl.places · declaration) s.depth := by
  cases h with
  | intro keyword declares initial ends =>
    obtain ⟨hdepth, hvalue⟩ := initial.within
    rw [declares.depth_eq, keyword.depth_eq] at hdepth hvalue
    exact ⟨ends.depth_eq.trans hdepth, .cons hroom (hvalue.inside 3)⟩

theorem ReadsStart.within {start : Option ForStart} (h : ReadsStart s start s')
    (hroom : s.depth ≤ maxNesting) :
    s'.depth = s.depth ∧ Within (ForStart.places · start) s.depth := by
  cases h with
  | none ends => exact ⟨ends.depth_eq, .nil⟩
  | declare declares => exact declares.within hroom
  | evaluate _ evaluates =>
    obtain ⟨hdepth, he⟩ := evaluates.within
    exact ⟨hdepth, .cons hroom (he.inside 0)⟩

theorem ReadsArm.within {value : Option Expr} (h : ReadsArm s value s') :
    s'.depth = s.depth ∧ Within (Expr.places? · value) (s.depth + 1) := by
  cases h with
  | default keyword ends => exact ⟨ends.depth_eq.trans keyword.depth_eq, .nil⟩
  | value keyword holds ends =>
    rw [← keyword.depth_eq]
    exact ⟨ends.depth_eq.trans holds.within.1, holds.within.2⟩

mutual

theorem ReadsStmt.within {s s' : ParseState} {stmt : Stmt} :
    ReadsStmt s stmt s' → s'.depth = s.depth ∧ Within (Stmt.places · stmt) (s.depth + 1)
  | .nested room form => by
    obtain ⟨hdepth, hstmt⟩ := form.within room
    refine ⟨?_, hstmt⟩
    show _ - 1 = _
    rw [hdepth]
    rfl

theorem ReadsForm.within {s s' : ParseState} {stmt : Stmt} :
    ReadsForm s stmt s' → s.depth ≤ maxNesting →
      s'.depth = s.depth ∧ Within (Stmt.places · stmt) s.depth
  | .block holds, hroom => by
    obtain ⟨hdepth, hbody⟩ := holds.within
    exact ⟨hdepth, .cons hroom (hbody 1)⟩
  | .letDecl declares, hroom => declares.within hroom
  | .expression _ evaluates, hroom => by
    obtain ⟨hdepth, he⟩ := evaluates.within
    exact ⟨hdepth, .cons hroom (he.inside 0)⟩
  | .print keyword holds ends, hroom => by
    obtain ⟨hdepth, he⟩ := holds.within
    rw [keyword.depth_eq] at hdepth he
    exact ⟨ends.depth_eq.trans hdepth, .cons hroom (he.inside 1)⟩
  | .ifThen keyword head body _, hroom => by
    obtain ⟨hdepth, hcondition⟩ := head.within
    obtain ⟨hdepth', hthen⟩ := body.within
    rw [keyword.depth_eq] at hdepth hcondition
    rw [hdepth] at hdepth' hthen
    exact ⟨hdepth', .cons hroom ((hcondition.inside 2).append (hthen.inside _))⟩
  | .ifElse keyword head body divides other, hroom => by
    obtain ⟨hdepth, hcondition⟩ := head.within
    obtain ⟨hdepth', hthen⟩ := body.within
    obtain ⟨hdepth'', helse⟩ := other.within
    rw [keyword.depth_eq] at hdepth hcondition
    rw [hdepth] at hdepth' hthen
    rw [divides.depth_eq, hdepth'] at hdepth'' helse
    exact ⟨hdepth'', .cons hroom
      ((hcondition.inside 2).append ((hthen.inside _).append (helse.inside _)))⟩
  | .whileLoop keyword head holds, hroom => by
    obtain ⟨hdepth, hcondition⟩ := head.within
    obtain ⟨hdepth', hbody⟩ := holds.within
    rw [keyword.depth_eq] at hdepth hcondition
    rw [hdepth] at hdepth' hbody
    exact ⟨hdepth', .cons hroom ((hcondition.inside 2).append (hbody.inside _))⟩
  | .doWhile keyword holds divides head ends, hroom => by
    obtain ⟨hdepth, hbody⟩ := holds.within
    obtain ⟨hdepth', hcondition⟩ := head.within
    rw [keyword.depth_eq] at hdepth hbody
    rw [divides.depth_eq, hdepth] at hdepth' hcondition
    exact ⟨ends.depth_eq.trans hdepth',
      .cons hroom ((hbody.inside 1).append (hcondition.inside _))⟩
  | .forLoop keyword opens first test divides step closes holds, hroom => by
    have hopened := opens.depth_eq.trans keyword.depth_eq
    obtain ⟨hdepth, hstart⟩ := first.within (hopened ▸ hroom)
    obtain ⟨hdepth₁, hcondition⟩ := test.within
    obtain ⟨hdepth₂, hincrement⟩ := step.within
    obtain ⟨hdepth₃, hbody⟩ := holds.within
    rw [hopened] at hdepth hstart
    rw [hdepth] at hdepth₁ hcondition
    rw [divides.depth_eq, hdepth₁] at hdepth₂ hincrement
    rw [closes.depth_eq, hdepth₂] at hdepth₃ hbody
    exact ⟨hdepth₃, .cons hroom ((hstart.sharing 2).append ((hcondition.inside _).append
      ((hincrement.inside _).append (hbody.inside _))))⟩
  | .switch keyword head opens holds closes, hroom => by
    obtain ⟨hdepth, hsubject⟩ := head.within
    obtain ⟨hdepth', harms⟩ := holds.within
    rw [keyword.depth_eq] at hdepth hsubject
    rw [opens.depth_eq, hdepth] at hdepth' harms
    exact ⟨closes.depth_eq.trans hdepth',
      .cons hroom ((hsubject.inside 2).append (harms _))⟩
  | .breakLoop keyword ends, hroom =>
    ⟨ends.depth_eq.trans keyword.depth_eq, .cons hroom .nil⟩
  | .continueLoop keyword ends, hroom =>
    ⟨ends.depth_eq.trans keyword.depth_eq, .cons hroom .nil⟩
  | .returnValue keyword result ends, hroom => by
    obtain ⟨hdepth, hvalue⟩ := result.within
    rw [keyword.depth_eq] at hdepth hvalue
    exact ⟨ends.depth_eq.trans hdepth, .cons hroom (hvalue.inside 1)⟩
  | .function keyword declares, hroom => by
    obtain ⟨hdepth, hbody⟩ := declares.within
    rw [keyword.depth_eq] at hdepth hbody
    exact ⟨hdepth, .cons hroom (hbody 1)⟩
  | .classDecl keyword declares inherits opens holds closes, hroom => by
    have hopened := opens.depth_eq.trans (inherits.depth_eq_superclass.trans
      (declares.depth_eq.trans keyword.depth_eq))
    obtain ⟨hdepth, hmethods⟩ := holds.within
    rw [hopened] at hdepth hmethods
    exact ⟨closes.depth_eq.trans hdepth, .cons hroom (hmethods _)⟩

theorem ReadsBlock.within {s s' : ParseState} {body : List Stmt} {span : Span} :
    ReadsBlock s body span s' →
      s'.depth = s.depth ∧ ∀ offset, Within (Stmt.placesAll · offset body) s.depth
  | .intro opens holds closes => by
    obtain ⟨hdepth, hbody⟩ := holds.within
    rw [opens.depth_eq] at hdepth hbody
    exact ⟨closes.depth_eq.trans hdepth, hbody⟩

theorem ReadsStmts.within {stop : Kind → Bool} {s s' : ParseState} {list : List Stmt} :
    ReadsStmts stop s list s' →
      s'.depth = s.depth ∧ ∀ offset, Within (Stmt.placesAll · offset list) s.depth
  | .nil _ => ⟨rfl, fun _ => .nil⟩
  | .cons _ first others => by
    obtain ⟨hdepth, hfirst⟩ := first.within
    obtain ⟨hdepth', hrest⟩ := others.within
    rw [hdepth] at hdepth' hrest
    exact ⟨hdepth', fun offset => (hfirst.inside offset).append (hrest _)⟩

theorem ReadsCases.within {s s' : ParseState} {arms : List Case} :
    ReadsCases s arms s' →
      s'.depth = s.depth ∧ ∀ offset, Within (Case.placesAll · offset arms) s.depth
  | .nil _ => ⟨rfl, fun _ => .nil⟩
  | .cons _ arm holds others => by
    obtain ⟨hdepth, hvalue⟩ := arm.within
    obtain ⟨hdepth', hbody⟩ := holds.within
    obtain ⟨hdepth'', hrest⟩ := others.within
    rw [hdepth] at hdepth' hbody
    rw [hdepth'] at hdepth'' hrest
    exact ⟨hdepth'', fun offset =>
      (hvalue.inside _).append ((hbody _).append (hrest _))⟩

theorem ReadsFunction.within {start : Position} {s s' : ParseState} {declaration : Function} :
    ReadsFunction start s declaration s' →
      s'.depth = s.depth ∧ ∀ offset, Within (Function.places · offset declaration) s.depth
  | .intro declares opens names closes holds => by
    have hopened := closes.depth_eq.trans
      (names.depth_eq.trans (opens.depth_eq.trans declares.depth_eq))
    obtain ⟨hdepth, hbody⟩ := holds.within
    rw [hopened] at hdepth hbody
    exact ⟨hdepth, fun offset => hbody _⟩

theorem ReadsMethods.within {s s' : ParseState} {methods : List Function} :
    ReadsMethods s methods s' →
      s'.depth = s.depth ∧ ∀ offset, Within (Function.placesAll · offset methods) s.depth
  | .nil _ => ⟨rfl, fun _ => .nil⟩
  | .cons _ first others => by
    obtain ⟨hdepth, hfirst⟩ := first.within
    obtain ⟨hdepth', hrest⟩ := others.within
    rw [hdepth] at hdepth' hrest
    exact ⟨hdepth', fun offset => (hfirst offset).append (hrest _)⟩

end

/-- The places of all statements and expressions of a program. -/
def Program.places (program : Program) : List Place := Stmt.placesAll .top 0 program.statements

/-- In a program that was read no level is above the limit. -/
theorem Program.shallow_of_parse {tokens : List Token} {program : Program}
    (h : Program.parse tokens = .ok program) : Shallow program.places := by
  obtain ⟨s, -, hreads⟩ := Program.readsStmts_of_parse h
  have hbegin : (ParseState.ofTokens tokens).depth = Place.top.level := by
    unfold ParseState.ofTokens
    split <;> rfl
  exact hreads.within.2 0 Place.top hbegin.symm

end LexicalScoping
