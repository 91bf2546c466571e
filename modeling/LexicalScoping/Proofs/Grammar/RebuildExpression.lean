import LexicalScoping.Grammar.Expression
import LexicalScoping.Proofs.Grammar.Rebuilds
import LexicalScoping.Proofs.Grammar.Shape

/-!
# Expressions are rebuilt

The expression parser rebuilds every well-shaped expression. Its loop takes an operand and then one
operator after the other, so it goes down the left spine of a tree before it comes back up: `Spine`
says that the operand and the operators of an expression lead to the same loop with the whole
expression on its left. An expression leaves the loop at a token that binds no tighter than the
place of the expression allows.
-/
namespace LexicalScoping

/-- The token is no operator that binds tighter than the floor. -/
def Stops (floor : Power) (token : Token) : Prop :=
  ∀ power rule, Rules.standardOperator token.kind = some (power, rule) → ¬ floor < power

namespace Power

variable {p q r : Power}

theorem lt_of_lt_of_le (hpq : p < q) (hqr : q ≤ r) : p < r := Nat.lt_of_lt_of_le hpq hqr

theorem le_of_not_lt (h : ¬ p < q) : q ≤ p := Nat.le_of_not_lt h

theorem not_lt_of_le (h : q ≤ p) : ¬ p < q := Nat.not_lt_of_le h

theorem le_trans (hpq : p ≤ q) (hqr : q ≤ r) : p ≤ r := Nat.le_trans hpq hqr

theorem le_refl (p : Power) : p ≤ p := Nat.le_refl p.rank

end Power

theorem standardOperator_of_binaryPower {evaluation : Evaluation} {kind : Kind} {power : Power}
    (h : binaryPower evaluation kind = some power) :
    Rules.standardOperator kind = some (power, evaluation.rule) := by
  cases evaluation <;> cases kind <;> simp [binaryPower] at h <;> subst h <;> rfl

theorem parse_binaryRule (evaluation : Evaluation) (step : Parse.ExpressionParser) (left : Expr)
    (power : Power) :
    evaluation.rule.parse step left power = Parse.binary step evaluation left power := by
  cases evaluation <;> rfl

/-- Operators with two operands bind tighter than conditionals and looser than signs. -/
theorem bounds_of_binaryPower {evaluation : Evaluation} {kind : Kind} {power : Power}
    (h : binaryPower evaluation kind = some power) :
    Power.conditional < power ∧ power < .unary := by
  cases evaluation <;> cases kind <;> simp [binaryPower] at h <;> subst h <;> decide

/-- The loosest operator that is met on the left spine of an expression. -/
def Expr.head : Expr → Power
  | .unary _ _ _ => .primary
  | e => e.power

/-- How tightly the last operand of an expression is held. -/
def Expr.tail : Expr → Power
  | .assign _ _ _ => .lowest
  | .set _ _ _ _ => .lowest
  | .conditional _ _ _ _ => .assignment
  | .binary evaluation _ operator _ _ => (binaryPower evaluation operator.kind).getD .lowest
  | .unary _ _ _ => .unary
  | _ => .primary

theorem Expr.lt_head_of_lt_power {floor : Power} {e : Expr} (h : floor < e.power) :
    floor < e.head := by
  cases e with
  | unary operator operand span =>
    have htight : Power.unary ≤ Power.primary := by decide
    exact Power.lt_of_lt_of_le h htight
  | _ => exact h

/-- What is on the right of a sign has no operators of its own level on its spine. -/
theorem Expr.unary_lt_head {e : Expr} (h : Power.unary ≤ e.power) : Power.unary < e.head := by
  have hcall : Power.unary < Power.call := by decide
  have hprimary : Power.unary < Power.primary := by decide
  cases e with
  | binary evaluation left operator right span =>
    cases hpower : binaryPower evaluation operator.kind with
    | none => simp [Expr.power, hpower, Power.le_iff_rank_le, Power.rank] at h
    | some power =>
      have hloose := (bounds_of_binaryPower hpower).2
      simp only [Expr.power, hpower, Option.getD_some] at h
      exact absurd hloose (Power.not_lt_of_le h)
  | assign | set | conditional =>
    simp [Expr.power, Power.le_iff_rank_le, Power.rank] at h
  | call | get => exact hcall
  | unary | literal | read | grouping | superMethod | selfRef => exact hprimary

/-- An expression that may stand on the left of an operator leaves the operator alone. -/
theorem Expr.le_tail {power : Power} {e : Expr} (hpower : Power.conditional < power)
    (h : power ≤ e.power) : power ≤ e.tail := by
  have hloose := Power.lt_of_lt_of_le hpower h
  have hcall : Power.call ≤ Power.primary := by decide
  cases e with
  | assign | set | conditional =>
    simp [Expr.power, Power.lt_iff_rank_lt, Power.rank] at hloose
  | call | get => exact Power.le_trans h hcall
  | binary | unary | literal | read | grouping | superMethod | selfRef => exact h

/-- What is on the left of a call or a property leaves every operator alone. -/
theorem Expr.tail_eq_primary {e : Expr} (h : Power.call ≤ e.power) : e.tail = .primary := by
  cases e with
  | binary evaluation left operator right span =>
    cases hpower : binaryPower evaluation operator.kind with
    | none => simp [Expr.power, hpower, Power.le_iff_rank_le, Power.rank] at h
    | some power =>
      have hloose := (bounds_of_binaryPower hpower).2
      simp only [Expr.power, hpower, Option.getD_some] at h
      have hcall : power < Power.call := Nat.lt_succ_of_lt hloose
      exact absurd hcall (Power.not_lt_of_le h)
  | assign | set | conditional | unary =>
    simp [Expr.power, Power.le_iff_rank_le, Power.rank] at h
  | _ => rfl

theorem Expr.WellShaped.lowest_lt_head {e : Expr} (h : e.WellShaped) : Power.lowest < e.head := by
  cases e with
  | binary evaluation left operator right span =>
    obtain ⟨⟨power, hpower, -⟩, -⟩ := h
    have hlowest : Power.lowest < Power.conditional := by decide
    have htight := (bounds_of_binaryPower hpower).1
    simp only [Expr.head, Expr.power, hpower, Option.getD_some]
    exact Nat.lt_trans hlowest htight
  | _ => exact Nat.succ_pos _

/-- A place that asks for operators tighter than the floor ends before its last operand does. -/
theorem Expr.floor_le_tail {floor : Power} {e : Expr} (h : floor < e.head)
    (hfloor : floor ≤ .unary) : floor ≤ e.tail := by
  have hprimary : Power.unary ≤ Power.primary := by decide
  cases e with
  | assign | set | conditional => exact Nat.le_of_lt_succ h
  | binary => exact Nat.le_of_lt h
  | unary => exact hfloor
  | call | get | literal | read | grouping | superMethod | selfRef =>
    exact Power.le_trans hfloor hprimary

namespace Parse
namespace Rebuilds

variable {tokens : List Token} {depth i : Nat} {step : ExpressionParser} {floor : Power}
  {front back : List Sign} {places more : List Place} {good fine : Expr → Prop}

/-- The loop ends at a token that is no operator for it. -/
theorem operators_stop {left : Expr} (hnext : Next tokens i (Stops floor)) :
    Rebuilds tokens depth i (operators .standard step floor left) [] []
      (fun whole => whole = left) := by
  intro s hat hdepth _
  have hstops := hnext s.current hat.getElem?
  refine ⟨left, s, ?_, rfl, hat, hdepth⟩
  rw [operators]
  split
  · rfl
  · next power rule hrule => rw [if_neg (hstops power rule hrule)]

/-- The loop lets an operator take what is on its left and goes on. -/
theorem operators_step {left : Expr} {power : Power} {rule : OperatorRule}
    (hrule : Spelt tokens i front → Next tokens i (fun token =>
      Rules.standardOperator token.kind = some (power, rule)))
    (htighter : floor < power) (hfront : front ≠ [])
    (hone : Spelt tokens (i + front.length) back →
      Rebuilds tokens depth i (rule.parse step left power) front places good)
    (hrest : ∀ whole, good whole → Rebuilds tokens depth (i + front.length)
      (operators .standard step floor whole) back more fine) :
    Rebuilds tokens depth i (operators .standard step floor left) (front ++ back)
      (places ++ more) fine := by
  intro s hat hdepth hspelt
  obtain ⟨hspeltFront, hspeltBack⟩ := spelt_append.1 hspelt
  have hcurrent : Rules.standard.operator s.current.kind = some (power, rule) :=
    hrule hspeltFront s.current hat.getElem?
  have hs := hone hspeltBack s hat hdepth hspeltFront
  rw [List.find?_append, operators, hcurrent, List.length_append, ← Nat.add_assoc]
  cases hfind : places.find? Place.tooDeep with
  | some place =>
    rw [hfind] at hs
    obtain ⟨token, s', htoken, hlt, heq⟩ := hs
    exact ⟨token, s', htoken, by omega, by simp [heq, htighter]⟩
  | none =>
    rw [hfind] at hs
    obtain ⟨whole, s', heq, hwhole, hat', hdepth'⟩ := hs
    have hshort : s'.after.length < s.after.length := by
      have h₀ := hat.length_after
      have h₁ := hat'.length_after
      have hl := List.length_pos_iff.2 hfront
      omega
    have hr := hrest whole hwhole s' hat' hdepth' hspeltBack
    simp only [htighter, heq, hshort, if_true, Option.none_or]
    exact hr

/-- An operand is read by the rule for its first token. -/
theorem operand {sign : Sign} {signs : List Sign} (rule : OperandRule)
    (hrule : ∀ token, sign.Fits token → Rules.standardOperand token.kind = some rule)
    (hp : Rebuilds tokens depth i (rule.parse step) (sign :: signs) places good) :
    Rebuilds tokens depth i (operand .standard step) (sign :: signs) places good := by
  refine bind_sign fun token hfits => ?_
  have hcurrent : Rules.standard.operand token.kind = some rule := hrule token hfits
  rw [hcurrent]
  exact hp

end Rebuilds
end Parse

/-- The first token of a well-shaped expression begins an operand. -/
theorem Expr.WellShaped.next {tokens : List Token} {i : Nat} :
    ∀ {e : Expr}, e.WellShaped → Spelt tokens i e.spelling →
      Next tokens i (fun token => (Rules.standardOperand token.kind).isSome)
  | .literal _ _, _, h => next_of_spelt (fun token hfits => by
      have hliteral := hfits.2.1
      cases hk : token.kind <;> simp [Kind.isLiteral, hk] at hliteral <;> rfl) h
  | .read _, hw, h | .assign _ _ _, ⟨hw, _⟩, h => next_of_spelt (fun token hfits => by
      rw [kind_of_kept hw token hfits]
      rfl) h
  | .unary _ _ _, ⟨hw, _⟩, h => next_of_spelt (fun token hfits => by
      rcases hw with hw | hw <;> rw [kind_of_kept hw token hfits] <;> rfl) h
  | .superMethod _ _ _ _, ⟨hw, _⟩, h | .selfRef _ _, hw, h => next_of_spelt (fun token hfits => by
      rw [kind_of_kept hw token hfits]
      rfl) h
  | .grouping _ _, _, h => next_of_spelt (fun token hfits => by
      rw [hfits.2]
      rfl) h
  | .binary _ _ _ _ _, ⟨_, hw, _⟩, h => hw.next (spelt_append.1 h).1
  | .conditional _ _ _ _, ⟨_, _, hw, _⟩, h => hw.next (spelt_append.1 h).1
  | .call _ _ _, ⟨_, hw, _⟩, h => hw.next (spelt_append.1 h).1
  | .get _ _ _, ⟨_, _, hw⟩, h => hw.next (spelt_append.1 h).1
  | .set _ _ _ _, ⟨_, _, hw, _⟩, h => hw.next (spelt_append.1 h).1

theorem stops_of_kind {token : Token} {kind : Kind} (hkind : token.kind = kind)
    (hnone : Rules.standardOperator kind = none) (floor : Power) : Stops floor token := by
  intro power rule hrule
  rw [hkind, hnone] at hrule
  cases hrule

/-- An operator of a power that an expression leaves alone stops its last operand. -/
theorem stops_of_le {token : Token} {power floor : Power} {rule : OperatorRule}
    (hrule : Rules.standardOperator token.kind = some (power, rule)) (hle : power ≤ floor) :
    Stops floor token := by
  intro power' rule' hrule'
  rw [hrule] at hrule'
  cases hrule'
  exact Power.not_lt_of_le hle

theorem stops_primary (token : Token) : Stops .primary token := by
  intro power rule _
  have hle : power.rank ≤ Power.primary.rank := by cases power <;> decide
  exact Nat.not_lt_of_le hle

theorem operator_of_fits {kind : Kind} {power : Power} {rule : OperatorRule}
    (hrule : Rules.standardOperator kind = some (power, rule)) (token : Token)
    (hfits : (Sign.ofKind kind).Fits token) :
    Rules.standardOperator token.kind = some (power, rule) := by
  rw [hfits.2, hrule]

theorem Expr.eq_read_of_bare {e : Expr} {target : Reference} (h : e.bare = .read target) :
    ∃ target', e = .read target' ∧ target'.bare = target := by
  cases e with
  | read target' => exact ⟨target', rfl, Expr.read.inj h⟩
  | _ => cases h

theorem Expr.eq_get_of_bare {e object : Expr} {name : Token} {span : Span}
    (h : e.bare = .get object name span) :
    ∃ object' span', e = .get object' name span' ∧ object'.bare = object := by
  cases e with
  | get object' name' span' =>
    obtain ⟨hobject, rfl, -⟩ := Expr.get.inj h
    exact ⟨object', span', rfl, hobject⟩
  | _ => cases h

section Expressions

open Parse

attribute [local simp] Expr.bare

/-- Wherever the operators behind the expression are read on, reading its operand and operators from
its beginning leads there. The tokens behind it must leave its last operand alone. -/
def Expr.Spine (tokens : List Token) (e : Expr) : Prop :=
  ∀ (levels : Nat) (floor : Power) (place : Place) (back : List Sign) (more : List Place)
    (fine : Expr → Prop), maxNesting < levels + place.level → place.level ≤ maxNesting →
    floor < e.head →
    (Spelt tokens (place.start + e.spelling.length) back →
      Next tokens (place.start + e.spelling.length) (Stops e.tail)) →
    (∀ e' : Expr, e'.bare = e.bare → Rebuilds tokens place.level (place.start + e.spelling.length)
      (operators .standard (expressionWithin .standard levels) floor e') back more fine) →
    Rebuilds tokens place.level place.start (do
        let left ← operand .standard (expressionWithin .standard levels)
        operators .standard (expressionWithin .standard levels) floor left)
      (e.spelling ++ back) (e.places place ++ more) fine

variable {tokens : List Token}

/-- An expression whose spine is rebuilt is rebuilt on a level of its own. -/
theorem Expr.Spine.expression {e : Expr} (h : e.Spine tokens) (place : Place)
    {levels depth : Nat} {floor : Power} (hlevels : maxNesting < levels + depth)
    (hlevel : place.level = depth + 1) (hfloor : floor < e.head) (hunary : floor ≤ .unary)
    (hnext : Next tokens (place.start + e.spelling.length) (Stops floor)) :
    Rebuilds tokens depth place.start (expressionWithin .standard levels floor) e.spelling
      (e.places place) (fun e' => e'.bare = e.bare) := by
  obtain ⟨children, hchildren⟩ := e.exists_places place
  rw [hchildren]
  cases levels with
  | zero => exact .failHere rfl e.spelling_ne_nil (by omega)
  | succ levels =>
    refine .nested rfl e.spelling_ne_nil hlevel fun hshallow => ?_
    rw [← hchildren]
    have htail : Next tokens (place.start + e.spelling.length) (Stops e.tail) := by
      intro token htoken power rule hrule
      have hle := Power.le_of_not_lt (hnext token htoken power rule hrule)
      exact Power.not_lt_of_le (Power.le_trans hle (Expr.floor_le_tail hfloor hunary))
    have hspine := h levels floor place [] [] _ (by omega) hshallow hfloor (fun _ => htail)
      fun e' he' => (Rebuilds.operators_stop hnext).mono fun whole hwhole => hwhole ▸ he'
    rw [List.append_nil, List.append_nil] at hspine
    exact hspine

/-- In most places any expression may stand, up to a token that is no operator. -/
theorem Expr.Spine.whole {e : Expr} (h : e.Spine tokens) (hw : e.WellShaped) (place : Place)
    {levels depth : Nat} (hlevels : maxNesting < levels + depth) (hlevel : place.level = depth + 1)
    (hnext : Next tokens (place.start + e.spelling.length) (Stops .lowest)) :
    Rebuilds tokens depth place.start (expressionWithin .standard levels .lowest) e.spelling
      (e.places place) (fun e' => e'.bare = e.bare) :=
  h.expression place hlevels hlevel hw.lowest_lt_head (by decide) hnext

/-- An expression that is an operand has no spine. -/
theorem Expr.Spine.of_operand {e : Expr} {children : Place → List Place}
    (hplaces : ∀ place, e.places place = place :: children place)
    (h : ∀ levels place, maxNesting < levels + place.level →
      Next tokens (place.start + e.spelling.length) (Stops e.tail) →
        Rebuilds tokens place.level place.start
          (operand .standard (expressionWithin .standard levels)) e.spelling (children place)
          (fun e' => e'.bare = e.bare)) : e.Spine tokens := by
  intro levels floor place back more fine hlevels hlevel _ htail hrest
  rw [hplaces]
  exact (Rebuilds.bind (fun hback => h levels place hlevels (htail hback)) hrest).cons hlevel

variable (hends : Ended tokens)
include hends

theorem Expr.Spine.literal (value : Literal) (span : Span) :
    (Expr.literal value span).Spine tokens := by
  refine .of_operand (fun _ => rfl) fun levels place _ _ => ?_
  have hrule : ∀ token, (Sign.literal value span).Fits token →
      Rules.standardOperand token.kind = some .primary := by
    rintro token ⟨_, hk, -⟩
    cases h : token.kind <;> simp [Kind.isLiteral, h] at hk <;> rfl
  refine Rebuilds.operand .primary hrule ?_
  refine Rebuilds.bind_sign fun token hfits => ?_
  obtain ⟨hproper, hliteral, hcarries, hspan⟩ := hfits
  have hread : Rebuilds tokens place.level place.start (do
      let _ ← advance
      return Expr.literal value token.span) [.literal value span] []
      (fun e' => e'.bare = (Expr.literal value span).bare) :=
    .bind_token (.advance hends) fun _ _ => .pure (by rw [hspan])
  split
  iterate 5 · rw [hcarries]; exact hread
  all_goals simp_all [Kind.isLiteral]

/-- The operand that a variable is read as, also where it is assigned to. -/
theorem rebuilds_read {depth i : Nat} {step : ExpressionParser} {name : Token}
    (hkind : name.kind = .identifier) :
    Rebuilds tokens depth i (operand .standard step) [.kept name] []
      (fun e => e.bare = .read ⟨0, name⟩) := by
  refine Rebuilds.operand .primary (fun token hfits => ?_) ?_
  · rw [kind_of_kept hkind token hfits]
    rfl
  refine Rebuilds.bind_sign fun token hfits => ?_
  obtain rfl : token = name := hfits.2
  rw [hkind]
  exact .bind_token (.advance hends) fun _ _ => .bind_freshId fun _ => .pure rfl

theorem Expr.Spine.read {target : Reference} (hw : (Expr.read target).WellShaped) :
    (Expr.read target).Spine tokens :=
  .of_operand (fun _ => rfl) fun _ _ _ _ => rebuilds_read hends hw

theorem Expr.Spine.selfRef {id : Nat} {keyword : Token}
    (hw : (Expr.selfRef id keyword).WellShaped) : (Expr.selfRef id keyword).Spine tokens := by
  refine .of_operand (fun _ => rfl) fun levels place _ _ => ?_
  refine Rebuilds.operand .selfRef (fun token hfits => ?_) ?_
  · rw [kind_of_kept hw token hfits]
    rfl
  refine .bind_token (.advance_kept hends) fun token hsame => .bind_freshId fun _ => .pure ?_
  rw [hsame]
  rfl

theorem Expr.Spine.superMethod {id : Nat} {keyword method : Token} {span : Span}
    (hw : (Expr.superMethod id keyword method span).WellShaped) :
    (Expr.superMethod id keyword method span).Spine tokens := by
  refine .of_operand (fun _ => rfl) fun levels place _ _ => ?_
  refine Rebuilds.operand .superMethod (fun token hfits => ?_) ?_
  · rw [kind_of_kept hw.1 token hfits]
    rfl
  refine .bind_token (.advance_kept hends) fun token hsame => ?_
  refine .bind_token (.expectBut hends) fun _ _ => ?_
  refine .bind_token (.expectBut_kept hends hw.2) fun token' hsame' =>
    .bind_freshId fun _ => .pure ?_
  rw [hsame, hsame']
  rfl

theorem Expr.Spine.unary {operator : Token} {operand : Expr} {span : Span}
    (hw : (Expr.unary operator operand span).WellShaped) (h : operand.Spine tokens) :
    (Expr.unary operator operand span).Spine tokens := by
  refine .of_operand (fun _ => rfl) fun levels place hlevels hnext => ?_
  obtain ⟨hkind, hpower, -⟩ := hw
  refine Rebuilds.operand .unary (fun token hfits => ?_) ?_
  · rcases hkind with hkind | hkind <;> rw [kind_of_kept hkind token hfits] <;> rfl
  refine .bind_token (.advance_kept hends) fun token hsame => ?_
  have hoperand := h.expression (place.inside 1) hlevels rfl
    (Expr.unary_lt_head hpower) (Power.le_refl _)
    (hnext.of_eq (by simp only [Expr.spelling, Place.inside, List.length_cons]; omega))
  refine .bind_last hoperand fun operand' hbare => .pure ?_
  rw [hsame, Expr.bare, Expr.bare, hbare]

theorem Expr.Spine.grouping {content : Expr} {span : Span}
    (hw : (Expr.grouping content span).WellShaped) (h : content.Spine tokens) :
    (Expr.grouping content span).Spine tokens := by
  refine .of_operand (fun _ => rfl) fun levels place hlevels _ => ?_
  refine Rebuilds.operand .grouping (fun token hfits => ?_) ?_
  · rw [hfits.2]
    rfl
  refine .bind_token (.advance hends) fun _ _ => ?_
  refine .bind_flat (fun hback => h.whole hw (place.inside 1) hlevels rfl
    (next_of_spelt (fun token hfits => stops_of_kind hfits.2 rfl _) hback)) fun content' hbare => ?_
  refine .bind_token (.expectBut hends) fun _ _ => .bind_spanFrom fun _ => .pure ?_
  simp [hbare]

theorem Expr.Spine.binary {evaluation : Evaluation} {left right : Expr} {operator : Token}
    {span : Span} (hw : (Expr.binary evaluation left operator right span).WellShaped)
    (hleft : left.Spine tokens) (hright : right.Spine tokens) :
    (Expr.binary evaluation left operator right span).Spine tokens := by
  obtain ⟨⟨power, hpower, hleftPower, hrightPower⟩, -, -⟩ := hw
  obtain ⟨htight, hloose⟩ := bounds_of_binaryPower hpower
  intro levels floor place back more fine hlevels hlevel hfloor htail hrest
  have hhead : floor < power := by simpa [Expr.head, Expr.power, hpower] using hfloor
  have hrule : ∀ token, (Sign.kept operator).Fits token →
      Rules.standardOperator token.kind = some (power, evaluation.rule) := by
    intro token hfits
    rw [show token = operator from hfits.2, standardOperator_of_binaryPower hpower]
  have hlength : place.start + left.spelling.length +
      (Sign.kept operator :: right.spelling).length =
        place.start + (Expr.binary evaluation left operator right span).spelling.length := by
    simp only [Expr.spelling, List.length_append]
    omega
  rw [← hlength] at htail hrest
  rw [Expr.spelling, Expr.places, List.append_assoc, List.cons_append (a := place),
    List.append_assoc]
  refine (hleft levels floor (place.sharing 0) _ _ fine hlevels hlevel
    (Expr.lt_head_of_lt_power (Power.lt_of_lt_of_le hhead hleftPower)) ?_ ?_).cons hlevel
  · exact next_of_spelt fun token hfits =>
      stops_of_le (hrule token hfits) (Expr.le_tail htight hleftPower)
  intro left' hbare
  refine Rebuilds.operators_step (next_of_spelt hrule) hhead (List.cons_ne_nil _ _)
    (fun hback => ?_) hrest
  have hnext := htail hback
  simp only [Expr.tail, hpower, Option.getD_some] at hnext
  rw [parse_binaryRule]
  refine .bind_token (.advance_kept hends) fun token hsame => ?_
  have hoperand := hright.expression (place.inside (left.spelling.length + 1)) hlevels rfl
    (Expr.lt_head_of_lt_power hrightPower) (Nat.le_of_lt hloose)
    (hnext.of_eq (by simp only [Place.inside, List.length_cons]; omega))
  refine .bind_last hoperand fun right' hbare' => .pure ?_
  rw [hsame, Expr.bare, Expr.bare, hbare, hbare']

theorem Expr.Spine.conditional {condition thenBranch elseBranch : Expr} {span : Span}
    (hw : (Expr.conditional condition thenBranch elseBranch span).WellShaped)
    (hcondition : condition.Spine tokens) (hthen : thenBranch.Spine tokens)
    (helse : elseBranch.Spine tokens) :
    (Expr.conditional condition thenBranch elseBranch span).Spine tokens := by
  obtain ⟨hconditionPower, helsePower, -, hthenShape, -⟩ := hw
  intro levels floor place back more fine hlevels hlevel hfloor htail hrest
  have hrule : ∀ token, (Sign.ofKind .question).Fits token →
      Rules.standardOperator token.kind = some (.conditional, .conditional) :=
    operator_of_fits rfl
  have hlength : place.start + condition.spelling.length + (Sign.ofKind .question ::
      (thenBranch.spelling ++ Sign.ofKind .colon :: elseBranch.spelling)).length =
        place.start +
          (Expr.conditional condition thenBranch elseBranch span).spelling.length := by
    simp only [Expr.spelling, List.length_append]
    omega
  rw [← hlength] at htail hrest
  rw [Expr.spelling, Expr.places, List.append_assoc, List.cons_append (a := place),
    List.append_assoc]
  refine (hcondition levels floor (place.sharing 0) _ _ fine hlevels hlevel
    (Expr.lt_head_of_lt_power (Nat.lt_trans hfloor hconditionPower)) ?_ ?_).cons hlevel
  · have htail := Expr.le_tail hconditionPower (Power.le_refl condition.power)
    have htight : Power.conditional ≤ condition.tail :=
      Nat.le_of_lt (Power.lt_of_lt_of_le hconditionPower htail)
    exact next_of_spelt fun token hfits => stops_of_le (hrule token hfits) htight
  intro condition' hbare
  refine Rebuilds.operators_step (next_of_spelt hrule) hfloor (List.cons_ne_nil _ _)
    (fun hback => ?_) hrest
  refine .bind_token (.advance hends) fun _ _ => ?_
  refine .bind (fun hcolon => hthen.whole hthenShape
    (place.inside (condition.spelling.length + 1)) hlevels rfl (next_of_spelt (fun token hfits =>
      stops_of_kind hfits.2 rfl _) hcolon)) fun thenBranch' hbare' => ?_
  refine .bind_token (.expectBut hends) fun _ _ => ?_
  have hoperand := helse.expression
    (place.inside (condition.spelling.length + 1 + thenBranch.spelling.length + 1)) hlevels rfl
    (Expr.lt_head_of_lt_power helsePower) (by decide) ((htail hback).of_eq (by
      simp only [Place.inside, List.length_cons, List.length_append]
      omega))
  refine .bind_last (hoperand.of_eq (by simp only [Place.inside, Place.sharing]; omega))
    fun elseBranch' hbare'' => .pure ?_
  simp [hbare, hbare', hbare'']

/-- The loop goes from an object to its property. -/
theorem Expr.Spine.member {object : Expr} {name : Token} (h : object.Spine tokens)
    (hpower : Power.call ≤ object.power) (hname : name.kind = .identifier) (place : Place)
    {levels : Nat} {floor : Power} {back : List Sign} {more : List Place} {fine : Expr → Prop}
    (hlevels : maxNesting < levels + place.level) (hlevel : place.level ≤ maxNesting)
    (hfloor : floor < .call)
    (hrest : ∀ e' : Expr, e'.bare = .get object.bare name default →
      Rebuilds tokens place.level (place.start + object.spelling.length + 2)
        (operators .standard (expressionWithin .standard levels) floor e') back more fine) :
    Rebuilds tokens place.level place.start (do
        let left ← operand .standard (expressionWithin .standard levels)
        operators .standard (expressionWithin .standard levels) floor left)
      (object.spelling ++ .ofKind .dot :: .kept name :: back) (object.places place ++ more)
      fine := by
  have hrule : ∀ token, (Sign.ofKind .dot).Fits token →
      Rules.standardOperator token.kind = some (.member, .member) :=
    operator_of_fits rfl
  have hmember : Power.call < Power.member := by decide
  refine h levels floor place _ _ fine hlevels hlevel
    (Expr.lt_head_of_lt_power (Power.lt_of_lt_of_le hfloor hpower)) ?_ ?_
  · intro _ token _
    rw [Expr.tail_eq_primary hpower]
    exact stops_primary token
  intro object' hbare
  have hstep : Rebuilds tokens place.level (place.start + object.spelling.length)
      (OperatorRule.member.parse (expressionWithin .standard levels) object' .member)
      [.ofKind .dot, .kept name] [] (fun e' => e'.bare = .get object.bare name default) := by
    refine .bind_token (.advance hends) fun _ _ => ?_
    refine .bind_token (.expectBut_kept hends hname) fun token hsame => .pure ?_
    rw [hsame, Expr.bare, hbare]
  exact Rebuilds.operators_step (next_of_spelt hrule) (Nat.lt_trans hfloor hmember)
    (List.cons_ne_nil _ _) (fun _ => hstep) hrest

theorem Expr.Spine.get {object : Expr} {name : Token} {span : Span}
    (hw : (Expr.get object name span).WellShaped) (h : object.Spine tokens) :
    (Expr.get object name span).Spine tokens := by
  obtain ⟨hpower, hname, -⟩ := hw
  intro levels floor place back more fine hlevels hlevel hfloor htail hrest
  have hlength : place.start + (Expr.get object name span).spelling.length =
      place.start + object.spelling.length + 2 := by
    simp only [Expr.spelling, List.length_append, List.length_cons, List.length_nil]
    omega
  rw [hlength] at hrest
  rw [Expr.spelling, Expr.places, List.append_assoc, List.cons_append (a := place)]
  exact (h.member hends hpower hname (place.sharing 0) hlevels hlevel hfloor hrest).cons hlevel

/-- The loop reads what is assigned to a target. Every operator behind it belongs to the value. -/
theorem rebuilds_assigned {value whole : Expr} {levels : Nat} {floor : Power} {place : Place}
    {offset : Nat} {left : Expr} {back : List Sign} {more : List Place} {fine : Expr → Prop}
    (hw : value.WellShaped) (h : value.Spine tokens) (hlevels : maxNesting < levels + place.level)
    (hfloor : floor < .assignment)
    (hassign : ∀ operator value' span, value'.bare = value.bare →
      Rebuilds tokens place.level (place.start + offset + 1 + value.spelling.length)
        (assignTo operator value' span left) [] [] (fun e' => e'.bare = whole))
    (htail : Spelt tokens (place.start + offset + 1 + value.spelling.length) back →
      Next tokens (place.start + offset + 1 + value.spelling.length) (Stops .lowest))
    (hrest : ∀ e' : Expr, e'.bare = whole →
      Rebuilds tokens place.level (place.start + offset + 1 + value.spelling.length)
        (operators .standard (expressionWithin .standard levels) floor e') back more fine) :
    Rebuilds tokens place.level (place.start + offset)
      (operators .standard (expressionWithin .standard levels) floor left)
      (.ofKind .assignment :: value.spelling ++ back)
      (value.places (place.inside (offset + 1)) ++ more) fine := by
  have hrule : ∀ token, (Sign.ofKind .assignment).Fits token →
      Rules.standardOperator token.kind = some (.assignment, .assignment) :=
    operator_of_fits rfl
  have hlength : place.start + offset + 1 + value.spelling.length =
      place.start + offset + (Sign.ofKind .assignment :: value.spelling).length := by
    rw [List.length_cons]
    omega
  refine Rebuilds.operators_step (next_of_spelt hrule) hfloor (List.cons_ne_nil _ _)
    (fun hback => ?_) (hlength ▸ hrest)
  refine .bind_token (.advance hends) fun operator _ => ?_
  refine .bind_last (h.whole hw (place.inside (offset + 1)) hlevels rfl
    (htail (hlength ▸ hback))) fun value' hbare => ?_
  exact hassign operator value' _ hbare

theorem Expr.Spine.assign {target : Reference} {value : Expr} {span : Span}
    (hw : (Expr.assign target value span).WellShaped) (h : value.Spine tokens) :
    (Expr.assign target value span).Spine tokens := by
  obtain ⟨hname, hvalue⟩ := hw
  intro levels floor place back more fine hlevels hlevel hfloor htail hrest
  have hlength : place.start + (Expr.assign target value span).spelling.length =
      place.start + 1 + 1 + value.spelling.length := by
    simp only [Expr.spelling, List.length_cons]
    omega
  rw [hlength] at htail hrest
  refine Rebuilds.cons (.bind_token (rebuilds_read hends hname) fun left hleft => ?_) hlevel
  obtain ⟨target', rfl, htarget⟩ := Expr.eq_read_of_bare hleft
  refine rebuilds_assigned hends hvalue h hlevels hfloor (fun operator value' span' hbare => ?_)
    htail hrest
  refine .bind_freshId fun _ => .pure ?_
  have hsame := congrArg Reference.name htarget
  simp only [Reference.bare] at hsame
  simp only [Expr.bare, Reference.bare, hbare, hsame]

theorem Expr.Spine.set {object value : Expr} {name : Token} {span : Span}
    (hw : (Expr.set object name value span).WellShaped) (hobject : object.Spine tokens)
    (h : value.Spine tokens) : (Expr.set object name value span).Spine tokens := by
  obtain ⟨hpower, hname, -, hvalue⟩ := hw
  intro levels floor place back more fine hlevels hlevel hfloor htail hrest
  have hcall : Power.assignment < Power.call := by decide
  have hlength : place.start + (Expr.set object name value span).spelling.length =
      place.start + (object.spelling.length + 2) + 1 + value.spelling.length := by
    simp only [Expr.spelling, List.length_append, List.length_cons]
    omega
  rw [hlength] at htail hrest
  rw [Expr.spelling, Expr.places, List.append_assoc, List.cons_append (a := place),
    List.append_assoc]
  refine (hobject.member hends hpower hname (place.sharing 0) hlevels hlevel
    (Nat.lt_trans hfloor hcall) fun e' he' => ?_).cons hlevel
  obtain ⟨object', span', rfl, hbare⟩ := Expr.eq_get_of_bare he'
  refine rebuilds_assigned hends hvalue h hlevels hfloor
    (fun operator value' span'' hbare' => ?_) htail hrest
  refine .pure ?_
  simp [hbare, hbare']

/-- Arguments are read one after the other, up to the closing bracket. -/
theorem rebuilds_items {levels : Nat} {place : Place} (hlevels : maxNesting < levels + place.level)
    (e : Expr) (rest : List Expr) :
    ∀ offset, Expr.WellShapedAll (e :: rest) → (∀ other ∈ e :: rest, other.Spine tokens) →
    Next tokens (place.start + offset + (withCommas (Expr.spellings (e :: rest))).length)
      (fun token => token.kind = .closeParen) →
    Rebuilds tokens place.level (place.start + offset)
      (separated (expressionWithin .standard levels .lowest))
      (withCommas (Expr.spellings (e :: rest))) (Expr.placesAll place offset (e :: rest))
      (fun list => Expr.bareAll list = Expr.bareAll (e :: rest)) := by
  induction rest generalizing e with
  | nil =>
    intro offset hw hspine hnext
    rw [Expr.placesAll, Expr.placesAll, List.append_nil]
    have hitem := (hspine e List.mem_cons_self).whole hw.1 (place.inside offset) hlevels rfl
      fun token htoken => stops_of_kind (hnext token htoken) rfl _
    refine (Rebuilds.separated_last hitem (hnext.ne_kind (by decide))).mono fun list hlist => ?_
    obtain ⟨e', rfl, hbare⟩ := hlist
    simp only [Expr.bareAll, hbare]
  | cons next rest ih =>
    intro offset hw hspine hnext
    rw [Expr.placesAll, Expr.spellings, withCommas_cons (by simp [Expr.spellings])]
    have hitem : Spelt tokens (place.start + offset + e.spelling.length)
        (.ofKind .comma :: withCommas (Expr.spellings (next :: rest))) →
        Rebuilds tokens place.level (place.start + offset)
          (expressionWithin .standard levels .lowest) e.spelling (e.places (place.inside offset))
          (fun e' => e'.bare = e.bare) := fun hcomma =>
      (hspine e List.mem_cons_self).whole hw.1 (place.inside offset) hlevels rfl
        (next_of_spelt (fun token hfits => stops_of_kind hfits.2 rfl _) hcomma)
    have hitems := ih next (offset + e.spelling.length + 1) hw.2
      (fun other hother => hspine other (List.mem_cons_of_mem _ hother)) (hnext.of_eq (by
        rw [Expr.spellings, withCommas_cons (by simp [Expr.spellings]), List.length_append,
          List.length_cons]
        omega))
    refine (Rebuilds.separated_more hends hitem (hitems.of_eq (by omega))).mono
      fun list hlist => ?_
    obtain ⟨e', rest', rfl, hbare, hbareAll⟩ := hlist
    rw [Expr.bareAll, hbare, hbareAll]
    rfl

/-- The arguments of a call, if there are any. -/
theorem rebuilds_arguments (place : Place) (offset : Nat) {levels : Nat} {arguments : List Expr}
    (hlevels : maxNesting < levels + place.level) (hw : Expr.WellShapedAll arguments)
    (hspine : ∀ e ∈ arguments, e.Spine tokens)
    (hnext : Next tokens (place.start + offset + (withCommas (Expr.spellings arguments)).length)
      (fun token => token.kind = .closeParen)) :
    Rebuilds tokens place.level (place.start + offset)
      (separatedUntil .closeParen (expressionWithin .standard levels .lowest))
      (withCommas (Expr.spellings arguments)) (Expr.placesAll place offset arguments)
      (fun list => Expr.bareAll list = Expr.bareAll arguments) := by
  cases arguments with
  | nil => exact (Rebuilds.separatedUntil_none hnext).mono fun list hlist => by rw [hlist]
  | cons e rest =>
    refine Rebuilds.separatedUntil_some (rebuilds_items hends hlevels e rest offset hw hspine hnext)
      fun hspelt token htoken hclose => ?_
    have hfirst : Spelt tokens (place.start + offset) e.spelling := by
      cases rest with
      | nil => exact hspelt
      | cons next rest => exact (spelt_append.1 hspelt).1
    have hoperand : (Rules.standardOperand token.kind).isSome := hw.1.next hfirst token htoken
    rw [hclose] at hoperand
    cases hoperand

theorem Expr.Spine.call {callee : Expr} {arguments : List Expr} {span : Span}
    (hw : (Expr.call callee arguments span).WellShaped) (h : callee.Spine tokens)
    (hspine : ∀ e ∈ arguments, e.Spine tokens) :
    (Expr.call callee arguments span).Spine tokens := by
  obtain ⟨hpower, -, hshapes⟩ := hw
  intro levels floor place back more fine hlevels hlevel hfloor htail hrest
  have hrule : ∀ token, (Sign.ofKind .openParen).Fits token →
      Rules.standardOperator token.kind = some (.call, .call) :=
    operator_of_fits rfl
  have hlength : place.start + callee.spelling.length + (Sign.ofKind .openParen ::
      (withCommas (Expr.spellings arguments) ++ [Sign.ofKind .closeParen])).length =
        place.start + (Expr.call callee arguments span).spelling.length := by
    simp only [Expr.spelling, List.length_append]
    omega
  rw [← hlength] at hrest
  rw [Expr.spelling, Expr.places, List.append_assoc, List.cons_append (a := place),
    List.append_assoc]
  refine (h levels floor (place.sharing 0) _ _ fine hlevels hlevel
    (Expr.lt_head_of_lt_power (Power.lt_of_lt_of_le hfloor hpower)) ?_ ?_).cons hlevel
  · intro _ token _
    rw [Expr.tail_eq_primary hpower]
    exact stops_primary token
  intro callee' hbare
  refine Rebuilds.operators_step (next_of_spelt hrule) hfloor (List.cons_ne_nil _ _)
    (fun _ => ?_) hrest
  refine .bind_token (.advance hends) fun _ _ => ?_
  refine .bind_flat (fun hclose => rebuilds_arguments hends place (callee.spelling.length + 1)
    hlevels hshapes hspine (next_ofKind hclose))
      fun arguments' hbare' => ?_
  refine .bind_token (.expectBut hends) fun _ _ => .bind_spanFrom fun _ => .pure ?_
  simp [hbare, hbare']

end Expressions

mutual

/-- Every well-shaped expression is rebuilt. -/
theorem Expr.WellShaped.spine {tokens : List Token} (hends : Ended tokens) :
    ∀ {e : Expr}, e.WellShaped → e.Spine tokens
  | .literal value span, _ => .literal hends value span
  | .read _, hw => .read hends hw
  | .assign _ _ _, hw => .assign hends hw (hw.2.spine hends)
  | .binary _ _ _ _ _, hw => .binary hends hw (hw.2.1.spine hends) (hw.2.2.spine hends)
  | .unary _ _ _, hw => .unary hends hw (hw.2.2.spine hends)
  | .grouping content _, hw => .grouping hends hw (Expr.WellShaped.spine hends (e := content) hw)
  | .conditional _ _ _ _, hw =>
    .conditional hends hw (hw.2.2.1.spine hends) (hw.2.2.2.1.spine hends)
      (hw.2.2.2.2.spine hends)
  | .call _ _ _, hw => .call hends hw (hw.2.1.spine hends) (Expr.spine_of_mem hends hw.2.2)
  | .get _ _ _, hw => .get hends hw (hw.2.2.spine hends)
  | .set _ _ _ _, hw => .set hends hw (hw.2.2.1.spine hends) (hw.2.2.2.spine hends)
  | .superMethod _ _ _ _, hw => .superMethod hends hw
  | .selfRef _ _, hw => .selfRef hends hw

theorem Expr.spine_of_mem {tokens : List Token} (hends : Ended tokens) :
    ∀ {list : List Expr}, Expr.WellShapedAll list → ∀ e ∈ list, e.Spine tokens
  | [], _, _, he => nomatch he
  | first :: rest, hw, e, he => by
    have hfirst := hw.1.spine hends
    rcases List.mem_cons.1 he with heq | he
    · rw [heq]
      exact hfirst
    · exact Expr.spine_of_mem hends hw.2 e he

end

/-- A well-shaped expression is rebuilt up to a token that is no operator. -/
theorem Expr.WellShaped.rebuilds {tokens : List Token} (hends : Ended tokens) {e : Expr}
    (hw : e.WellShaped) (place : Place) {levels depth : Nat}
    (hlevels : maxNesting < levels + depth) (hlevel : place.level = depth + 1)
    (hnext : Next tokens (place.start + e.spelling.length) (Stops .lowest)) :
    Parse.Rebuilds tokens depth place.start (Parse.expressionWithin .standard levels .lowest)
      e.spelling (e.places place) (fun e' => e'.bare = e.bare) :=
  (hw.spine hends).whole hw place hlevels hlevel hnext

end LexicalScoping
