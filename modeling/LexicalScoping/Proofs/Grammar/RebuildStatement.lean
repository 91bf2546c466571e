import LexicalScoping.Grammar.Statement
import LexicalScoping.Proofs.Grammar.RebuildExpression

/-!
# Statements are rebuilt

The statement parser rebuilds every well-shaped statement, construct by construct. What comes behind
a statement matters only where it ends in an `if` without `else`: the next token must not be an
`else`, which the parser would give to that `if`.
-/
namespace LexicalScoping

/-- The kinds that statements begin with. -/
def BeginsStatement (kind : Kind) : Prop :=
  (Rules.standardStatement kind).isSome ∨ (Rules.standardOperand kind).isSome

theorem not_beginsStatement_of_endsCase {kind : Kind} (h : Parse.endsCase kind) :
    ¬ BeginsStatement kind := by
  cases kind <;> simp_all [Parse.endsCase, BeginsStatement, Rules.standardStatement,
    Rules.standardOperand]

theorem ne_elseWord_of_endsCase {kind : Kind} (h : Parse.endsCase kind) : kind ≠ .elseWord := by
  rintro rfl
  cases h

theorem ne_elseWord_of_beginsStatement {kind : Kind} (h : BeginsStatement kind) :
    kind ≠ .elseWord := by
  rintro rfl
  simp [BeginsStatement, Rules.standardStatement, Rules.standardOperand] at h

/-- No expression begins as a statement of another kind does. -/
theorem standardStatement_of_operand {kind : Kind}
    (h : (Rules.standardOperand kind).isSome) : Rules.standardStatement kind = none := by
  cases kind <;> simp_all [Rules.standardStatement, Rules.standardOperand]

theorem Expr.WellShaped.next_append {tokens : List Token} {i : Nat} {e : Expr} {back : List Sign}
    (hw : e.WellShaped) (h : Spelt tokens i (e.spelling ++ back)) :
    Next tokens i (fun token => (Rules.standardOperand token.kind).isSome) :=
  hw.next (spelt_append.1 h).1

/-- The first token of a well-shaped statement begins a statement. -/
theorem Stmt.WellShaped.next {tokens : List Token} {i : Nat} {s : Stmt} (hw : s.WellShaped)
    (h : Spelt tokens i s.spelling) : Next tokens i (fun token => BeginsStatement token.kind) := by
  have hkeyword : ∀ {kind : Kind}, (Rules.standardStatement kind).isSome →
      ∀ token, (Sign.ofKind kind).Fits token → BeginsStatement token.kind := by
    intro kind hkind token hfits
    rw [hfits.2]
    exact .inl hkind
  have hkept : ∀ {word : Token} {kind : Kind}, word.kind = kind →
      (Rules.standardStatement kind).isSome → ∀ token, (Sign.kept word).Fits token →
        BeginsStatement token.kind := by
    intro word kind hword hkind token hfits
    rw [kind_of_kept hword token hfits]
    exact .inl hkind
  cases s with
  | expression e span =>
    have hoperand := hw.next_append h
    exact fun token htoken => .inr (hoperand token htoken)
  | breakLoop keyword => exact next_of_spelt (hkept hw rfl) h
  | continueLoop keyword => exact next_of_spelt (hkept hw rfl) h
  | returnValue keyword value span => exact next_of_spelt (hkept hw.1 rfl) h
  | ifElse condition thenBody elseBody span =>
    cases elseBody <;> exact next_of_spelt (hkeyword rfl) h
  | block | letDecl | print | whileLoop | doWhile | forLoop | switch | function | classDecl =>
    exact next_of_spelt (hkeyword rfl) h

section Statements

open Parse

attribute [local simp] Stmt.bare

/-- Wherever the levels that are left suffice, the statement is rebuilt on a level of its own. -/
def Stmt.Rebuilt (tokens : List Token) (s : Stmt) : Prop :=
  ∀ (levels depth : Nat) (place : Place), maxNesting < levels + depth →
    place.level = depth + 1 →
    (s.EndsOpen → Next tokens (place.start + s.spelling.length)
      (fun token => token.kind ≠ .elseWord)) →
    Rebuilds tokens depth place.start (statementWithin .standard levels) s.spelling
      (s.places place) (fun s' => s'.bare = s.bare)

variable {tokens : List Token}

/-- A statement is rebuilt if the rule for its first token rebuilds it on a level that is open. -/
theorem Stmt.Rebuilt.of_rule {s : Stmt} (rule : Option StatementRule)
    {children : Place → List Place} (hplaces : ∀ place, s.places place = place :: children place)
    (hrule : ∀ i, Spelt tokens i s.spelling →
      Next tokens i (fun token => Rules.standardStatement token.kind = rule))
    (h : ∀ (levels : Nat) (place : Place), maxNesting < levels + place.level →
      place.level ≤ maxNesting →
      (s.EndsOpen → Next tokens (place.start + s.spelling.length)
        (fun token => token.kind ≠ .elseWord)) →
      Rebuilds tokens place.level place.start
        ((rule.getD .expression).parse (expressionWithin .standard levels .lowest)
          (statementWithin .standard levels)) s.spelling (children place)
        (fun s' => s'.bare = s.bare)) : s.Rebuilt tokens := by
  intro levels depth place hlevels hlevel hopen
  rw [hplaces]
  cases levels with
  | zero => exact .failHere rfl s.spelling_ne_nil (by omega)
  | succ levels =>
    refine .nested rfl s.spelling_ne_nil hlevel fun hshallow => ?_
    refine Rebuilds.cons (Rebuilds.bind_peek fun token htoken hspelt => ?_) hshallow
    have hcurrent : Rules.standard.statement token.kind = rule :=
      hrule place.start hspelt token htoken
    rw [hcurrent]
    exact h levels place (by omega) hshallow hopen

/-- The rule for the keyword that a statement begins with. -/
theorem rule_of_ofKind {rule : Option StatementRule} {kind : Kind} {signs : List Sign}
    (hrule : Rules.standardStatement kind = rule) (i : Nat)
    (h : Spelt tokens i (.ofKind kind :: signs)) :
    Next tokens i (fun token => Rules.standardStatement token.kind = rule) :=
  (next_ofKind h).imp fun _ hkind => by rw [hkind, hrule]

theorem rule_of_kept {rule : Option StatementRule} {kind : Kind} {same : Token}
    {signs : List Sign} (hkind : same.kind = kind) (hrule : Rules.standardStatement kind = rule)
    (i : Nat) (h : Spelt tokens i (.kept same :: signs)) :
    Next tokens i (fun token => Rules.standardStatement token.kind = rule) :=
  next_of_spelt (fun token hfits => by rw [kind_of_kept hkind token hfits, hrule]) h

section Parts

variable (hends : Ended tokens) {levels : Nat} (place : Place)
include hends

/-- An expression inside the place, up to a token of a kind that is no operator. -/
theorem rebuilds_until {e : Expr} (hw : e.WellShaped) (kind : Kind)
    (hkind : Rules.standardOperator kind = none) (offset : Nat)
    (hlevels : maxNesting < levels + place.level)
    (hnext : Next tokens (place.start + offset + e.spelling.length)
      (fun token => token.kind = kind)) :
    Rebuilds tokens place.level (place.start + offset)
      (expressionWithin .standard levels .lowest) e.spelling (e.places (place.inside offset))
      (fun e' => e'.bare = e.bare) :=
  hw.rebuilds hends (place.inside offset) hlevels rfl fun token htoken =>
    stops_of_kind (hnext token htoken) hkind _

theorem rebuilds_evaluated {e : Expr} (hw : e.WellShaped)
    (hlevels : maxNesting < levels + place.level) :
    Rebuilds tokens place.level place.start
      (evaluated (expressionWithin .standard levels .lowest))
      (e.spelling ++ [.ofKind .semicolon]) (e.places (place.inside 0))
      (fun answer => answer.1.bare = e.bare) := by
  refine .bind_peek fun _ _ _ => ?_
  refine .bind_flat (fun hback => rebuilds_until hends place hw .semicolon rfl 0 hlevels
    (next_ofKind hback)) fun e' hbare => ?_
  exact .bind_token (.expect hends) fun _ _ =>
    .bind_spanFrom fun _ => .pure hbare

theorem rebuilds_head {e : Expr} (hw : e.WellShaped) (construct : String) (offset : Nat)
    (hlevels : maxNesting < levels + place.level) :
    Rebuilds tokens place.level (place.start + offset)
      (head (expressionWithin .standard levels .lowest) construct) (headSpelling e)
      (e.places (place.inside (offset + 1))) (fun e' => e'.bare = e.bare) := by
  refine .bind_token (.expectBut hends) fun _ _ => ?_
  refine .bind_flat (fun hback => rebuilds_until hends place hw .closeParen rfl (offset + 1) hlevels
    (next_ofKind hback)) fun e' hbare => ?_
  exact .bind_token (.expectBut hends) fun _ _ => .pure hbare

/-- An initial value up to its semicolon. -/
theorem rebuilds_initial {value : Option Expr} (hw : Expr.WellShaped? value) (offset : Nat)
    (hlevels : maxNesting < levels + place.level)
    (hnext : Next tokens (place.start + offset + (afterMark .assignment value).length)
      (fun token => token.kind = .semicolon)) :
    Rebuilds tokens place.level (place.start + offset)
      (afterKind .assignment (expressionWithin .standard levels .lowest))
      (afterMark .assignment value) (Expr.places? (place.inside (offset + 1)) value)
      (fun value' => value'.map Expr.bare = value.map Expr.bare) := by
  cases value with
  | none =>
    exact (Rebuilds.afterKind_none (hnext.ne_kind (by decide))).mono
      fun value' hvalue => by rw [hvalue]
  | some e =>
    have he := rebuilds_until hends place hw .semicolon rfl (offset + 1) hlevels
      (hnext.of_eq (by simp only [afterMark, List.length_cons]; omega))
    refine (Rebuilds.afterKind_some hends he).mono fun value' hvalue => ?_
    obtain ⟨e', rfl, hbare⟩ := hvalue
    rw [Option.map_some, Option.map_some, hbare]

/-- An expression that may be missing before a token of the kind. -/
theorem rebuilds_optional {value : Option Expr} (hw : Expr.WellShaped? value) {kind : Kind}
    (hoperator : Rules.standardOperator kind = none) (hoperand : Rules.standardOperand kind = none)
    (offset : Nat) (hlevels : maxNesting < levels + place.level)
    (hnext : Next tokens (place.start + offset + (Expr.spelling? value).length)
      (fun token => token.kind = kind)) :
    Rebuilds tokens place.level (place.start + offset)
      (unlessKind kind (expressionWithin .standard levels .lowest))
      (Expr.spelling? value) (Expr.places? (place.inside offset) value)
      (fun value' => value'.map Expr.bare = value.map Expr.bare) := by
  cases value with
  | none => exact (Rebuilds.unlessKind_none hnext).mono fun value' hvalue => by rw [hvalue]
  | some e =>
    have he := rebuilds_until hends place hw kind hoperator offset hlevels hnext
    refine (Rebuilds.unlessKind_some he fun hspelt token htoken hkind => ?_).mono
      fun value' hvalue => ?_
    · have hfirst : (Rules.standardOperand token.kind).isSome :=
        Expr.WellShaped.next (e := e) hw hspelt token htoken
      rw [hkind, hoperand] at hfirst
      cases hfirst
    · obtain ⟨e', rfl, hbare⟩ := hvalue
      rw [Option.map_some, Option.map_some, hbare]

theorem rebuilds_letDecl {declaration : LetDecl} (hw : declaration.WellShaped)
    (hlevels : maxNesting < levels + place.level) :
    Rebuilds tokens place.level place.start
      (letDecl (expressionWithin .standard levels .lowest)) declaration.spelling
      (Expr.places? (place.inside 3) declaration.value)
      (fun declaration' => declaration'.bare = declaration.bare) := by
  refine .bind_token (.advance hends) fun _ _ => ?_
  refine .bind_token (.expectBut_kept hends hw.1) fun name hname => ?_
  refine .bind_flat (fun hback => rebuilds_initial hends place hw.2 2 hlevels
    (next_ofKind hback)) fun value' hbare => ?_
  refine .bind_token (.expect hends) fun _ _ => .bind_spanFrom fun _ => .pure ?_
  rw [LetDecl.bare, LetDecl.bare, hbare, hname]

/-- The first clause of a `for` shares the level of its statement. -/
theorem rebuilds_forStart {start : Option ForStart} (hw : ForStart.WellShaped start)
    (hlevels : maxNesting < levels + place.level) (hlevel : place.level ≤ maxNesting) :
    Rebuilds tokens place.level place.start
      (forStart (expressionWithin .standard levels .lowest)) (ForStart.spelling start)
      (ForStart.places place start)
      (fun start' => start'.map ForStart.bare = start.map ForStart.bare) := by
  refine .bind_peek fun token htoken hspelt => ?_
  rcases start with _ | declaration | ⟨e, span⟩
  · have hkind : token.kind = .semicolon := next_ofKind hspelt token htoken
    rw [hkind]
    exact .bind_token (.advance hends) fun _ _ => .pure rfl
  · have hkind : token.kind = .letWord := next_ofKind hspelt token htoken
    rw [hkind]
    refine Rebuilds.cons (.bind_last (rebuilds_letDecl hends place hw hlevels)
      fun declaration' hbare => .pure ?_) hlevel
    rw [Option.map_some, Option.map_some, ForStart.bare, ForStart.bare, hbare]
  · have hfirst : (Rules.standardOperand token.kind).isSome :=
      Expr.WellShaped.next_append (e := e) hw hspelt token htoken
    refine Rebuilds.cons ?_ hlevel
    split
    · next hkind => rw [hkind] at hfirst; cases hfirst
    · next hkind => rw [hkind] at hfirst; cases hfirst
    · refine .bind_last (rebuilds_evaluated hends place hw hlevels) fun answer hbare => .pure ?_
      rw [Option.map_some, Option.map_some, ForStart.bare, ForStart.bare, hbare]

omit hends in
/-- Statements one after the other, up to a token that ends them. -/
theorem rebuilds_statements {stop : Kind → Bool}
    (hstop : ∀ kind, stop kind → ¬ BeginsStatement kind) {list : List Stmt}
    (hw : Stmt.WellShapedAll list) (h : ∀ s ∈ list, s.Rebuilt tokens) (offset : Nat)
    (hlevels : maxNesting < levels + place.level)
    (hnext : Next tokens (place.start + offset + (Stmt.spellings list).length)
      (fun token => stop token.kind ∧ token.kind ≠ .elseWord)) :
    Rebuilds tokens place.level (place.start + offset)
      (manyUntil stop (statementWithin .standard levels)) (Stmt.spellings list)
      (Stmt.placesAll place offset list)
      (fun list' => Stmt.bareAll list' = Stmt.bareAll list) := by
  induction list generalizing offset with
  | nil =>
    exact (Rebuilds.manyUntil_nil fun token htoken => (hnext token htoken).1).mono
      fun list' hlist => by rw [hlist]
  | cons s rest ih =>
    have hrest := ih hw.2 (fun other hother => h other (List.mem_cons_of_mem _ hother))
      (offset + s.spelling.length) (hnext.of_eq (by
        simp only [Stmt.spellings, List.length_append]
        omega))
    have hfirst : Spelt tokens (place.start + offset + s.spelling.length)
        (Stmt.spellings rest) → Next tokens (place.start + offset + s.spelling.length)
          (fun token => token.kind ≠ .elseWord) := by
      intro hspelt token htoken
      cases rest with
      | nil => exact (hnext token (by simpa [Stmt.spellings] using htoken)).2
      | cons next rest =>
        exact ne_elseWord_of_beginsStatement
          (hw.2.1.next (spelt_append.1 hspelt).1 token htoken)
    refine (Rebuilds.manyUntil_cons (fun hback => h s List.mem_cons_self levels place.level
      (place.inside offset) hlevels rfl fun _ => hfirst hback) ?_ s.spelling_ne_nil
      (hrest.of_eq (by simp only [Place.inside]; omega))).mono fun list' hlist => ?_
    · intro hspelt token htoken
      have hbegins := hw.1.next hspelt token htoken
      by_contra hstops
      exact hstop token.kind (by simpa using hstops) hbegins
    · obtain ⟨s', rest', rfl, hbare, hbareAll⟩ := hlist
      rw [Stmt.bareAll, hbare, hbareAll]
      rfl

/-- Statements between curly brackets. -/
theorem rebuilds_block {body : List Stmt} (hw : Stmt.WellShapedAll body)
    (h : ∀ s ∈ body, s.Rebuilt tokens) (offset : Nat)
    (hlevels : maxNesting < levels + place.level) :
    Rebuilds tokens place.level (place.start + offset)
      (block (statementWithin .standard levels))
      (.ofKind .openCurly :: (Stmt.spellings body ++ [.ofKind .closeCurly]))
      (Stmt.placesAll place (offset + 1) body)
      (fun answer => Stmt.bareAll answer.1 = Stmt.bareAll body) := by
  have hstop : ∀ kind, endsBlock kind → ¬ BeginsStatement kind := fun kind hkind =>
    not_beginsStatement_of_endsCase (by cases kind <;> simp_all [endsBlock, endsCase])
  refine .bind_token (.expectBut hends) fun _ _ => ?_
  refine .bind_flat (fun hback => rebuilds_statements place hstop hw h (offset + 1) hlevels
    (next_of_spelt (fun token hfits => ?_) hback)) fun body' hbare => ?_
  · rw [hfits.2]
    exact ⟨rfl, by decide⟩
  exact .bind_token (.expectBut hends) fun _ _ =>
    .bind_spanFrom fun _ => .pure hbare

omit place in
theorem rebuilds_names {depth : Nat} {wanted : String} (name : Token) (rest : List Token) :
    ∀ i, (∀ other ∈ name :: rest, other.kind = .identifier) →
    Next tokens (i + (withCommas ((name :: rest).map fun other => [.kept other])).length)
      (fun token => token.kind = .closeParen) →
    Rebuilds tokens depth i (separated (expectBut .identifier wanted))
      (withCommas ((name :: rest).map fun other => [.kept other])) []
      (fun names => names = name :: rest) := by
  induction rest generalizing name with
  | nil =>
    intro i hw hnext
    have hname : Rebuilds tokens depth i (expectBut .identifier wanted) [.kept name] []
        (fun token => token = name) := .expectBut_kept hends (hw name List.mem_cons_self)
    refine (Rebuilds.separated_last hname (hnext.ne_kind (by decide))).mono fun names hnames => ?_
    obtain ⟨token, rfl, hsame⟩ := hnames
    rw [hsame]
  | cons next rest ih =>
    intro i hw hnext
    have hname : Rebuilds tokens depth i (expectBut .identifier wanted) [.kept name] []
        (fun token => token = name) := .expectBut_kept hends (hw name List.mem_cons_self)
    have hrest : ∀ other ∈ next :: rest, other.kind = .identifier :=
      fun other hother => hw other (List.mem_cons_of_mem _ hother)
    have hnames := ih next (i + 1 + 1) hrest (hnext.of_eq (by
        rw [List.map_cons, withCommas_cons (by simp)]
        simp only [List.length_append, List.length_cons, List.length_nil]
        omega))
    refine (Rebuilds.separated_more hends (fun _ => hname) hnames).mono fun names hall => ?_
    obtain ⟨token, rest', rfl, hsame, rfl⟩ := hall
    rw [hsame]

omit place in
/-- The parameters of a function, if there are any. -/
theorem rebuilds_parameters {depth i : Nat} {parameters : List Token} {wanted : String}
    (hw : ∀ parameter ∈ parameters, parameter.kind = .identifier)
    (hnext : Next tokens (i + (withCommas (parameters.map fun name => [.kept name])).length)
      (fun token => token.kind = .closeParen)) :
    Rebuilds tokens depth i (separatedUntil .closeParen (expectBut .identifier wanted))
      (withCommas (parameters.map fun name => [.kept name])) []
      (fun names => names = parameters) := by
  cases parameters with
  | nil => exact Rebuilds.separatedUntil_none hnext
  | cons name rest =>
    refine Rebuilds.separatedUntil_some (rebuilds_names hends name rest i hw hnext)
      fun hspelt token htoken hclose => ?_
    have hfirst : Spelt tokens i [.kept name] := by
      cases rest with
      | nil => exact hspelt
      | cons next rest => exact (spelt_append.1 hspelt).1
    have hkind : token.kind = .identifier :=
      next_of_spelt (kind_of_kept (hw name List.mem_cons_self)) hfirst token htoken
    rw [hclose] at hkind
    cases hkind

/-- A function from its name on. -/
theorem rebuilds_function {f : Function} (hw : f.WellShaped) (h : ∀ s ∈ f.body, s.Rebuilt tokens)
    (start : Position) (offset : Nat) (hlevels : maxNesting < levels + place.level) :
    Rebuilds tokens place.level (place.start + offset)
      (functionFrom (statementWithin .standard levels) start) f.spelling (f.places place offset)
      (fun f' => f'.bare = f.bare) := by
  obtain ⟨name, parameters, body, span⟩ := f
  obtain ⟨hname, hparameters, hbody⟩ := hw
  rw [Function.spelling, signatureSpelling, List.cons_append, List.cons_append,
    List.append_assoc]
  refine .bind_token (.expectBut_kept hends hname) fun name' hname' => ?_
  refine .bind_token (.expectBut hends) fun _ _ => ?_
  refine Rebuilds.bind_free (fun hback => rebuilds_parameters hends hparameters
    (next_ofKind hback)) fun parameters' hparameters' => ?_
  refine .bind_token (.expectBut hends) fun _ _ => ?_
  have hblock := rebuilds_block hends place hbody h
    (offset + (signatureSpelling name parameters).length) hlevels
  refine .bind_last (hblock.of_eq (by
    simp only [signatureSpelling, List.length_cons, List.length_append, List.length_nil]
    omega)) fun answer hbare => ?_
  refine .bind_spanFrom fun _ => .pure ?_
  rw [Function.bare, Function.bare, hbare, hname', hparameters']

omit hends place in
/-- An arm of a `switch` ends the one before it. -/
theorem next_of_armSpelling {i : Nat} {value : Option Expr} {back : List Sign}
    (h : Spelt tokens i (armSpelling value ++ back)) :
    Next tokens i (fun token => endsCase token.kind ∧ token.kind ≠ .closeCurly) := by
  have hword : ∀ {kind : Kind}, endsCase kind → kind ≠ .closeCurly → ∀ token,
      (Sign.ofKind kind).Fits token → endsCase token.kind ∧ token.kind ≠ .closeCurly := by
    intro kind hcase hclose token hfits
    rw [hfits.2]
    exact ⟨hcase, hclose⟩
  cases value with
  | none => exact next_of_spelt (hword rfl (by decide)) h
  | some e => exact next_of_spelt (hword rfl (by decide)) h

/-- What announces an arm of a `switch`, before its statements. -/
theorem rebuilds_arm {value : Option Expr} (hw : Expr.WellShaped? value) (offset : Nat)
    (hlevels : maxNesting < levels + place.level) {wanted : String} {f : Option Expr → Parse Case}
    {back : List Sign} {more : List Place} {fine : Case → Prop}
    (hf : ∀ value', value'.map Expr.bare = value.map Expr.bare →
      Rebuilds tokens place.level (place.start + offset + (armSpelling value).length) (f value')
        back more fine) :
    Rebuilds tokens place.level (place.start + offset) (do
        let value ← caseValue (expressionWithin .standard levels .lowest)
        let _ ← expectBut .colon wanted
        f value)
      (armSpelling value ++ back) (Expr.places? (place.inside (offset + 1)) value ++ more)
      fine := by
  cases value with
  | none =>
    have hword : Rebuilds tokens place.level (place.start + offset)
        (caseValue (expressionWithin .standard levels .lowest)) [.ofKind .defaultWord] []
        (fun value' => value' = none) := by
      refine .bind_sign fun token hfits => ?_
      rw [hfits.2]
      exact .bind_token (.advance hends) fun _ _ => .pure rfl
    refine .bind_token hword fun value' hvalue => ?_
    exact .bind_token (.expectBut hends) fun _ _ => hf value' (by rw [hvalue])
  | some e =>
    have hvalue : Spelt tokens (place.start + offset + (Sign.ofKind .caseWord :: e.spelling).length)
        (.ofKind .colon :: back) → Rebuilds tokens place.level (place.start + offset)
        (caseValue (expressionWithin .standard levels .lowest)) (.ofKind .caseWord :: e.spelling)
        (e.places (place.inside (offset + 1)))
        (fun value' => value'.map Expr.bare = some e.bare) := by
      intro hcolon
      have hnext : Next tokens (place.start + (offset + 1) + e.spelling.length)
          (fun token => token.kind = .colon) :=
        (next_ofKind hcolon).of_eq (by rw [List.length_cons]; omega)
      refine .bind_sign fun token hfits => ?_
      rw [hfits.2]
      refine .bind_token (.advance hends) fun _ _ => ?_
      refine .bind_last (rebuilds_until hends place hw .colon rfl (offset + 1) hlevels hnext)
        fun e' hbare => .pure ?_
      rw [Option.map_some, hbare]
    rw [armSpelling, List.cons_append, List.append_assoc, ← List.cons_append]
    refine .bind hvalue fun value' hbare => ?_
    refine .bind_token (.expectBut hends) fun _ _ => ?_
    refine (hf value' hbare).of_eq ?_
    simp only [armSpelling, List.length_cons, List.length_append, List.length_nil]
    omega

/-- An arm of a `switch`, up to the next one or the closing bracket. -/
theorem rebuilds_case {value : Option Expr} {body : List Stmt} (span : Span)
    (hvalue : Expr.WellShaped? value) (hbody : Stmt.WellShapedAll body)
    (h : ∀ s ∈ body, s.Rebuilt tokens) (offset : Nat)
    (hlevels : maxNesting < levels + place.level)
    (hnext : Next tokens (place.start + offset + (armSpelling value).length +
      (Stmt.spellings body).length) (fun token => endsCase token.kind)) :
    Rebuilds tokens place.level (place.start + offset)
      (case (expressionWithin .standard levels .lowest) (statementWithin .standard levels))
      (armSpelling value ++ Stmt.spellings body)
      (Expr.places? (place.inside (offset + 1)) value ++
        Stmt.placesAll place (offset + (armSpelling value).length) body)
      (fun arm => Case.bareAll [arm] = Case.bareAll [.mk value body span]) := by
  refine .bind_peek fun _ _ _ => ?_
  refine rebuilds_arm hends place hvalue offset hlevels fun value' hbare => ?_
  have hstatements := rebuilds_statements place (fun _ => not_beginsStatement_of_endsCase) hbody h
    (offset + (armSpelling value).length) hlevels ((hnext.of_eq (by omega)).imp fun token hends' =>
      ⟨hends', ne_elseWord_of_endsCase hends'⟩)
  refine .bind_last (hstatements.of_eq (by omega)) fun body' hbare' =>
    .bind_spanFrom fun _ => .pure ?_
  simp only [Case.bareAll, hbare, hbare']

/-- The arms of a `switch` up to its closing bracket. -/
theorem rebuilds_cases {arms : List Case} (hw : Case.WellShapedAll arms)
    (h : ∀ value body span, .mk value body span ∈ arms → ∀ s ∈ body, s.Rebuilt tokens)
    (offset : Nat) (hlevels : maxNesting < levels + place.level)
    (hnext : Next tokens (place.start + offset + (Case.spellings arms).length)
      (fun token => token.kind = .closeCurly)) :
    Rebuilds tokens place.level (place.start + offset)
      (manyUntil (· = .closeCurly)
        (case (expressionWithin .standard levels .lowest) (statementWithin .standard levels)))
      (Case.spellings arms) (Case.placesAll place offset arms)
      (fun arms' => Case.bareAll arms' = Case.bareAll arms) := by
  induction arms generalizing offset with
  | nil =>
    exact (Rebuilds.manyUntil_nil fun token htoken => decide_eq_true (hnext token htoken)).mono
      fun arms' harms => by rw [harms]
  | cons arm rest ih =>
    obtain ⟨value, body, span⟩ := arm
    obtain ⟨hvalue, hbody, hshapes⟩ := hw
    have hrest := ih hshapes
      (fun value body span hmem => h value body span (List.mem_cons_of_mem _ hmem))
      (offset + (armSpelling value).length + (Stmt.spellings body).length) (hnext.of_eq (by
        simp only [Case.spellings, List.length_append]
        omega))
    have hfollows : Spelt tokens (place.start + offset +
        (armSpelling value ++ Stmt.spellings body).length) (Case.spellings rest) →
        Next tokens (place.start + offset + (armSpelling value).length +
          (Stmt.spellings body).length) (fun token => endsCase token.kind) := by
      rw [List.length_append, ← Nat.add_assoc]
      intro hspelt
      cases rest with
      | nil =>
        refine (hnext.of_eq (by simp [Case.spellings, Nat.add_assoc])).imp fun token hclose => ?_
        rw [hclose]
        rfl
      | cons next rest =>
        obtain ⟨value', body', span'⟩ := next
        exact (next_of_armSpelling hspelt).imp fun token hends' => hends'.1
    rw [Case.spellings, Case.placesAll, ← List.append_assoc, ← List.append_assoc]
    refine (Rebuilds.manyUntil_cons (fun hback => rebuilds_case hends place span hvalue hbody
      (h value body span List.mem_cons_self) offset hlevels (hfollows hback)) ?_
      (by simp [armSpelling_ne_nil]) (hrest.of_eq (by
        simp only [List.length_append]
        omega))).mono fun arms' harms => ?_
    · intro hspelt token htoken
      exact decide_eq_false (next_of_armSpelling hspelt token htoken).2
    · obtain ⟨arm', rest', rfl, hbare, hbareAll⟩ := harms
      obtain ⟨value', body', span'⟩ := arm'
      rw [Case.bareAll, hbareAll]
      simp only [Case.bareAll, List.cons.injEq, and_true] at hbare ⊢
      exact hbare

/-- The methods of a class up to its closing bracket. -/
theorem rebuilds_methods {methods : List Function} (hw : Function.WellShapedAll methods)
    (h : ∀ f ∈ methods, ∀ s ∈ f.body, s.Rebuilt tokens) (offset : Nat)
    (hlevels : maxNesting < levels + place.level)
    (hnext : Next tokens (place.start + offset + (Function.spellings methods).length)
      (fun token => token.kind = .closeCurly)) :
    Rebuilds tokens place.level (place.start + offset)
      (manyUntil endsBlock (method (statementWithin .standard levels)))
      (Function.spellings methods) (Function.placesAll place offset methods)
      (fun methods' => Function.bareAll methods' = Function.bareAll methods) := by
  induction methods generalizing offset with
  | nil =>
    refine (Rebuilds.manyUntil_nil (hnext.imp fun token hclose => ?_)).mono
      fun methods' hmethods => by rw [hmethods]
    rw [hclose]
    rfl
  | cons f rest ih =>
    have hrest := ih hw.2 (fun other hother => h other (List.mem_cons_of_mem _ hother))
      (offset + f.spelling.length) (hnext.of_eq (by
        simp only [Function.spellings, List.length_append]
        omega))
    have hmethod : Rebuilds tokens place.level (place.start + offset)
        (method (statementWithin .standard levels)) f.spelling (f.places place offset)
        (fun f' => f'.bare = f.bare) :=
      .bind_peek fun _ _ _ =>
        rebuilds_function hends place hw.1 (h f List.mem_cons_self) _ offset hlevels
    refine (Rebuilds.manyUntil_cons (fun _ => hmethod) ?_ f.spelling_ne_nil
      (hrest.of_eq (by omega))).mono fun methods' hmethods => ?_
    · intro hspelt token htoken
      obtain ⟨name, parameters, body, span⟩ := f
      have hkind : token.kind = .identifier :=
        next_of_spelt (kind_of_kept hw.1.1) hspelt token htoken
      show endsBlock token.kind = false
      rw [hkind]
      rfl
    · obtain ⟨f', rest', rfl, hbare, hbareAll⟩ := hmethods
      rw [Function.bareAll, hbare, hbareAll]
      rfl

end Parts

variable (hends : Ended tokens)
include hends

theorem Stmt.Rebuilt.block {body : List Stmt} {span : Span}
    (hw : (Stmt.block body span).WellShaped) (h : ∀ s ∈ body, s.Rebuilt tokens) :
    (Stmt.block body span).Rebuilt tokens := by
  refine .of_rule (some .block) (fun _ => rfl) (rule_of_ofKind rfl)
    fun levels place hlevels _ _ => ?_
  refine .bind_last (rebuilds_block hends place hw h 0 hlevels) fun answer hbare => .pure ?_
  simp [hbare]

theorem Stmt.Rebuilt.letDecl {declaration : LetDecl}
    (hw : (Stmt.letDecl declaration).WellShaped) : (Stmt.letDecl declaration).Rebuilt tokens := by
  refine .of_rule (some .letDecl) (fun _ => rfl) (rule_of_ofKind rfl)
    fun levels place hlevels _ _ => ?_
  refine .bind_last (rebuilds_letDecl hends place hw hlevels) fun declaration' hbare => .pure ?_
  simp [hbare]

theorem Stmt.Rebuilt.expression {e : Expr} {span : Span}
    (hw : (Stmt.expression e span).WellShaped) : (Stmt.expression e span).Rebuilt tokens := by
  refine .of_rule none (fun _ => rfl) (fun _ hspelt => ?_) fun levels place hlevels _ _ => ?_
  · exact (Expr.WellShaped.next_append (e := e) hw hspelt).imp fun token =>
      standardStatement_of_operand
  refine .bind_last (rebuilds_evaluated hends place hw hlevels) fun answer hbare => .pure ?_
  simp [hbare]

theorem Stmt.Rebuilt.print {e : Expr} {span : Span} (hw : (Stmt.print e span).WellShaped) :
    (Stmt.print e span).Rebuilt tokens := by
  refine .of_rule (some .print) (fun _ => rfl) (rule_of_ofKind rfl)
    fun levels place hlevels _ _ => ?_
  refine .bind_token (.advance hends) fun _ _ => ?_
  refine .bind_flat (fun hback => rebuilds_until hends place hw .semicolon rfl 1 hlevels
    (next_ofKind hback)) fun e' hbare => ?_
  refine .bind_token (.expect hends) fun _ _ => .bind_spanFrom fun _ => .pure ?_
  simp [hbare]

theorem Stmt.Rebuilt.ifThen {condition : Expr} {thenBody : Stmt} {span : Span}
    (hw : (Stmt.ifElse condition thenBody none span).WellShaped) (h : thenBody.Rebuilt tokens) :
    (Stmt.ifElse condition thenBody none span).Rebuilt tokens := by
  refine .of_rule (some .ifElse) (fun _ => rfl) (rule_of_ofKind rfl)
    fun levels place hlevels _ hopen => ?_
  have hnext := hopen trivial
  refine .bind_token (.advance hends) fun _ _ => ?_
  refine .bind (fun _ => rebuilds_head hends place hw.1 _ 1 hlevels) fun condition' hbare => ?_
  have hbody := h levels place.level (place.inside (1 + (headSpelling condition).length)) hlevels
    rfl fun _ => hnext.of_eq (by
      simp only [Stmt.spelling, Place.inside, List.length_cons, List.length_append]
      omega)
  refine .bind_last (hbody.of_eq (by simp only [Place.inside]; omega)) fun thenBody' hbare' => ?_
  refine .bind_last (.afterKind_none (hnext.of_eq (by
    simp only [Stmt.spelling, List.length_cons, List.length_append]
    omega))) fun elseBody' helse => .bind_spanFrom fun _ => .pure ?_
  rw [helse, Stmt.bare, Stmt.bare, hbare, hbare']

theorem Stmt.Rebuilt.ifElse {condition : Expr} {thenBody elseBody : Stmt} {span : Span}
    (hw : (Stmt.ifElse condition thenBody (some elseBody) span).WellShaped)
    (h : thenBody.Rebuilt tokens) (helse : elseBody.Rebuilt tokens) :
    (Stmt.ifElse condition thenBody (some elseBody) span).Rebuilt tokens := by
  refine .of_rule (some .ifElse) (fun _ => rfl) (rule_of_ofKind rfl)
    fun levels place hlevels _ hopen => ?_
  refine .bind_token (.advance hends) fun _ _ => ?_
  refine .bind (fun _ => rebuilds_head hends place hw.1 _ 1 hlevels) fun condition' hbare => ?_
  have hbody := h levels place.level (place.inside (1 + (headSpelling condition).length)) hlevels
    rfl fun hends' => absurd hends' hw.2.2.1
  refine .bind (fun _ => hbody.of_eq (by simp only [Place.inside]; omega))
    fun thenBody' hbare' => ?_
  have hother := helse levels place.level (place.inside
    (1 + (headSpelling condition).length + thenBody.spelling.length + 1)) hlevels rfl
    fun hends' => (hopen hends').of_eq (by
      simp only [Stmt.spelling, Place.inside, List.length_cons, List.length_append]
      omega)
  refine .bind_last (.afterKind_some hends (hother.of_eq (by simp only [Place.inside]; omega)))
    fun elseBody' helseBody => .bind_spanFrom fun _ => .pure ?_
  obtain ⟨elseBody'', rfl, hbare''⟩ := helseBody
  simp [hbare, hbare', hbare'']

theorem Stmt.Rebuilt.whileLoop {condition : Expr} {body : Stmt} {span : Span}
    (hw : (Stmt.whileLoop condition body span).WellShaped) (h : body.Rebuilt tokens) :
    (Stmt.whileLoop condition body span).Rebuilt tokens := by
  refine .of_rule (some .whileLoop) (fun _ => rfl) (rule_of_ofKind rfl)
    fun levels place hlevels _ hopen => ?_
  refine .bind_token (.advance hends) fun _ _ => ?_
  refine .bind (fun _ => rebuilds_head hends place hw.1 _ 1 hlevels) fun condition' hbare => ?_
  have hbody := h levels place.level (place.inside (1 + (headSpelling condition).length)) hlevels
    rfl fun hends' => (hopen hends').of_eq (by
      simp only [Stmt.spelling, Place.inside, List.length_cons, List.length_append]
      omega)
  refine .bind_last (hbody.of_eq (by simp only [Place.inside]; omega)) fun body' hbare' =>
    .bind_spanFrom fun _ => .pure ?_
  simp [hbare, hbare']

theorem Stmt.Rebuilt.doWhile {condition : Expr} {body : Stmt} {span : Span}
    (hw : (Stmt.doWhile body condition span).WellShaped) (h : body.Rebuilt tokens) :
    (Stmt.doWhile body condition span).Rebuilt tokens := by
  refine .of_rule (some .doWhile) (fun _ => rfl) (rule_of_ofKind rfl)
    fun levels place hlevels _ _ => ?_
  refine .bind_token (.advance hends) fun _ _ => ?_
  refine .bind (fun hback => h levels place.level (place.inside 1) hlevels rfl fun _ =>
    next_of_spelt (fun token hfits => ?_) hback) fun body' hbare => ?_
  · rw [hfits.2]
    decide
  refine .bind_token (.expectBut hends) fun _ _ => ?_
  have hhead := rebuilds_head hends place hw.2 "while" (1 + body.spelling.length + 1) hlevels
  refine .bind_flat (fun _ => hhead.of_eq (by omega)) fun condition' hbare' => ?_
  refine .bind_token (.expect hends) fun _ _ => .bind_spanFrom fun _ => .pure ?_
  simp [hbare, hbare']

theorem Stmt.Rebuilt.breakLoop {keyword : Token} (hw : (Stmt.breakLoop keyword).WellShaped) :
    (Stmt.breakLoop keyword).Rebuilt tokens := by
  refine .of_rule (some .breakLoop) (fun _ => rfl) (rule_of_kept hw rfl)
    fun levels place _ _ _ => ?_
  refine .bind_token (.advance_kept hends) fun token hsame => ?_
  refine .bind_token (.expect hends) fun _ _ => .pure ?_
  rw [hsame]

theorem Stmt.Rebuilt.continueLoop {keyword : Token}
    (hw : (Stmt.continueLoop keyword).WellShaped) : (Stmt.continueLoop keyword).Rebuilt tokens := by
  refine .of_rule (some .continueLoop) (fun _ => rfl) (rule_of_kept hw rfl)
    fun levels place _ _ _ => ?_
  refine .bind_token (.advance_kept hends) fun token hsame => ?_
  refine .bind_token (.expect hends) fun _ _ => .pure ?_
  rw [hsame]

theorem Stmt.Rebuilt.returnValue {keyword : Token} {value : Option Expr} {span : Span}
    (hw : (Stmt.returnValue keyword value span).WellShaped) :
    (Stmt.returnValue keyword value span).Rebuilt tokens := by
  refine .of_rule (some .returnValue) (fun _ => rfl) (rule_of_kept hw.1 rfl)
    fun levels place hlevels _ _ => ?_
  refine .bind_token (.advance_kept hends) fun token hsame => ?_
  refine .bind_flat (fun hback => rebuilds_optional hends place hw.2 rfl rfl 1 hlevels
    (next_ofKind hback)) fun value' hbare => ?_
  refine .bind_token (.expect hends) fun _ _ => .bind_spanFrom fun _ => .pure ?_
  simp [hbare, hsame]

theorem Stmt.Rebuilt.forLoop {start : Option ForStart} {condition increment : Option Expr}
    {body : Stmt} {span : Span} (hw : (Stmt.forLoop start condition increment body span).WellShaped)
    (h : body.Rebuilt tokens) :
    (Stmt.forLoop start condition increment body span).Rebuilt tokens := by
  obtain ⟨hstart, hcondition, hincrement, -⟩ := hw
  refine .of_rule (some .forLoop) (fun _ => rfl) (rule_of_ofKind rfl)
    fun levels place hlevels hlevel hopen => ?_
  refine .bind_token (.advance hends) fun _ _ => ?_
  refine .bind_token (.expectBut hends) fun _ _ => ?_
  refine .bind (fun _ => rebuilds_forStart hends (place.sharing 2) hstart hlevels hlevel)
    fun start' hfirst => ?_
  refine .bind (fun hback => (rebuilds_optional hends place hcondition rfl rfl
    (2 + (ForStart.spelling start).length) hlevels
      ((next_ofKind hback).of_eq (by omega))).of_eq (by omega)) fun condition' htest => ?_
  refine .bind_token (.expectBut hends) fun _ _ => ?_
  refine .bind (fun hback => (rebuilds_optional hends place hincrement rfl rfl
    (2 + (ForStart.spelling start).length + (Expr.spelling? condition).length + 1) hlevels
      ((next_ofKind hback).of_eq (by omega))).of_eq (by omega))
    fun increment' hstep => ?_
  refine .bind_token (.expectBut hends) fun _ _ => ?_
  have hbody := h levels place.level (place.inside (2 + (ForStart.spelling start).length +
    (Expr.spelling? condition).length + 1 + (Expr.spelling? increment).length + 1)) hlevels
    rfl fun hends' => (hopen hends').of_eq (by
      simp only [Stmt.spelling, Place.inside, List.length_cons, List.length_append]
      omega)
  refine .bind_last (hbody.of_eq (by simp only [Place.inside]; omega)) fun body' hbare =>
    .bind_spanFrom fun _ => .pure ?_
  simp [hfirst, htest, hstep, hbare]

theorem Stmt.Rebuilt.switch {subject : Expr} {arms : List Case} {span : Span}
    (hw : (Stmt.switch subject arms span).WellShaped)
    (h : ∀ value body span, .mk value body span ∈ arms → ∀ s ∈ body, s.Rebuilt tokens) :
    (Stmt.switch subject arms span).Rebuilt tokens := by
  refine .of_rule (some .switch) (fun _ => rfl) (rule_of_ofKind rfl)
    fun levels place hlevels _ _ => ?_
  refine .bind_token (.advance hends) fun _ _ => ?_
  refine .bind (fun _ => rebuilds_head hends place hw.1 _ 1 hlevels) fun subject' hbare => ?_
  refine .bind_token (.expectBut hends) fun _ _ => ?_
  refine .bind_flat (fun hback => (rebuilds_cases hends place hw.2 h
    (1 + (headSpelling subject).length + 1) hlevels
      ((next_ofKind hback).of_eq (by omega))).of_eq (by omega)) fun arms' hbare' => ?_
  refine .bind_token (.expect hends) fun _ _ => .bind_spanFrom fun _ => .pure ?_
  simp [hbare, hbare']

theorem Stmt.Rebuilt.function {declaration : Function}
    (hw : (Stmt.function declaration).WellShaped) (h : ∀ s ∈ declaration.body, s.Rebuilt tokens) :
    (Stmt.function declaration).Rebuilt tokens := by
  refine .of_rule (some .function) (fun _ => rfl) (rule_of_ofKind rfl)
    fun levels place hlevels _ _ => ?_
  refine .bind_token (.advance hends) fun _ _ => ?_
  refine .bind_last (rebuilds_function hends place hw h _ 1 hlevels)
    fun declaration' hbare => .pure ?_
  simp [hbare]

/-- The superclass that a class may name, before its opening bracket. -/
theorem rebuilds_superclass {superclass : Option Reference} {depth i : Nat}
    (hw : Reference.WellShaped? superclass)
    (hnext : Next tokens (i + (superclassSpelling superclass).length)
      (fun token => token.kind = .openCurly)) :
    Rebuilds tokens depth i (afterKind .less Parse.superclass) (superclassSpelling superclass) []
      (fun parent => parent.map Reference.bare = superclass.map Reference.bare) := by
  cases superclass with
  | none =>
    exact (Rebuilds.afterKind_none (hnext.ne_kind (by decide))).mono
      fun parent hnone => by rw [hnone]
  | some parent =>
    have hparent : Rebuilds tokens depth (i + 1) Parse.superclass [.kept parent.name] []
        (fun parent' => parent'.bare = parent.bare) := by
      refine .bind_token (.expectBut_kept hends hw) fun token hsame =>
        .bind_freshId fun _ => .pure ?_
      rw [hsame]
      rfl
    refine (Rebuilds.afterKind_some hends hparent).mono fun parent' hsome => ?_
    obtain ⟨parent'', rfl, hbare⟩ := hsome
    rw [Option.map_some, Option.map_some, hbare]

theorem Stmt.Rebuilt.classDecl {name : Token} {superclass : Option Reference}
    {methods : List Function} {span : Span}
    (hw : (Stmt.classDecl name superclass methods span).WellShaped)
    (h : ∀ f ∈ methods, ∀ s ∈ f.body, s.Rebuilt tokens) :
    (Stmt.classDecl name superclass methods span).Rebuilt tokens := by
  obtain ⟨hname, hparent, hmethods⟩ := hw
  refine .of_rule (some .classDecl) (fun _ => rfl) (rule_of_ofKind rfl)
    fun levels place hlevels _ _ => ?_
  refine .bind_token (.advance hends) fun _ _ => ?_
  refine .bind_token (.expectBut_kept hends hname) fun token hsame => ?_
  refine .bind_free (fun hback => rebuilds_superclass hends hparent
    (next_ofKind hback)) fun parent hbare => ?_
  refine .bind_token (.expectBut hends) fun _ _ => ?_
  refine .bind_flat (fun hback => (rebuilds_methods hends place hmethods h
    (2 + (superclassSpelling superclass).length + 1) hlevels
      ((next_ofKind hback).of_eq (by omega))).of_eq (by omega)) fun methods' hbare' => ?_
  refine .bind_token (.expectBut hends) fun _ _ => .bind_spanFrom fun _ => .pure ?_
  simp [hbare, hbare', hsame]

end Statements

mutual

/-- Every well-shaped statement is rebuilt. -/
theorem Stmt.WellShaped.rebuilt {tokens : List Token} (hends : Ended tokens) :
    ∀ {s : Stmt}, s.WellShaped → s.Rebuilt tokens
  | .block _ _, hw => .block hends hw (Stmt.rebuilt_of_mem hends hw)
  | .letDecl _, hw => .letDecl hends hw
  | .expression _ _, hw => .expression hends hw
  | .print _ _, hw => .print hends hw
  | .ifElse _ _ none _, hw => .ifThen hends hw (hw.2.rebuilt hends)
  | .ifElse _ _ (some _) _, hw =>
    .ifElse hends hw (hw.2.1.rebuilt hends) (hw.2.2.2.rebuilt hends)
  | .whileLoop _ _ _, hw => .whileLoop hends hw (hw.2.rebuilt hends)
  | .doWhile _ _ _, hw => .doWhile hends hw (hw.1.rebuilt hends)
  | .forLoop _ _ _ _ _, hw => .forLoop hends hw (hw.2.2.2.rebuilt hends)
  | .switch _ _ _, hw => .switch hends hw (Case.rebuilt_of_mem hends hw.2)
  | .breakLoop _, hw => .breakLoop hends hw
  | .continueLoop _, hw => .continueLoop hends hw
  | .returnValue _ _ _, hw => .returnValue hends hw
  | .function _, hw => .function hends hw (Function.rebuilt_of_mem hends hw)
  | .classDecl _ _ _ _, hw =>
    .classDecl hends hw (Function.rebuilt_of_mem_of_mem hends hw.2.2)

theorem Stmt.rebuilt_of_mem {tokens : List Token} (hends : Ended tokens) :
    ∀ {list : List Stmt}, Stmt.WellShapedAll list → ∀ s ∈ list, s.Rebuilt tokens
  | [], _, _, hs => nomatch hs
  | first :: rest, hw, s, hs => by
    have hfirst := hw.1.rebuilt hends
    rcases List.mem_cons.1 hs with heq | hs
    · rw [heq]
      exact hfirst
    · exact Stmt.rebuilt_of_mem hends hw.2 s hs

theorem Case.rebuilt_of_mem {tokens : List Token} (hends : Ended tokens) :
    ∀ {arms : List Case}, Case.WellShapedAll arms →
      ∀ value body span, .mk value body span ∈ arms → ∀ s ∈ body, s.Rebuilt tokens
  | [], _, _, _, _, harm => nomatch harm
  | .mk _ body _ :: rest, hw, value', body', span', harm => by
    have hbody := Stmt.rebuilt_of_mem hends hw.2.1
    rcases List.mem_cons.1 harm with heq | harm
    · rw [(Case.mk.inj heq).2.1]
      exact hbody
    · exact Case.rebuilt_of_mem hends hw.2.2 value' body' span' harm

theorem Function.rebuilt_of_mem {tokens : List Token} (hends : Ended tokens) :
    ∀ {f : Function}, f.WellShaped → ∀ s ∈ f.body, s.Rebuilt tokens
  | .mk _ _ _ _, hw => Stmt.rebuilt_of_mem hends hw.2.2

theorem Function.rebuilt_of_mem_of_mem {tokens : List Token} (hends : Ended tokens) :
    ∀ {methods : List Function}, Function.WellShapedAll methods →
      ∀ f ∈ methods, ∀ s ∈ f.body, s.Rebuilt tokens
  | [], _, _, hf => nomatch hf
  | first :: rest, hw, f, hf => by
    have hfirst := Function.rebuilt_of_mem hends hw.1
    rcases List.mem_cons.1 hf with heq | hf
    · rw [heq]
      exact hfirst
    · exact Function.rebuilt_of_mem_of_mem hends hw.2 f hf

end

end LexicalScoping
