import LexicalScoping.Proofs.Grammar.Sound
import LexicalScoping.Proofs.Scope.Listing

/-!
# The numbers of references

The parser gives out numbers in the order in which a program mentions names. An assignment gets a
new number behind its value, and the number of the variable that it was read as goes unused. So the
numbers of a program increase from mention to mention, and as many have been given out as there are
mentions and, once more, assignments. The uses in the outline of a program are its mentions.

Each number is for a token, so fewer tokens than there are numbers in the counter do not use it up,
and there the number of a reference is what the counter showed.
-/
namespace LexicalScoping

/-- The numbers increase, from the lower bound on and below the upper one. -/
def Ascends : Nat → List Nat → Nat → Prop
  | low, [], high => low ≤ high
  | low, id :: rest, high => low ≤ id ∧ Ascends (id + 1) rest high

namespace Ascends

variable {low middle high : Nat} {front back : List Nat}

theorem append (hf : Ascends low front middle) (hb : Ascends middle back high) :
    Ascends low (front ++ back) high := by
  induction front generalizing low with
  | nil =>
    cases back with
    | nil => exact Nat.le_trans hf hb
    | cons id back => exact ⟨Nat.le_trans hf hb.1, hb.2⟩
  | cons id front ih => exact ⟨hf.1, ih hf.2⟩

theorem le (h : Ascends low front high) : low ≤ high := by
  induction front generalizing low with
  | nil => exact h
  | cons id front ih =>
    have hrest := ih h.2
    have hid := h.1
    omega

theorem le_of_mem (h : Ascends low front high) : ∀ id ∈ front, low ≤ id ∧ id < high := by
  induction front generalizing low with
  | nil => simp
  | cons id front ih =>
    intro other hother
    rcases List.mem_cons.1 hother with rfl | hother
    · have hrest := h.2.le
      exact ⟨h.1, by omega⟩
    · have hrest := ih h.2 other hother
      have hid := h.1
      omega

/-- Numbers that increase from one to the next increase throughout. -/
theorem pairwise (h : Ascends low front high) : front.Pairwise (· < ·) := by
  induction front generalizing low with
  | nil => exact .nil
  | cons id front ih =>
    refine .cons (fun other hother => ?_) (ih h.2)
    have hrest := h.2.le_of_mem other hother
    omega

end Ascends

/-- Between the two states the parser gives the mentions their numbers, in order. One more number is
given up for each assignment. No more numbers are given out than tokens are read. -/
structure Numbers (s : ParseState) (list : List Mention) (s' : ParseState) : Prop where
  ascends : Ascends s.given (list.map Mention.id) s'.given
  count : s'.given = s.given + list.length + list.countP Mention.isAssignment
  spent : s'.given + s'.after.length ≤ s.given + s.after.length

namespace Numbers

variable {s s₁ s₂ : ParseState} {front back : List Mention}

theorem refl (s : ParseState) : Numbers s [] s := ⟨Nat.le_refl s.given, rfl, Nat.le_refl _⟩

theorem append (hf : Numbers s front s₁) (hb : Numbers s₁ back s₂) :
    Numbers s (front ++ back) s₂ where
  ascends := by
    rw [List.map_append]
    exact hf.ascends.append hb.ascends
  count := by
    have hfront := hf.count
    have hback := hb.count
    rw [List.length_append, List.countP_append]
    omega
  spent := Nat.le_trans hb.spent hf.spent

/-- A token that is read gives out no number. -/
theorem takes {kind : Kind} {token : Token} (h : Numbers s front s₁) (ht : Takes kind s₁ token s₂) :
    Numbers s front s₂ := by
  have hsame := ht.given_eq
  have hlength := ht.length_after
  have hspent := h.spent
  exact ⟨hsame ▸ h.ascends, hsame ▸ h.count, by omega⟩

/-- A mention that is no assignment takes a number for its token. -/
theorem fresh {kind : Kind} {token : Token} {m : Mention} (ht : Takes kind s token s₁)
    (hid : m.id = s₁.given) (hkind : m.isAssignment = false) : Numbers s [m] s₁.numbered := by
  have hsame := ht.given_eq
  have hlength := ht.length_after
  constructor
  · simp [Ascends, hid, ParseState.numbered, hsame]
  · simp [hkind, ParseState.numbered, hsame]
  · simp only [ParseState.numbered]
    omega

/-- The variable that an assignment was read as gives up its number for a new one behind the
value, which the sign of the assignment stands for. -/
theorem assign {kind : Kind} {token : Token} {target : Reference} {s₃ : ParseState}
    (ht : Numbers s [.reads target] s₁) (hs : Takes kind s₁ token s₂) (hv : Numbers s₂ back s₃) :
    Numbers s (back ++ [.assigns ⟨s₃.given, target.name⟩]) s₃.numbered := by
  have hlength := hs.length_after
  have htarget := ht.count
  have hvalue := hv.count
  have htargetSpent := ht.spent
  have hvalueSpent := hv.spent
  rw [hs.given_eq] at hvalue hvalueSpent
  constructor
  · have hgap : Ascends s.given [] s₂.given := hs.given_eq ▸ ht.ascends.le
    have hnew : Ascends s₃.given [s₃.given] s₃.numbered.given := ⟨Nat.le_refl _, Nat.le_refl _⟩
    rw [List.map_append]
    exact (hgap.append hv.ascends).append hnew
  · simp only [List.length_append, List.countP_append, List.length_singleton, ParseState.numbered,
      List.countP_singleton, Mention.isAssignment, if_true] at *
    simp only [Bool.false_eq_true, if_false] at htarget
    omega
  · simp only [ParseState.numbered]
    omega

end Numbers

namespace Takes

variable {kind : Kind} {s s₁ s₂ : ParseState} {token : Token} {list : List Mention}

theorem nothing (h : Takes kind s token s₁) : Numbers s [] s₁ := (Numbers.refl s).takes h

theorem numbers (h : Takes kind s token s₁) (hn : Numbers s₁ list s₂) : Numbers s list s₂ :=
  h.nothing.append hn

end Takes

mutual

theorem ReadsExpr.numbers {floor : Power} {s s' : ParseState} {e : Expr} :
    ReadsExpr floor s e s' → Numbers s e.mentions s'
  | .nested _ operand operators =>
    have h := operators.numbers (operand.numbers (s := s.opened))
    ⟨h.ascends, h.count, h.spent⟩

theorem ReadsOperand.numbers {s s' : ParseState} {e : Expr} :
    ReadsOperand s e s' → Numbers s e.mentions s'
  | .literal here _ _ => here.nothing
  | .read name => .fresh name rfl rfl
  | .selfRef keyword => .fresh keyword rfl rfl
  | .superMethod keyword dot name => keyword.numbers (dot.numbers (.fresh name rfl rfl))
  | .unary operator _ holds => operator.numbers holds.numbers
  | .grouping opens holds closes => opens.numbers (holds.numbers.takes closes)

/-- What was read before the operators has its numbers already. -/
theorem ReadsOperators.numbers {floor : Power} {left whole : Expr} {s₀ s s' : ParseState} :
    ReadsOperators floor left s whole s' → Numbers s₀ left.mentions s →
      Numbers s₀ whole.mentions s'
  | .stop _, h => h
  | .step _ one others, h => others.numbers (one.numbers h)

theorem ReadsOperator.numbers {power : Power} {left whole : Expr} {s₀ s s' : ParseState} :
    ReadsOperator power left s whole s' → Numbers s₀ left.mentions s →
      Numbers s₀ whole.mentions s'
  | .assign operator holds, h => h.assign operator holds.numbers
  | .set operator holds, h => (h.takes operator).append holds.numbers
  | .conditional asks holds divides otherwise, h =>
    (h.takes asks).append ((holds.numbers.takes divides).append otherwise.numbers)
  | .binary operator _ holds, h => (h.takes operator).append holds.numbers
  | .call opens holds closes, h => (h.takes opens).append (holds.numbers.takes closes)
  | .member dot property, h => (h.takes dot).takes property

theorem ReadsArguments.numbers {s s' : ParseState} {arguments : List Expr} :
    ReadsArguments s arguments s' → Numbers s (Expr.mentionsAll arguments) s'
  | .none _ => .refl _
  | .some _ items => items.numbers

theorem ReadsItems.numbers {s s' : ParseState} {arguments : List Expr} :
    ReadsItems s arguments s' → Numbers s (Expr.mentionsAll arguments) s'
  | .last item _ => item.numbers.append (.refl _)
  | .more item divides items => (item.numbers.takes divides).append items.numbers

end

variable {s s' : ParseState}

/-- Between the two states the parser gives the mentions of the pieces their numbers, in order. -/
def NumbersIn (s : ParseState) (pieces : List Piece) (s' : ParseState) : Prop :=
  Numbers s (Piece.allMentionsIn pieces) s'

namespace NumbersIn

variable {s₁ s₂ : ParseState} {front back : List Piece}

theorem append (hf : NumbersIn s front s₁) (hb : NumbersIn s₁ back s₂) :
    NumbersIn s (front ++ back) s₂ := by
  unfold NumbersIn
  rw [Piece.allMentionsIn_append]
  exact Numbers.append hf hb

theorem takes {kind : Kind} {token : Token} (h : NumbersIn s front s₁)
    (ht : Takes kind s₁ token s₂) : NumbersIn s front s₂ := Numbers.takes h ht

theorem within (construct : Construct) (h : NumbersIn s front s') :
    NumbersIn s [.within construct front] s' := Numbers.append h (.refl s')

theorem provides (name : String) (h : NumbersIn s front s') :
    NumbersIn s (.provides name :: front) s' := h

/-- A name is declared while its initial value is read. -/
theorem declares (name : Token) {list : List Mention} (h : Numbers s list s') :
    NumbersIn s [.declares name list] s' := h.append (.refl s')

theorem mentions {list : List Mention} (h : Numbers s list s') :
    NumbersIn s [.mentions list] s' := h.append (.refl s')

/-- The value of a `return` is read if there is one. -/
theorem returns (keyword : Token) {value : Option Expr} (h : Numbers s (Expr.mentions? value) s') :
    NumbersIn s [.returns keyword (value.map Expr.mentions)] s' := by
  cases value with
  | none => exact h
  | some e => exact h.append (.refl s')

/-- A function is declared before what is inside it. -/
theorem function (name : Token) (h : NumbersIn s front s') :
    NumbersIn s [.declares name [], .within .function front] s' := h.within .function

/-- Parameters are no mentions. -/
theorem parameters (names : List Token) (h : NumbersIn s front s') :
    NumbersIn s (names.map (fun name => .declares name []) ++ front) s' := by
  unfold NumbersIn
  rw [Piece.allMentionsIn_append, Piece.allMentionsIn_parameters]
  exact h

end NumbersIn

theorem Takes.numbersIn {kind : Kind} {s s₁ s₂ : ParseState} {token : Token}
    {pieces : List Piece} (h : Takes kind s token s₁) (hn : NumbersIn s₁ pieces s₂) :
    NumbersIn s pieces s₂ := h.numbers hn

theorem ReadsAfter.numbers {kind : Kind} {value : Option Expr}
    (h : ReadsAfter kind (ReadsExpr .lowest) s value s') :
    Numbers s (Expr.mentions? value) s' := by
  cases h with
  | absent _ => exact .refl _
  | present mark follows => exact mark.numbers follows.numbers

theorem ReadsUnless.numbers {kind : Kind} {value : Option Expr}
    (h : ReadsUnless kind (ReadsExpr .lowest) s value s') :
    Numbers s (Expr.mentions? value) s' := by
  cases h with
  | absent _ => exact .refl _
  | present _ stands => exact stands.numbers

theorem ReadsEvaluated.numbers {answer : Expr × Span} (h : ReadsEvaluated s answer s') :
    Numbers s answer.1.mentions s' := by
  cases h with
  | intro holds ends => exact holds.numbers.takes ends

theorem ReadsHead.numbers {e : Expr} (h : ReadsHead s e s') : Numbers s e.mentions s' := by
  cases h with
  | intro opens holds closes => exact opens.numbers (holds.numbers.takes closes)

theorem ReadsLet.numbersIn {declaration : LetDecl} (h : ReadsLet s declaration s') :
    NumbersIn s [declaration.piece] s' := by
  cases h with
  | intro keyword declares initial ends =>
    exact keyword.numbersIn (declares.numbersIn (.declares _ (initial.numbers.takes ends)))

theorem ReadsStart.numbersIn {start : Option ForStart} (h : ReadsStart s start s') :
    NumbersIn s (ForStart.pieces start) s' := by
  cases h with
  | none ends => exact ends.nothing
  | declare declares => exact declares.numbersIn
  | evaluate _ evaluates => exact .mentions evaluates.numbers

theorem ReadsArm.numbers {value : Option Expr} (h : ReadsArm s value s') :
    Numbers s (Expr.mentions? value) s' := by
  cases h with
  | default keyword ends => exact keyword.nothing.takes ends
  | value keyword holds ends => exact keyword.numbers (holds.numbers.takes ends)

theorem ReadsNames.numbers {names : List Token} (h : ReadsNames s names s') :
    Numbers s [] s' := by
  induction h with
  | last item _ => exact item.nothing
  | more item divides items ih => exact item.numbers (divides.numbers ih)

theorem ReadsParameters.numbers {names : List Token} (h : ReadsParameters s names s') :
    Numbers s [] s' := by
  cases h with
  | none _ => exact .refl _
  | some _ items => exact items.numbers

theorem ReadsAfter.numbers_superclass {parent : Option Reference}
    (h : ReadsAfter .less ReadsSuperclass s parent s') :
    Numbers s (superclassMentions parent) s' := by
  cases h with
  | absent _ => exact .refl _
  | present mark follows =>
    obtain ⟨name⟩ := follows
    exact mark.numbers (.fresh name rfl rfl)

theorem NumbersIn.classPieces {s₁ : ParseState} {name : Token} {superclass : Option Reference}
    {methods : List Piece} (hs : Numbers s (superclassMentions superclass) s₁)
    (hm : NumbersIn s₁ methods s') : NumbersIn s (classPieces name superclass methods) s' := by
  cases superclass with
  | none => exact hs.append ((hm.provides _).within _)
  | some parent => exact hs.append ((((hm.provides _).within _).provides _).within _)

mutual

theorem ReadsStmt.numbersIn {s s' : ParseState} {stmt : Stmt} :
    ReadsStmt s stmt s' → NumbersIn s stmt.pieces s'
  | .nested _ form =>
    have h := form.numbersIn (s := s.opened)
    ⟨h.ascends, h.count, h.spent⟩

theorem ReadsForm.numbersIn {s s' : ParseState} {stmt : Stmt} :
    ReadsForm s stmt s' → NumbersIn s stmt.pieces s'
  | .block holds => holds.numbersIn.within _
  | .letDecl declares => declares.numbersIn
  | .expression _ evaluates => .mentions evaluates.numbers
  | .print keyword holds ends => keyword.numbersIn (.mentions (holds.numbers.takes ends))
  | .ifThen keyword head body _ =>
    keyword.numbersIn ((NumbersIn.mentions head.numbers).append body.numbersIn)
  | .ifElse keyword head body divides other =>
    keyword.numbersIn ((NumbersIn.mentions head.numbers).append
      ((body.numbersIn.takes divides).append other.numbersIn))
  | .whileLoop keyword head holds =>
    keyword.numbersIn ((NumbersIn.mentions head.numbers).append (holds.numbersIn.within _))
  | .doWhile keyword holds divides head ends =>
    keyword.numbersIn (((holds.numbersIn.within _).takes divides).append
      (.mentions (head.numbers.takes ends)))
  | .forLoop keyword opens first test divides step closes holds =>
    keyword.numbersIn (opens.numbersIn (first.numbersIn.append
      ((NumbersIn.mentions (test.numbers.takes divides)).append
        ((NumbersIn.mentions (step.numbers.takes closes)).append (holds.numbersIn.within _)))))
  | .switch keyword head opens holds closes =>
    keyword.numbersIn ((NumbersIn.mentions (head.numbers.takes opens)).append
      ((holds.numbersIn.takes closes).within _))
  | .breakLoop keyword ends => keyword.nothing.takes ends
  | .continueLoop keyword ends => keyword.nothing.takes ends
  | .returnValue keyword result ends =>
    keyword.numbersIn (.returns _ (result.numbers.takes ends))
  | .function keyword declares => keyword.numbersIn (declares.numbersIn.function _)
  | .classDecl keyword declares inherits opens holds closes =>
    keyword.numbersIn (declares.numbersIn
      (.classPieces (inherits.numbers_superclass.takes opens) (holds.numbersIn.takes closes)))

theorem ReadsBlock.numbersIn {s s' : ParseState} {body : List Stmt} {span : Span} :
    ReadsBlock s body span s' → NumbersIn s (Stmt.piecesAll body) s'
  | .intro opens holds closes => opens.numbersIn (holds.numbersIn.takes closes)

theorem ReadsStmts.numbersIn {stop : Kind → Bool} {s s' : ParseState} {list : List Stmt} :
    ReadsStmts stop s list s' → NumbersIn s (Stmt.piecesAll list) s'
  | .nil _ => .refl _
  | .cons _ first others => first.numbersIn.append others.numbersIn

theorem ReadsCases.numbersIn {s s' : ParseState} {arms : List Case} :
    ReadsCases s arms s' → NumbersIn s (Case.pieces arms) s'
  | .nil _ => .refl _
  | .cons _ arm holds others =>
    (NumbersIn.mentions arm.numbers).append
      ((holds.numbersIn.within _).append others.numbersIn)

theorem ReadsFunction.numbersIn {start : Position} {s s' : ParseState} {declaration : Function} :
    ReadsFunction start s declaration s' → NumbersIn s declaration.pieces s'
  | .intro declares opens names closes holds =>
    declares.numbersIn (opens.numbersIn ((names.numbers.takes closes).append
      (holds.numbersIn.parameters _)))

theorem ReadsMethods.numbersIn {s s' : ParseState} {methods : List Function} :
    ReadsMethods s methods s' → NumbersIn s (Function.methodPieces methods) s'
  | .nil _ => .refl _
  | .cons _ first others => (first.numbersIn.within _).append others.numbersIn

end

namespace Program

variable {tokens : List Token} {program : Program}

/-- The numbers of a program increase from mention to mention, and all have been given out. -/
theorem numbers_of_parse (h : parse tokens = .ok program) :
    Ascends 0 ((Piece.allMentionsIn (Stmt.piecesAll program.statements)).map Mention.id)
        program.idCount ∧
      program.idCount = (Piece.allMentionsIn (Stmt.piecesAll program.statements)).length +
        (Piece.allMentionsIn (Stmt.piecesAll program.statements)).countP Mention.isAssignment := by
  obtain ⟨s, hcount, hreads⟩ := readsStmts_of_parse h
  obtain ⟨hascends, hspent, -⟩ := hreads.numbersIn
  rw [ParseState.given_ofTokens, hcount] at hascends hspent
  exact ⟨hascends, by rw [hspent, Nat.zero_add]⟩

/-- A program has no more numbers than tokens. -/
theorem idCount_le_length (h : parse tokens = .ok program) : program.idCount ≤ tokens.length := by
  obtain ⟨s, hcount, hreads⟩ := readsStmts_of_parse h
  have hspent := hreads.numbersIn.spent
  have hlength := ParseState.length_after_ofTokens_le tokens
  rw [ParseState.given_ofTokens, hcount] at hspent
  omega

/-- With fewer than 2 ^ 32 tokens the counter does not go round: it ends at the count of the
numbers, and each number is one that the counter can hold. -/
theorem counter_of_parse (h : parse tokens = .ok program) (hlength : tokens.length < UInt32.size) :
    (run tokens).2.counter.toNat = program.idCount ∧
      ∀ m ∈ Piece.allMentionsIn (Stmt.piecesAll program.statements), m.id < UInt32.size := by
  have hcount := Nat.lt_of_le_of_lt (idCount_le_length h) hlength
  refine ⟨?_, fun m hm => ?_⟩
  · unfold parse at h
    split at h
    · next statements s hrun =>
      cases h
      rw [hrun]
      exact ParseState.counter_toNat hcount
    · cases h
  · have hbelow := (numbers_of_parse h).1.le_of_mem m.id (List.mem_map_of_mem hm)
    exact Nat.lt_trans hbelow.2 hcount

/-- The numbers of a program increase along its outline, and all have been given out. -/
theorem ascends_of_parse (h : parse tokens = .ok program) :
    Ascends 0 ((Outline.allUsesIn program.outline).map Use.id) program.idCount := by
  have hlists : Outline.Lists program.outline (Stmt.piecesAll program.statements) :=
    Outline.Lists.statements false false program.statements
  rw [hlists]
  exact (numbers_of_parse h).1

end Program
end LexicalScoping
