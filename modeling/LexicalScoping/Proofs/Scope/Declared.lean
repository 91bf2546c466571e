import LexicalScoping.Proofs.Grammar.Spelling
import LexicalScoping.Proofs.Scope.Gains

/-!
# What a statement declares in the scope around it

A statement that stands in a scope declares names there: its own if it is a declaration, and those
of its bodies without brackets and of the first clause of a `for`. `gains_statement` says that these
names are all that it leaves behind in the open scopes, in the innermost of them, and that names
which can be read before it can be read after it. An expression leaves nothing behind.
-/
namespace LexicalScoping

/-- The name that the first clause of a `for` declares. -/
def ForStart.declared : Option ForStart → List String
  | some (.declare declaration) => [declaration.name.text]
  | some (.evaluate _ _) => []
  | none => []

/-- The names that a statement declares in the scope that it stands in. Blocks, the arms of a
`switch`, functions and classes keep to themselves what is declared inside them. -/
def Stmt.declared : Stmt → List String
  | .letDecl declaration => [declaration.name.text]
  | .function declaration => [declaration.name.text]
  | .classDecl name _ _ _ => [name.text]
  | .ifElse _ thenBody none _ => thenBody.declared
  | .ifElse _ thenBody (some elseBody) _ => thenBody.declared ++ elseBody.declared
  | .whileLoop _ body _ => body.declared
  | .doWhile body _ _ => body.declared
  | .forLoop start _ _ body _ => ForStart.declared start ++ body.declared
  | .block _ _ => []
  | .expression _ _ => []
  | .print _ _ => []
  | .switch _ _ _ => []
  | .breakLoop _ => []
  | .continueLoop _ => []
  | .returnValue _ _ _ => []

theorem ForStart.heldIn_pieces (start : Option ForStart) :
    Piece.heldIn (ForStart.pieces start) = ForStart.declared start := by
  rcases start with _ | declaration | ⟨e, span⟩ <;> rfl

/-- The arms of a `switch` put nothing into the scope around it. -/
theorem Case.heldIn_pieces (arms : List Case) : Piece.heldIn (Case.pieces arms) = [] := by
  induction arms with
  | nil => rfl
  | cons arm rest ih =>
    obtain ⟨value, body, span⟩ := arm
    exact ih

/-- The body of a loop or the arms of a `switch` put their names into the scope around them. -/
theorem Piece.heldIn_spread (construct : Construct) (h : construct.opensScope = false)
    (body : List Piece) : heldIn [.within construct body] = heldIn body := by
  simp [heldIn, held, h]

/-- What the pieces of a statement put into the scope around it is what it declares there. -/
theorem Stmt.heldIn_pieces : ∀ s : Stmt, Piece.heldIn s.pieces = s.declared
  | .letDecl _ => rfl
  | .function _ => rfl
  | .classDecl _ none _ _ => rfl
  | .classDecl _ (some _) _ _ => rfl
  | .ifElse _ thenBody none _ => heldIn_pieces thenBody
  | .ifElse _ thenBody (some elseBody) _ => by
    have hbodies := Piece.heldIn_append thenBody.pieces elseBody.pieces
    rw [heldIn_pieces thenBody, heldIn_pieces elseBody] at hbodies
    exact hbodies
  | .whileLoop _ body _ => (Piece.heldIn_spread .loop rfl body.pieces).trans (heldIn_pieces body)
  | .doWhile body condition _ => by
    have hbody := Piece.heldIn_append [.within .loop body.pieces] [.mentions condition.mentions]
    rw [Piece.heldIn_spread .loop rfl, heldIn_pieces body] at hbody
    exact hbody.trans (List.append_nil _)
  | .forLoop start _ _ body _ => by
    rw [pieces, Piece.heldIn_append, ForStart.heldIn_pieces, declared]
    exact congrArg _ ((Piece.heldIn_spread .loop rfl body.pieces).trans (heldIn_pieces body))
  | .switch _ arms _ =>
    (Piece.heldIn_spread .switch rfl (Case.pieces arms)).trans (Case.heldIn_pieces arms)
  | .block _ _ => rfl
  | .expression _ _ => rfl
  | .print _ _ => rfl
  | .breakLoop _ => rfl
  | .continueLoop _ => rfl
  | .returnValue _ _ _ => rfl

/-- Every name that the frame holds can be read. -/
def Frame.Readable (frame : Frame) : Prop :=
  ∀ name, frame.holds name → frame.state? name = some .defined

/-- Every name that an open scope holds can be read there. -/
def Scopes.Readable (scopes : Scopes) : Prop := ∀ frame ∈ scopes.frames, frame.Readable

theorem Frame.holds_iff_exists_mem (frame : Frame) (name : String) :
    frame.holds name ↔ ∃ entry ∈ frame, entry.1 = name := by
  induction frame with
  | nil => simp [holds, state?]
  | cons entry rest ih =>
    have hset : holds (entry :: rest) name = (decide (name = entry.1) || holds rest name) :=
      holds_set rest entry.1 entry.2 name
    rw [hset, Bool.or_eq_true, decide_eq_true_iff, ih, List.exists_mem_cons_iff, eq_comm]

theorem Frame.readable_iff (frame : Frame) :
    frame.Readable ↔ ∀ entry ∈ frame, frame.state? entry.1 = some .defined := by
  constructor
  · intro h entry hentry
    exact h entry.1 ((frame.holds_iff_exists_mem entry.1).2 ⟨entry, hentry, rfl⟩)
  · intro h name hholds
    obtain ⟨entry, hentry, rfl⟩ := (frame.holds_iff_exists_mem name).1 hholds
    exact h entry hentry

instance (frame : Frame) : Decidable frame.Readable := decidable_of_iff _ frame.readable_iff.symm

instance (scopes : Scopes) : Decidable scopes.Readable :=
  inferInstanceAs (Decidable (∀ frame ∈ scopes.frames, frame.Readable))

/-- What is gained can be read, so nothing is left that cannot. -/
theorem Scopes.Gains.readable {names : List String} {scopes scopes' : Scopes}
    (h : Gains names scopes scopes') (hscopes : scopes.Readable) : scopes'.Readable := by
  cases h with
  | untracked => exact hscopes
  | @innermost frame frame' outer hstate =>
    have hall := List.forall_mem_cons.1 hscopes
    refine List.forall_mem_cons.2 ⟨fun name hholds => ?_, hall.2⟩
    by_cases hname : name ∈ names
    · rw [hstate, if_pos hname]
    · rw [Frame.holds, hstate, if_neg hname] at hholds
      rw [hstate, if_neg hname]
      exact hall.1 name hholds

namespace Walk

/-- In every context and from every state of the walk on, a statement closes what it opens, the
innermost scope gains just the names that the statement declares directly, and all other scopes are
the same ones. If all names could be read before it, all can be read after it. Where no scope is
open, none is open afterwards. An expression leaves the scopes as they are. -/
theorem gains_statement :
    (∀ (context : Context) (walk : Walk) (s : Stmt),
      Scopes.Gains s.declared walk.scopes (walk.statement context s).scopes) ∧
    (∀ (context : Context) (walk : Walk) (s : Stmt), walk.scopes.Readable →
      (walk.statement context s).scopes.Readable) ∧
    (∀ (context : Context) (walk : Walk) (s : Stmt), walk.scopes = .empty →
      (walk.statement context s).scopes = .empty) ∧
    ∀ (context : Context) (walk : Walk) (e : Expr),
      (walk.expression context e).scopes = walk.scopes := by
  have hgains : ∀ (context : Context) (walk : Walk) (s : Stmt),
      Scopes.Gains s.declared walk.scopes (walk.statement context s).scopes := by
    intro context walk s
    rw [statement_eq_followAll, ← Stmt.heldIn_pieces]
    exact gains_followAll context walk s.pieces
  refine ⟨hgains, fun context walk s h => (hgains context walk s).readable h,
    fun context walk s h => ?_, fun context walk e => ?_⟩
  · have hstatement := hgains context walk s
    rw [h] at hstatement
    exact hstatement.eq_empty
  · rw [expression_eq_mentionAll, scopes_mentionAll]

/-- The loop `for (let a = a; ; ) if (b) fn b(c) { let d; } else class C < C { init(b) { } }`. -/
def declaringLoop : Stmt :=
  let a : Token := .bare .identifier "a"
  let b : Token := .bare .identifier "b"
  let c : Token := .bare .identifier "c"
  let d : Token := .bare .identifier "d"
  let classC : Token := .bare .identifier "C"
  let method : Function := .mk (.bare .identifier "init") [b] [] default
  .forLoop (some (.declare ⟨a, some (.read ⟨0, a⟩), default⟩)) none none
    (.ifElse (.read ⟨1, b⟩) (.function (.mk b [c] [.letDecl ⟨d, none, default⟩] default))
      (some (.classDecl classC (some ⟨2, classC⟩) [method] default)) default) default

/-- Two scopes are open; the innermost holds `a` already, the other one a class `C`. -/
def besideClass : Walk :=
  { begin #[] with scopes := ⟨[[("a", .defined)], [("C", .defined), ("C", .declared)]]⟩ }

/-- Of all that the loop declares only `a`, `b` and `C` are left, in the innermost scope, although
`a` is rejected there. At top level nothing is left. -/
theorem gains_statement_declaringLoop :
    (besideClass.scopes.Readable ∧
      ∃ frame, (besideClass.statement .topLevel declaringLoop).scopes.frames =
          [frame, [("C", .defined), ("C", .declared)]] ∧
        (∀ name, Frame.holds frame name ↔ name ∈ ["a", "b", "C"]) ∧
        (besideClass.statement .topLevel declaringLoop).scopes.Readable) ∧
    (begin #[]).scopes = .empty ∧
      ((begin #[]).statement .topLevel declaringLoop).scopes = .empty := by
  have hreadable : besideClass.scopes.Readable := by decide
  have hgains : Scopes.Gains ["a", "b", "C"] besideClass.scopes
      (besideClass.statement .topLevel declaringLoop).scopes :=
    gains_statement.1 .topLevel besideClass declaringLoop
  have hafter := gains_statement.2.1 .topLevel besideClass declaringLoop hreadable
  refine ⟨⟨hreadable, ?_⟩, rfl, gains_statement.2.2.1 .topLevel (begin #[]) declaringLoop rfl⟩
  generalize (besideClass.statement .topLevel declaringLoop).scopes = scopes at hgains hafter ⊢
  cases hgains with
  | @innermost _ frame _ hstate =>
    refine ⟨frame, rfl, fun name => ?_, hafter⟩
    rw [Frame.holds, hstate]
    by_cases hname : name ∈ ["a", "b", "C"]
    · simp [hname]
    · have ha : name ≠ "a" := fun he => hname (by simp [he])
      rw [if_neg hname]
      simpa [Frame.state?, lookup_cons_eq_ite, ha] using hname

end Walk
end LexicalScoping
