import LexicalScoping.Proofs.Grammar.Covers
import LexicalScoping.Proofs.Token.Layout

/-!
# The stretches of source that nodes keep

A node of a program that is read keeps the stretch from the start of its first token to the end of
its last one. The tokens of a source lie one behind the other, so the stretch of a node holds those
of all nodes inside it, and of two nodes side by side the first ends before the second starts.
-/
namespace LexicalScoping

/-- The stretch lies within the other one. -/
def Span.Within (inner outer : Span) : Prop :=
  outer.start.offset ≤ inner.start.offset ∧ inner.stop.offset ≤ outer.stop.offset

/-- The stretch ends before the other one starts. -/
def Span.Before (first second : Span) : Prop := first.stop.offset ≤ second.start.offset

/-- The stretches that the nodes directly in a row keep. -/
def Part.spans : List Part → List Span
  | [] => []
  | sign _ :: rest => spans rest
  | node inner :: rest => inner.span?.toList ++ spans rest

namespace Ascending

variable {tokens : List Token}

theorem sublist (h : Ascending tokens) {part : List Token} (hpart : part.Sublist tokens) :
    Ascending part :=
  ⟨fun token hmem => h.forward token (hpart.subset hmem), h.apart.sublist hpart⟩

theorem head_le (h : Ascending tokens) {first : Token} (hfirst : tokens.head? = some first) :
    ∀ token ∈ tokens, first.span.start.offset ≤ token.span.start.offset := by
  obtain ⟨rest, rfl⟩ := List.head?_eq_some_iff.1 hfirst
  rw [List.forall_mem_cons]
  refine ⟨Nat.le_refl _, fun token hmem => ?_⟩
  have hapart := List.rel_of_pairwise_cons h.apart hmem
  exact Nat.le_trans (h.forward first List.mem_cons_self) hapart

theorem le_getLast (h : Ascending tokens) {last : Token} (hlast : tokens.getLast? = some last) :
    ∀ token ∈ tokens, token.span.stop.offset ≤ last.span.stop.offset := by
  obtain ⟨front, rfl⟩ := List.getLast?_eq_some_iff.1 hlast
  rw [List.forall_mem_append, List.forall_mem_singleton]
  refine ⟨fun token hmem => ?_, Nat.le_refl _⟩
  have hapart := (List.pairwise_append.1 h.apart).2.2 token hmem last (List.mem_singleton_self last)
  exact Nat.le_trans hapart (h.forward last (by simp))

theorem stop_le_start (h : Ascending tokens) {n : Nat} {first second : Token}
    (hfirst : first ∈ tokens.take n) (hsecond : second ∈ tokens.drop n) :
    first.span.stop.offset ≤ second.span.start.offset := by
  have hapart := h.apart
  rw [← List.take_append_drop n tokens] at hapart
  exact (List.pairwise_append.1 hapart).2.2 first hfirst second hsecond

end Ascending

/-- What covers some of the tokens lies within what covers all of them. -/
theorem Span.Covers.within {inner outer : Span} {own part : List Token} (hinner : inner.Covers part)
    (houter : outer.Covers own) (hpart : part.Sublist own) (hasc : Ascending own) :
    inner.Within outer := by
  obtain ⟨first, last, hfirst, hlast, rfl⟩ := houter
  obtain ⟨first', last', hfirst', hlast', rfl⟩ := hinner
  exact ⟨hasc.head_le hfirst _ (hpart.subset (List.mem_of_head? hfirst')),
    hasc.le_getLast hlast _ (hpart.subset (List.mem_of_getLast? hlast'))⟩

section Places

variable {tokens : List Token} {row : List Part} {node outer inner : Node} {i j k : Nat}

theorem Node.ownTokens_eq (node : Node) (tokens : List Token) (i : Nat) :
    node.ownTokens tokens i = (tokens.take (i + node.spelling.length)).drop i := by
  rw [ownTokens, List.drop_take, Nat.add_sub_cancel_left]

/-- The tokens of a node inside another one are some of its tokens. -/
theorem Stands.ownTokens_sublist (h : Stands outer.parts j inner) (tokens : List Token) (i : Nat) :
    (inner.ownTokens tokens (i + j)).Sublist (outer.ownTokens tokens i) := by
  have hle := h.add_length_le
  rw [outer.spellings_parts] at hle
  rw [Node.ownTokens_eq, Node.ownTokens_eq, ← List.drop_drop]
  have hfront : (tokens.take (i + j + inner.spelling.length)).Sublist
      (tokens.take (i + outer.spelling.length)) :=
    (List.take_prefix_take_left (by omega)).sublist
  exact (List.drop_sublist j _).trans (hfront.drop i)

/-- A node is spelt where it stands. -/
theorem Spelt.of_stands (h : Spelt tokens k (Part.spellings row)) (hs : Stands row i node) :
    Spelt tokens (k + i) node.spelling := by
  induction hs generalizing k with
  | direct front node back =>
    rw [Part.spellings_append, Part.spellings_node] at h
    exact (spelt_append.1 (spelt_append.1 h).2).1
  | @inside row i j outer inner _ _ houter hinner =>
    have hparts := houter h
    rw [← outer.spellings_parts] at hparts
    rw [← Nat.add_assoc]
    exact hinner hparts

namespace Covered

/-- A node covers its own tokens where it stands, and so do those inside it. -/
theorem of_stands (h : Covered tokens k row) (hs : Stands row i node) :
    (∀ span ∈ node.span?, span.Covers (node.ownTokens tokens (k + i))) ∧
      Covered tokens (k + i) node.parts := by
  induction hs generalizing k with
  | direct front node back =>
    obtain _ | _ | ⟨covers, inside, -⟩ := (covered_append.1 h).2
    exact ⟨covers, inside⟩
  | inside _ _ houter hinner =>
    rw [← Nat.add_assoc]
    exact hinner (houter h).2

/-- The nodes of a row start at tokens of the row. -/
theorem exists_start_eq (h : Covered tokens i row) :
    ∀ span ∈ Part.spans row, ∃ token ∈ tokens.drop i, span.start = token.span.start := by
  induction h with
  | nil => simp [Part.spans]
  | @sign i own rest _ ih =>
    intro span hspan
    obtain ⟨token, hmem, hstart⟩ := ih span hspan
    exact ⟨token, (List.drop_sublist_drop_left tokens (Nat.le_succ i)).subset hmem, hstart⟩
  | @node i inner rest covers _ _ _ ih =>
    rw [Part.spans, List.forall_mem_append]
    refine ⟨fun span hspan => ?_, fun span hspan => ?_⟩
    · obtain ⟨first, last, hfirst, -, rfl⟩ := covers span (Option.mem_toList.1 hspan)
      exact ⟨first, List.mem_of_mem_take (List.mem_of_head? hfirst), rfl⟩
    · obtain ⟨token, hmem, hstart⟩ := ih span hspan
      exact ⟨token, (List.drop_sublist_drop_left tokens (Nat.le_add_right i _)).subset hmem, hstart⟩

/-- Of two nodes in a row the first ends before the second starts. -/
theorem spans_pairwise (h : Covered tokens i row) (hasc : Ascending tokens) :
    (Part.spans row).Pairwise Span.Before := by
  induction h with
  | nil => exact .nil
  | sign _ ih => exact ih
  | @node i inner rest covers _ behind _ ih =>
    refine List.pairwise_append.2 ⟨?_, ih, fun span hspan other hother => ?_⟩
    · cases inner.span? <;> simp
    · obtain ⟨first, last, -, hlast, rfl⟩ := covers span (Option.mem_toList.1 hspan)
      obtain ⟨token, hmem, hstart⟩ := behind.exists_start_eq other hother
      have hown := List.mem_of_getLast? hlast
      rw [Node.ownTokens_eq] at hown
      rw [Span.Before, hstart]
      exact hasc.stop_le_start (List.mem_of_mem_drop hown) hmem

end Covered
end Places

namespace Program

/-- Every statement and every expression of a program that is read is a node that stands somewhere
in it. Each node stands where its own tokens are, and the stretch that it keeps starts where the
first of them starts and ends where the last one ends. It holds the stretches of all nodes inside
it, and those of the nodes directly inside it, as those of the statements of the program, lie one
behind the other in the order of the text. -/
theorem covers_of_parse {source : String} {file : Option String} {tokens : List Token}
    {program : Program} (ht : tokenize source file = .ok tokens) (hp : parse tokens = .ok program) :
    (∀ s, program.HasStmt s → Holds (Stmt.row program.statements) (.statement s)) ∧
      (∀ e, program.HasExpr e → Holds (Stmt.row program.statements) (.expression e)) ∧
      (∀ i node, Stands (Stmt.row program.statements) i node →
        List.Forall₂ Sign.Fits node.spelling (node.ownTokens tokens i) ∧
          (∀ span ∈ node.span?, span.Covers (node.ownTokens tokens i)) ∧
          (∀ j inner, Stands node.parts j inner →
            ∀ outer ∈ node.span?, ∀ span ∈ inner.span?, span.Within outer) ∧
          (Part.spans node.parts).Pairwise Span.Before) ∧
      (Part.spans (Stmt.row program.statements)).Pairwise Span.Before := by
  obtain ⟨s, -, hreads⟩ := readsStmts_of_parse hp
  have hasc := ascending_of_tokenize ht
  have hat := ParseState.at_ofTokens (getLast?_of_tokenize ht) rfl
  have hspelt := (hreads.covers.spans tokens 0 hat).2
  have hcovered := hreads.covers.covered tokens 0 hat
  refine ⟨fun s hs => hs.holds, fun e he => he.holds, fun i node hs => ?_,
    hcovered.spans_pairwise hasc⟩
  obtain ⟨hcovers, hinside⟩ := hcovered.of_stands hs
  have hfits := (hspelt.of_stands hs).forall₂
  rw [Nat.zero_add] at hcovers hinside hfits
  refine ⟨hfits, hcovers, fun j inner hwithin outer houter span hspan => ?_,
    hinside.spans_pairwise hasc⟩
  have hown : Ascending (node.ownTokens tokens i) :=
    hasc.sublist ((List.take_sublist _ _).trans (List.drop_sublist i tokens))
  exact ((hinside.of_stands hwithin).1 span hspan).within (hcovers outer houter)
    (hwithin.ownTokens_sublist tokens i) hown

/-- The text of a class with a method that assigns to a property. -/
def methodText : String := "class A \x7b m() \x7b o.x = f(b); \x7d \x7d"

/-- What the only method of the only class evaluates, if that is all that a program consists of. -/
def soleExpression? : List Stmt → Option Expr
  | [.classDecl _ none [.mk _ [] [.expression e _] _] _] => some e
  | _ => none

/-- There the assignment stands behind seven tokens and covers the eight tokens `o.x = f(b)`. -/
theorem covers_of_parse_methodText : ∃ tokens program e,
    tokenize methodText none = .ok tokens ∧ parse tokens = .ok program ∧
      Stands (Stmt.row program.statements) 7 (.expression e) ∧
      e.span = ⟨⟨16, 1, 17, unnamedFile⟩, ⟨26, 1, 27, unnamedFile⟩⟩ ∧
      e.span.Covers ((tokens.drop 7).take 8) := by
  obtain ⟨tokens, program, e, ht, hp, hsole, hlength, hspan⟩ : ∃ tokens program e,
      tokenize methodText none = .ok tokens ∧ parse tokens = .ok program ∧
        soleExpression? program.statements = some e ∧ e.spelling.length = 8 ∧
          e.span = ⟨⟨16, 1, 17, unnamedFile⟩, ⟨26, 1, 27, unnamedFile⟩⟩ :=
    ⟨_, _, _, eq_ok_get (by decide +kernel), eq_ok_get (by decide +kernel),
      (Option.some_get (by decide +kernel)).symm, by decide +kernel, by decide +kernel⟩
  obtain ⟨name, method, semicolon, body, span, hlist⟩ : ∃ name method semicolon body span,
      program.statements =
        [.classDecl name none [.mk method [] [.expression e semicolon] body] span] := by
    unfold soleExpression? at hsole
    split at hsole
    · next hlist =>
      cases hsole
      exact ⟨_, _, _, _, _, hlist⟩
    · contradiction
  have hclass : Stands (Stmt.row program.statements) 0 (.statement
      (.classDecl name none [.mk method [] [.expression e semicolon] body] span)) := by
    rw [hlist]
    exact .direct [] _ []
  have hmethod : Stands (Stmt.parts
      (.classDecl name none [.mk method [] [.expression e semicolon] body] span)) 3
        (.method (.mk method [] [.expression e semicolon] body)) :=
    .direct [.sign _, .sign _, .sign _] _ [.sign _]
  have hstatement : Stands (Function.parts (.mk method [] [.expression e semicolon] body)) 4
      (.statement (.expression e semicolon)) :=
    .direct [.sign _, .sign _, .sign _, .sign _] _ [.sign _]
  have hassignment : Stands (Stmt.parts (.expression e semicolon)) 0 (.expression e) :=
    .direct [] _ [.sign _]
  have hstands : Stands (Stmt.row program.statements) 7 (.expression e) :=
    .inside (.inside (.inside hclass hmethod) hstatement) hassignment
  have hcovers := ((covers_of_parse ht hp).2.2.1 7 _ hstands).2.1 e.span rfl
  rw [Node.ownTokens, Node.spelling, hlength] at hcovers
  exact ⟨tokens, program, e, ht, hp, hstands, hspan, hcovers⟩

end Program
end LexicalScoping
