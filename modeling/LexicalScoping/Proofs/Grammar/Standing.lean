import LexicalScoping.Grammar.Parse
import LexicalScoping.Proofs.Grammar.Spelling
import Mathlib.Data.List.Forall2

/-!
# Where a parser stands

A parser state stands at a place of a fixed token list: the tokens before the place have been read
and the others are ahead. `Spelt` says that the tokens from a place on begin with the spelling of a
tree, and `Spans` that what lies between two states is such a spelling.
-/
namespace LexicalScoping

namespace ParseState

/-- The state with one more statement or expression open. -/
def opened (s : ParseState) : ParseState := { s with depth := s.depth + 1 }

/-- The state with one more number given out. -/
def numbered (s : ParseState) : ParseState := { s with given := s.given + 1 }

/-- The state stands before the token of that place. -/
structure At (s : ParseState) (tokens : List Token) (i : Nat) : Prop where
  before : s.before = (tokens.take i).reverse
  ahead : s.current :: s.after = tokens.drop i

/-- The counter goes on by one with each number, and from its last value to zero. -/
theorem counter_numbered (s : ParseState) : s.numbered.counter = s.counter + 1 :=
  UInt32.ofNat_add s.given 1

example : ({ ofTokens [] with given := UInt32.size - 1 } : ParseState).numbered.counter = 0 := by
  decide

/-- With fewer than 2 ^ 32 numbers given out the counter is their number. -/
theorem counter_toNat {s : ParseState} (h : s.given < UInt32.size) :
    s.counter.toNat = s.given := UInt32.toNat_ofNat_of_lt h

/-- The counter does not come back while there is room in it for the numbers that are given out. -/
theorem counter_le {s s' : ParseState} (hgiven : s.given ≤ s'.given)
    (hroom : s.counter.toNat + (s'.given - s.given) < UInt32.size) : s.counter ≤ s'.counter := by
  rw [UInt32.le_iff_toNat_le]
  simp only [counter, UInt32.toNat_ofNat', UInt32.size] at *
  omega

theorem advance_given (s : ParseState) : s.advance.given = s.given := by
  unfold advance
  split <;> rfl

theorem advance_depth (s : ParseState) : s.advance.depth = s.depth := by
  unfold advance
  split <;> rfl

namespace At

variable {s : ParseState} {tokens : List Token} {i : Nat}

theorem lt_length (h : s.At tokens i) : i < tokens.length := by
  have hl := congrArg List.length h.ahead
  simp only [List.length_cons, List.length_drop] at hl
  omega

theorem getElem? (h : s.At tokens i) : tokens[i]? = some s.current := by
  have hd := congrArg (fun rest => rest[0]?) h.ahead
  simpa using hd.symm

theorem current_eq (h : s.At tokens i) {token : Token} (ht : tokens[i]? = some token) :
    s.current = token := Option.some.inj (h.getElem?.symm.trans ht)

theorem length_after (h : s.At tokens i) : i + 1 + s.after.length = tokens.length := by
  have hl := congrArg List.length h.ahead
  have hi := h.lt_length
  simp only [List.length_cons, List.length_drop] at hl
  omega

theorem after_ne_nil (h : s.At tokens i) (hi : i + 1 < tokens.length) : s.after ≠ [] := by
  have hl := h.length_after
  intro hnil
  rw [hnil, List.length_nil] at hl
  omega

theorem advance (h : s.At tokens i) (hn : s.after ≠ []) : s.advance.At tokens (i + 1) := by
  obtain ⟨next, rest, hr⟩ := List.exists_cons_of_ne_nil hn
  have hs : s.advance =
      { s with before := s.current :: s.before, current := next, after := rest } := by
    simp [ParseState.advance, hr]
  have hd := h.ahead
  rw [hr] at hd
  have hdrop : tokens.drop (i + 1) = next :: rest := by
    rw [← List.drop_drop, ← hd, List.drop_succ_cons, List.drop_zero]
  refine ⟨?_, by rw [hs, hdrop]⟩
  rw [hs, List.take_add_one, h.getElem?, h.before]
  simp

theorem opened (h : s.At tokens i) : s.opened.At tokens i := ⟨h.before, h.ahead⟩

theorem numbered (h : s.At tokens i) : s.numbered.At tokens i := ⟨h.before, h.ahead⟩

theorem leave (h : s.At tokens i) : (Parse.leave s).At tokens i := ⟨h.before, h.ahead⟩

end At

/-- Every state stands somewhere in the tokens that it has read and has ahead. -/
theorem exists_at (s : ParseState) : ∃ tokens i, s.At tokens i :=
  ⟨s.before.reverse ++ s.current :: s.after, s.before.length, by simp, by simp⟩

/-- Behind the tokens there may be an end token that was not given. -/
theorem cons_closedAfter (first : Token) (rest : List Token) :
    ∃ ends, (∀ token ∈ ends, token.kind = .endOfInput) ∧
      first :: closedAfter first rest = first :: rest ++ ends := by
  induction rest generalizing first with
  | nil =>
    by_cases hk : first.kind = .endOfInput
    · exact ⟨[], by simp, by simp [closedAfter, hk]⟩
    · exact ⟨[Token.endAt first.span.stop], by simp [Token.endAt], by simp [closedAfter, hk]⟩
  | cons next rest ih =>
    obtain ⟨ends, hends, heq⟩ := ih next
    exact ⟨ends, hends, by rw [closedAfter, heq]; rfl⟩

/-- A parser starts at the first of the tokens, behind which there may be an end token. -/
theorem exists_at_ofTokens (tokens : List Token) :
    ∃ ends, (∀ token ∈ ends, token.kind = .endOfInput) ∧
      (ofTokens tokens).At (tokens ++ ends) 0 := by
  cases tokens with
  | nil =>
    refine ⟨[Token.endAt Position.nowhere], by simp [Token.endAt], ?_⟩
    exact ⟨rfl, rfl⟩
  | cons first rest =>
    obtain ⟨ends, hends, heq⟩ := cons_closedAfter first rest
    refine ⟨ends, hends, rfl, ?_⟩
    rw [← heq]
    rfl

/-- Nothing is put behind a token list that ends with the end of input. -/
theorem closedAfter_eq_self {first : Token} {rest : List Token}
    (hlast : ∀ token, (first :: rest).getLast? = some token → token.kind = .endOfInput) :
    closedAfter first rest = rest := by
  induction rest generalizing first with
  | nil => exact if_pos (hlast first rfl)
  | cons next rest ih =>
    rw [List.getLast?_cons_cons] at hlast
    rw [closedAfter, ih hlast]

theorem length_closedAfter_le (first : Token) (rest : List Token) :
    (closedAfter first rest).length ≤ rest.length + 1 := by
  induction rest generalizing first with
  | nil =>
    unfold closedAfter
    split <;> simp
  | cons next rest ih => exact Nat.succ_le_succ (ih next)

theorem length_after_ofTokens_le (tokens : List Token) :
    (ofTokens tokens).after.length ≤ tokens.length := by
  cases tokens with
  | nil => exact Nat.le_refl _
  | cons first rest => exact length_closedAfter_le first rest

theorem given_ofTokens (tokens : List Token) : (ofTokens tokens).given = 0 := by
  cases tokens <;> rfl

section Closed

variable {tokens : List Token} {last : Token} (hlast : tokens.getLast? = some last)
  (hend : last.kind = .endOfInput)
include hlast hend

/-- Before anything is read all tokens but the first are ahead, and no other. -/
theorem exists_ofTokens_eq : ∃ first rest, tokens = first :: rest ∧
    ofTokens tokens = ⟨[], first, rest, 0, 0⟩ := by
  cases tokens with
  | nil => cases hlast
  | cons first rest =>
    have hafter : closedAfter first rest = rest :=
      closedAfter_eq_self fun token h => by
        rw [hlast] at h
        cases h
        exact hend
    exact ⟨first, rest, rfl, by rw [ofTokens, hafter]⟩

theorem at_ofTokens : (ofTokens tokens).At tokens 0 := by
  obtain ⟨first, rest, rfl, hstart⟩ := exists_ofTokens_eq hlast hend
  rw [hstart]
  exact ⟨rfl, rfl⟩

end Closed

end ParseState

/-- From the place on the tokens begin as the signs say. -/
def Spelt (tokens : List Token) : Nat → List Sign → Prop
  | _, [] => True
  | i, sign :: signs => (∃ token, tokens[i]? = some token ∧ sign.Fits token) ∧
      Spelt tokens (i + 1) signs

@[simp] theorem spelt_nil (tokens : List Token) (i : Nat) : Spelt tokens i [] := trivial

theorem spelt_cons {tokens : List Token} {i : Nat} {sign : Sign} {signs : List Sign} :
    Spelt tokens i (sign :: signs) ↔
      (∃ token, tokens[i]? = some token ∧ sign.Fits token) ∧ Spelt tokens (i + 1) signs := Iff.rfl

theorem spelt_append {tokens : List Token} {i : Nat} {front back : List Sign} :
    Spelt tokens i (front ++ back) ↔
      Spelt tokens i front ∧ Spelt tokens (i + front.length) back := by
  induction front generalizing i with
  | nil => simp
  | cons sign front ih =>
    rw [List.cons_append, spelt_cons, spelt_cons, ih, List.length_cons, and_assoc,
      Nat.add_right_comm, Nat.add_assoc]

/-- No tree has the end of input among its tokens. -/
theorem forall_ne_endOfInput_of_fits {signs : List Sign} {tokens : List Token}
    (h : List.Forall₂ Sign.Fits signs tokens) : ∀ token ∈ tokens, token.kind ≠ .endOfInput := by
  induction h with
  | nil => simp
  | cons hf _ ih => simpa using ⟨hf.1, ih⟩

/-- The tokens that a spelling covers, as a stretch of the list. -/
theorem Spelt.forall₂ {tokens : List Token} {i : Nat} {signs : List Sign}
    (h : Spelt tokens i signs) :
    List.Forall₂ Sign.Fits signs ((tokens.drop i).take signs.length) := by
  induction signs generalizing i with
  | nil => simp
  | cons sign signs ih =>
    obtain ⟨⟨token, ht, hf⟩, hrest⟩ := h
    have hi : i < tokens.length := (List.getElem?_eq_some_iff.1 ht).1
    have hd : tokens.drop i = token :: tokens.drop (i + 1) := by
      rw [List.drop_eq_getElem_cons hi, (List.getElem?_eq_some_iff.1 ht).2]
    rw [hd, List.length_cons, List.take_succ_cons]
    exact .cons hf (ih hrest)

/-- Tokens that fit signs one by one are spelt by them wherever they stand. -/
theorem spelt_of_forall₂ {signs : List Sign} {part : List Token}
    (h : List.Forall₂ Sign.Fits signs part) (front back : List Token) :
    Spelt (front ++ part ++ back) front.length signs := by
  induction h generalizing front with
  | nil => trivial
  | @cons sign token signs part hf _ ih =>
    refine ⟨⟨token, by simp, hf⟩, ?_⟩
    simpa using ih (front ++ [token])

/-- What lies between the two states is spelled by the signs. -/
def Spans (s : ParseState) (signs : List Sign) (s' : ParseState) : Prop :=
  ∀ tokens i, s.At tokens i → s'.At tokens (i + signs.length) ∧ Spelt tokens i signs

namespace Spans

variable {s s₁ s₂ : ParseState} {front back : List Sign}

theorem refl (s : ParseState) : Spans s [] s := fun _ _ h => ⟨h, trivial⟩

theorem append (h₁ : Spans s front s₁) (h₂ : Spans s₁ back s₂) : Spans s (front ++ back) s₂ := by
  intro tokens i h
  obtain ⟨ha₁, hs₁⟩ := h₁ tokens i h
  obtain ⟨ha₂, hs₂⟩ := h₂ tokens _ ha₁
  rw [List.length_append, ← Nat.add_assoc]
  exact ⟨ha₂, spelt_append.2 ⟨hs₁, hs₂⟩⟩

theorem opened (h : Spans s.opened front s₁) : Spans s front s₁ :=
  fun tokens i ha => h tokens i ha.opened

theorem numbered (h : Spans s front s₁) : Spans s front s₁.numbered :=
  fun tokens i ha => ⟨(h tokens i ha).1.numbered, (h tokens i ha).2⟩

theorem leave (h : Spans s front s₁) : Spans s front (Parse.leave s₁) :=
  fun tokens i ha => ⟨(h tokens i ha).1.leave, (h tokens i ha).2⟩

/-- A spelling that is not empty takes the state closer to the end. -/
theorem length_after_lt (h : Spans s front s₁) (hn : front ≠ []) :
    s₁.after.length < s.after.length := by
  obtain ⟨tokens, i, ha⟩ := s.exists_at
  have h₁ := (h tokens i ha).1.length_after
  have h₀ := ha.length_after
  have hl := List.length_pos_iff.2 hn
  omega

end Spans
end LexicalScoping
