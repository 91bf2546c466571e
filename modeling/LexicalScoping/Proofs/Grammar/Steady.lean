import LexicalScoping.Proofs.Grammar.Ensures

/-!
# Parsers go forward

Whatever a parser answers, it goes forward in its tokens and in its numbers and closes as many
levels as it opens. `Agree` says this of a parser on the states that can be reached with so
many levels open, and at once that a second parser does the same there. The second is mostly the
first again, with other parsers for what is a level further in: that these make no difference says
what can happen further in. There is one rule for each way to build a parser.
-/
namespace LexicalScoping

namespace ParseState

/-- All tokens, read or ahead. -/
def tokens (s : ParseState) : List Token := s.before.reverse ++ s.current :: s.after

/-- How many tokens have been read. -/
def position (s : ParseState) : Nat := s.before.length

theorem at_position (s : ParseState) : s.At s.tokens s.position :=
  ⟨by simp [tokens, position], by simp [tokens, position]⟩

theorem position_lt_length (s : ParseState) : s.position < s.tokens.length :=
  s.at_position.lt_length

theorem tokens_advance (s : ParseState) : s.advance.tokens = s.tokens := by
  unfold advance
  split
  · rfl
  · next next rest hafter => simp [tokens, hafter]

theorem position_le_advance (s : ParseState) : s.position ≤ s.advance.position := by
  unfold advance
  split
  · exact Nat.le_refl _
  · exact Nat.le_succ _

/-- The states that a parser of the tokens can come to: it starts at the first token, reads tokens,
gives out numbers, and opens and closes levels. -/
inductive Reachable (tokens : List Token) : ParseState → Prop
  | start : Reachable tokens (ofTokens tokens)
  | advance {s : ParseState} : Reachable tokens s → Reachable tokens s.advance
  | numbered {s : ParseState} : Reachable tokens s → Reachable tokens s.numbered
  | opened {s : ParseState} : s.depth < maxNesting → Reachable tokens s →
    Reachable tokens s.opened
  | leave {s : ParseState} : 0 < s.depth → Reachable tokens s → Reachable tokens (Parse.leave s)

namespace Reachable

variable {tokens : List Token} {s : ParseState}

theorem closed (h : s.Reachable tokens) : s.Closed := by
  induction h with
  | start => exact closed_ofTokens tokens
  | advance _ ih => exact ih.advance
  | numbered _ ih => exact ih
  | opened _ _ ih => exact ih
  | leave _ _ ih => exact ih

theorem depth_le (h : s.Reachable tokens) : s.depth ≤ maxNesting := by
  induction h with
  | start => cases tokens <;> exact Nat.zero_le _
  | advance _ ih => rwa [advance_depth]
  | numbered _ ih => exact ih
  | opened hroom _ _ => exact hroom
  | leave _ _ ih => exact Nat.le_trans (Nat.sub_le _ _) ih

/-- All states that can be reached are about the same tokens. -/
theorem tokens_eq (h : s.Reachable tokens) : s.tokens = (ofTokens tokens).tokens := by
  induction h with
  | start => rfl
  | advance _ ih => rwa [tokens_advance]
  | numbered _ ih => exact ih
  | opened _ _ ih => exact ih
  | leave _ _ ih => exact ih

end Reachable

/-- The second state is further on in the same tokens and in the numbers, with the same levels open.
The counter has not come back either, unless more numbers were given out than it had room for. -/
structure Leads (s s' : ParseState) : Prop where
  tokens : s'.tokens = s.tokens
  position : s.position ≤ s'.position
  position_lt : s'.position < s.tokens.length
  given : s.given ≤ s'.given
  counter : s.counter.toNat + (s'.given - s.given) < UInt32.size → s.counter ≤ s'.counter
  depth : s'.depth = s.depth

namespace Leads

variable {s s₁ s₂ : ParseState}

theorem refl (s : ParseState) : s.Leads s :=
  ⟨rfl, Nat.le_refl _, s.position_lt_length, Nat.le_refl _, counter_le (Nat.le_refl _), rfl⟩

theorem trans (h₁ : s.Leads s₁) (h₂ : s₁.Leads s₂) : s.Leads s₂ where
  tokens := h₂.tokens.trans h₁.tokens
  position := Nat.le_trans h₁.position h₂.position
  position_lt := h₁.tokens ▸ h₂.position_lt
  given := Nat.le_trans h₁.given h₂.given
  counter := counter_le (Nat.le_trans h₁.given h₂.given)
  depth := h₂.depth.trans h₁.depth

theorem advance (s : ParseState) : s.Leads s.advance where
  tokens := s.tokens_advance
  position := s.position_le_advance
  position_lt := s.tokens_advance ▸ s.advance.position_lt_length
  given := Nat.le_of_eq s.advance_given.symm
  counter := counter_le (Nat.le_of_eq s.advance_given.symm)
  depth := s.advance_depth

theorem numbered (s : ParseState) : s.Leads s.numbered :=
  ⟨rfl, Nat.le_refl _, s.position_lt_length, Nat.le_succ _, counter_le (Nat.le_succ _), rfl⟩

/-- What happens between opening a level and closing it. -/
theorem level (h : s.opened.Leads s₁) : s.Leads (Parse.leave s₁) where
  tokens := h.tokens
  position := h.position
  position_lt := h.position_lt
  given := h.given
  counter := h.counter
  depth := by
    have hdepth : s₁.depth = s.depth + 1 := h.depth
    show s₁.depth - 1 = s.depth
    omega

end Leads
end ParseState

namespace Parse

variable {α β : Type}

/-- On the states with so many levels open the parsers do the same, and they go forward. -/
def Agree (tokens : List Token) (depth : Nat) (p q : Parse α) : Prop :=
  ∀ s : ParseState, s.Reachable tokens → s.depth = depth →
    q s = p s ∧ (p s).2.Reachable tokens ∧ s.Leads (p s).2

namespace Agree

variable {tokens : List Token} {depth : Nat} {p q : Parse α}

/-- A parser that fails where it stands, or answers without reading. -/
theorem of_stays (h : ∀ s, (p s).2 = s) : Agree tokens depth p p := by
  intro s hs _
  rw [h]
  exact ⟨rfl, hs, .refl s⟩

theorem pure (x : α) : Agree tokens depth (Pure.pure x) (Pure.pure x) := of_stays fun _ => rfl

theorem failHere (cause : Token → Cause) :
    Agree tokens depth (failHere cause : Parse α) (failHere cause) := of_stays fun _ => rfl

theorem failOn (token : Token) (cause : Cause) :
    Agree tokens depth (failOn token cause : Parse α) (failOn token cause) := of_stays fun _ => rfl

theorem spanFrom (start : Position) :
    Agree tokens depth (spanFrom start) (spanFrom start) := of_stays fun _ => rfl

theorem advance : Agree tokens depth advance advance :=
  fun s hs _ => ⟨rfl, hs.advance, .advance s⟩

theorem freshId : Agree tokens depth freshId freshId :=
  fun s hs _ => ⟨rfl, hs.numbered, .numbered s⟩

theorem bind {f g : α → Parse β} (hp : Agree tokens depth p q)
    (hf : ∀ x, Agree tokens depth (f x) (g x)) :
    Agree tokens depth (p >>= f) (q >>= g) := by
  intro s hs hdepth
  obtain ⟨heq, hreach, hleads⟩ := hp s hs hdepth
  rw [bind_apply, bind_apply, heq]
  cases hanswer : p s with
  | mk answer s₁ =>
    rw [hanswer] at hreach hleads
    cases answer with
    | error e => exact ⟨rfl, hreach, hleads⟩
    | ok x =>
      obtain ⟨heq', hreach', hleads'⟩ := hf x s₁ hreach (hleads.depth.trans hdepth)
      exact ⟨heq', hreach', hleads.trans hleads'⟩

theorem bind_peek {f g : Token → Parse β} (hf : ∀ token, Agree tokens depth (f token) (g token)) :
    Agree tokens depth (peek >>= f) (peek >>= g) :=
  bind (of_stays fun _ => rfl) hf

theorem ite {condition : Prop} [Decidable condition] {p' q' : Parse α}
    (h : Agree tokens depth p q) (h' : Agree tokens depth p' q') :
    Agree tokens depth (if condition then p else p') (if condition then q else q') := by
  by_cases hc : condition
  · rwa [if_pos hc, if_pos hc]
  · rwa [if_neg hc, if_neg hc]

theorem expect (kind : Kind) : Agree tokens depth (expect kind) (expect kind) :=
  bind_peek fun _ => ite advance (failHere _)

theorem expectBut (kind : Kind) (wanted : String) :
    Agree tokens depth (expectBut kind wanted) (expectBut kind wanted) :=
  bind_peek fun _ => ite advance (failHere _)

theorem afterKind (kind : Kind) (h : Agree tokens depth p q) :
    Agree tokens depth (afterKind kind p) (afterKind kind q) :=
  bind_peek fun _ => ite (advance.bind fun _ => h.bind fun _ => pure _) (pure _)

theorem unlessKind (kind : Kind) (h : Agree tokens depth p q) :
    Agree tokens depth (unlessKind kind p) (unlessKind kind q) :=
  bind_peek fun _ => ite (pure _) (h.bind fun _ => pure _)

theorem manyUntil (stop : Kind → Bool) (h : Agree tokens depth p q) :
    Agree tokens depth (manyUntil stop p) (manyUntil stop q) := by
  intro s hs hdepth
  fun_induction Parse.manyUntil stop p s with
  | case1 s hstop =>
    rw [Parse.manyUntil, if_pos hstop]
    exact ⟨rfl, hs, .refl s⟩
  | case2 s hstop e s₁ hitem =>
    have hone := h s hs hdepth
    rw [hitem] at hone
    rw [Parse.manyUntil, if_neg hstop, hone.1]
    exact ⟨rfl, hone.2⟩
  | case3 s hstop x s₁ hitem hlt e s₂ hrest ih =>
    obtain ⟨heq, hreach, hleads⟩ := hitem ▸ h s hs hdepth
    obtain ⟨heq', hreach', hleads'⟩ := hrest ▸ ih hreach (hleads.depth.trans hdepth)
    rw [Parse.manyUntil, if_neg hstop, heq]
    simp only [if_pos hlt, heq']
    exact ⟨trivial, hreach', hleads.trans hleads'⟩
  | case4 s hstop x s₁ hitem hlt xs s₂ hrest ih =>
    obtain ⟨heq, hreach, hleads⟩ := hitem ▸ h s hs hdepth
    obtain ⟨heq', hreach', hleads'⟩ := hrest ▸ ih hreach (hleads.depth.trans hdepth)
    rw [Parse.manyUntil, if_neg hstop, heq]
    simp only [if_pos hlt, heq']
    exact ⟨trivial, hreach', hleads.trans hleads'⟩
  | case5 s hstop x s₁ hitem hge =>
    obtain ⟨heq, hreach, hleads⟩ := hitem ▸ h s hs hdepth
    rw [Parse.manyUntil, if_neg hstop, heq]
    simp only [if_neg hge]
    exact ⟨trivial, hreach, hleads⟩

theorem separated (h : Agree tokens depth p q) :
    Agree tokens depth (separated p) (separated q) := by
  intro s hs hdepth
  fun_induction Parse.separated p s with
  | case1 s e s₁ hitem =>
    obtain ⟨heq, hrest⟩ := hitem ▸ h s hs hdepth
    rw [Parse.separated, heq]
    exact ⟨rfl, hrest⟩
  | case2 s x s₁ hitem hcomma hlt e s₂ hrest ih =>
    obtain ⟨heq, hreach, hleads⟩ := hitem ▸ h s hs hdepth
    have hnext := hleads.trans (.advance s₁)
    obtain ⟨heq', hreach', hleads'⟩ := hrest ▸ ih hreach.advance (hnext.depth.trans hdepth)
    rw [Parse.separated, heq]
    simp only [if_pos hcomma, if_pos hlt, heq']
    exact ⟨trivial, hreach', hnext.trans hleads'⟩
  | case3 s x s₁ hitem hcomma hlt xs s₂ hrest ih =>
    obtain ⟨heq, hreach, hleads⟩ := hitem ▸ h s hs hdepth
    have hnext := hleads.trans (.advance s₁)
    obtain ⟨heq', hreach', hleads'⟩ := hrest ▸ ih hreach.advance (hnext.depth.trans hdepth)
    rw [Parse.separated, heq]
    simp only [if_pos hcomma, if_pos hlt, heq']
    exact ⟨trivial, hreach', hnext.trans hleads'⟩
  | case4 s x s₁ hitem hcomma hge =>
    obtain ⟨heq, hreach, hleads⟩ := hitem ▸ h s hs hdepth
    rw [Parse.separated, heq]
    simp only [if_pos hcomma, if_neg hge]
    exact ⟨trivial, hreach.advance, hleads.trans (.advance s₁)⟩
  | case5 s x s₁ hitem hne =>
    obtain ⟨heq, hreach, hleads⟩ := hitem ▸ h s hs hdepth
    rw [Parse.separated, heq]
    simp only [if_neg hne]
    exact ⟨trivial, hreach, hleads⟩

theorem separatedUntil (close : Kind) (h : Agree tokens depth p q) :
    Agree tokens depth (separatedUntil close p) (separatedUntil close q) :=
  bind_peek fun _ => ite (pure _) h.separated

/-- Inside a level the parsers have to agree where one more level is open. -/
theorem nested (h : Agree tokens (depth + 1) p q) :
    Agree tokens depth (nested p) (nested q) := by
  intro s hs hdepth
  rw [nested_apply, nested_apply]
  by_cases hroom : s.depth < maxNesting
  · obtain ⟨heq, hreach, hleads⟩ := h s.opened (hs.opened hroom) (congrArg (· + 1) hdepth)
    have hopen : 0 < (p s.opened).2.depth := hleads.depth ▸ Nat.succ_pos s.depth
    rw [if_pos hroom, if_pos hroom, heq]
    exact ⟨rfl, hreach.leave hopen, hleads.level⟩
  · rw [if_neg hroom, if_neg hroom]
    exact failHere _ s hs hdepth

end Agree
end Parse
end LexicalScoping
