import LexicalScoping.Proofs.Grammar.Derivation

/-!
# What parsers ensure

`Ensures p R` says that every successful run of the parser relates the state before it, its value
and the state after it as `R` does, as long as the tokens end with the end of input; and that they
still do so afterwards. There is one rule for each way to build a parser.
-/
namespace LexicalScoping

/-- The last token is the end of input. -/
def ParseState.Closed (s : ParseState) : Prop :=
  ∀ token, (s.current :: s.after).getLast? = some token → token.kind = .endOfInput

namespace ParseState

theorem Closed.after_ne_nil {s : ParseState} (h : s.Closed)
    (hk : s.current.kind ≠ .endOfInput) : s.after ≠ [] := by
  intro hnil
  exact hk (h s.current (by rw [hnil]; rfl))

theorem Closed.advance {s : ParseState} (h : s.Closed) : s.advance.Closed := by
  unfold ParseState.advance
  split
  · exact h
  · next next rest hr =>
    intro token ht
    apply h token
    rw [hr, List.getLast?_cons_cons]
    exact ht

/-- An end token is put behind a token list that has none there. -/
theorem getLast?_closedAfter {first : Token} {rest : List Token} {token : Token}
    (h : (first :: closedAfter first rest).getLast? = some token) : token.kind = .endOfInput := by
  induction rest generalizing first with
  | nil =>
    rw [closedAfter] at h
    split at h
    · next hk => cases h; exact hk
    · cases h; rfl
  | cons next rest ih =>
    rw [closedAfter, List.getLast?_cons_cons] at h
    exact ih h

theorem closed_ofTokens (tokens : List Token) : (ofTokens tokens).Closed := by
  intro token h
  cases tokens with
  | nil => cases h; rfl
  | cons first rest => exact getLast?_closedAfter h

end ParseState

namespace Parse

variable {α β : Type}

/-- A nested parser runs with one more level open, if there is room for it. -/
theorem nested_apply (p : Parse α) (s : ParseState) :
    nested p s =
      if s.depth < maxNesting then ((p s.opened).1, leave (p s.opened).2)
      else failHere (fun _ => .nestingTooDeep maxNesting) s := by
  by_cases hroom : s.depth < maxNesting
  · have he : enter s = (.ok (), s.opened) := if_pos hroom
    simp only [nested, bind, andThen, he, if_pos hroom]
  · have he : enter s = failHere (fun _ => .nestingTooDeep maxNesting) s := if_neg hroom
    rw [if_neg hroom]
    simp only [nested, bind, andThen, he, failHere]

theorem separatedUntil_apply (close : Kind) (p : Parse α) (s : ParseState) :
    separatedUntil close p s =
      if s.current.kind = close then (.ok [], s) else separated p s := by
  show (ite (s.current.kind = close) (pure []) (separated p) : Parse (List α)) s = _
  by_cases hk : s.current.kind = close
  · rw [if_pos hk]
    exact congrFun (if_pos hk) s
  · rw [if_neg hk]
    exact congrFun (if_neg hk) s

/-- Every successful run of the parser does what the relation says. -/
def Ensures (p : Parse α) (R : ParseState → α → ParseState → Prop) : Prop :=
  ∀ s, s.Closed → ∀ x s', p s = (.ok x, s') → R s x s' ∧ s'.Closed

/-- The current token is taken if it is not the end of input. -/
def Steps (s : ParseState) (token : Token) (s' : ParseState) : Prop :=
  token = s.current ∧ (token.kind ≠ .endOfInput → Takes token.kind s token s')

namespace Ensures

variable {p : Parse α} {R : ParseState → α → ParseState → Prop}

theorem mono (h : Ensures p R) {S : ParseState → α → ParseState → Prop}
    (hRS : ∀ s x s', R s x s' → S s x s') : Ensures p S := by
  intro s hs x s' hp
  obtain ⟨hR, hc⟩ := h s hs x s' hp
  exact ⟨hRS s x s' hR, hc⟩

theorem pure (x : α) : Ensures (Pure.pure x : Parse α) (fun s y s' => y = x ∧ s' = s) := by
  intro s hs y s' h
  cases h
  exact ⟨⟨rfl, rfl⟩, hs⟩

theorem bind {f : α → Parse β} {S : α → ParseState → β → ParseState → Prop} (hp : Ensures p R)
    (hf : ∀ x, Ensures (f x) (S x)) :
    Ensures (p >>= f) (fun s y s' => ∃ x s₁, R s x s₁ ∧ S x s₁ y s') := by
  intro s hs y s' h
  rw [bind_apply] at h
  cases hr : p s with
  | mk answer s₁ =>
    rw [hr] at h
    cases answer with
    | error e => cases h
    | ok x =>
      obtain ⟨hR, hs₁⟩ := hp s hs x s₁ hr
      obtain ⟨hS, hs'⟩ := hf x s₁ hs₁ y s' h
      exact ⟨⟨x, s₁, hR, hS⟩, hs'⟩

/-- What a parser ensures that looks at the state before it goes on. -/
theorem bind_peek {f : Token → Parse α} (hf : ∀ token, Ensures (f token) (fun s x s' =>
    s.current = token → R s x s')) : Ensures (peek >>= f) R := by
  intro s hs x s' h
  obtain ⟨hR, hc⟩ := hf s.current s hs x s' h
  exact ⟨hR rfl, hc⟩

theorem advance : Ensures advance Steps := by
  intro s hs token s' h
  cases h
  exact ⟨⟨rfl, fun hk => ⟨rfl, rfl, hk, hs.after_ne_nil hk, rfl⟩⟩, hs.advance⟩

theorem freshId : Ensures freshId (fun s id s' => id = s.given ∧ s' = s.numbered) := by
  intro s hs id s' h
  cases h
  exact ⟨⟨rfl, rfl⟩, hs⟩

theorem spanFrom (start : Position) :
    Ensures (spanFrom start) (fun s span s' => span = ⟨start, s.lastEnd⟩ ∧ s' = s) := by
  intro s hs span s' h
  cases h
  exact ⟨⟨rfl, rfl⟩, hs⟩

theorem failHere (cause : Token → Cause) : Ensures (failHere cause : Parse α) R := by
  intro s _ x s' h
  cases h

theorem failOn (token : Token) (cause : Cause) : Ensures (failOn token cause : Parse α) R := by
  intro s _ x s' h
  cases h

theorem expect {kind : Kind} (hk : kind ≠ .endOfInput) : Ensures (expect kind) (Takes kind) := by
  refine bind_peek fun token => ?_
  split
  · next heq =>
    refine advance.mono ?_
    rintro s token' s' ⟨rfl, h⟩ rfl
    exact heq ▸ h (heq ▸ hk)
  · exact failHere _

theorem expectBut {kind : Kind} (hk : kind ≠ .endOfInput) (wanted : String) :
    Ensures (expectBut kind wanted) (Takes kind) := by
  refine bind_peek fun token => ?_
  split
  · next heq =>
    refine advance.mono ?_
    rintro s token' s' ⟨rfl, h⟩ rfl
    exact heq ▸ h (heq ▸ hk)
  · exact failHere _

theorem nested (h : Ensures p R) :
    Ensures (nested p) (fun s x s' =>
      s.depth < maxNesting ∧ ∃ s₁, R s.opened x s₁ ∧ s' = leave s₁) := by
  intro s hs x s' hr
  rw [nested_apply] at hr
  split at hr
  · next hroom =>
    cases hp : p s.opened with
    | mk answer s₁ =>
      rw [hp] at hr
      cases hr
      obtain ⟨hR, hc⟩ := h s.opened hs x s₁ hp
      exact ⟨⟨hroom, s₁, hR, rfl⟩, hc⟩
  · cases hr

theorem afterKind {kind : Kind} (hk : kind ≠ .endOfInput) (h : Ensures p R) :
    Ensures (afterKind kind p) (ReadsAfter kind R) := by
  refine bind_peek fun token => ?_
  split
  · next heq =>
    refine (advance.bind fun _ => h.bind fun _ => pure _).mono ?_
    rintro s y s' ⟨mark, s₁, ⟨rfl, htakes⟩, x, s₂, hR, rfl, rfl⟩ rfl
    exact .present (heq ▸ htakes (heq ▸ hk)) hR
  · next hne =>
    refine (pure _).mono ?_
    rintro s y s' ⟨rfl, rfl⟩ rfl
    exact .absent hne

theorem unlessKind {kind : Kind} (h : Ensures p R) :
    Ensures (unlessKind kind p) (ReadsUnless kind R) := by
  refine bind_peek fun token => ?_
  split
  · next heq =>
    refine (pure _).mono ?_
    rintro s y s' ⟨rfl, rfl⟩ rfl
    exact .absent heq
  · next hne =>
    refine (h.bind fun _ => pure _).mono ?_
    rintro s y s' ⟨x, s₁, hR, rfl, rfl⟩ rfl
    exact .present hne hR

/-- Reading items one after the other ensures what holds of no item and, if it holds of some, of one
more before them. Every item has to take a token. -/
theorem manyUntil {stop : Kind → Bool} {P : ParseState → List α → ParseState → Prop}
    (h : Ensures p R) (hshort : ∀ s x s', R s x s' → s'.after.length < s.after.length)
    (hnil : ∀ s, stop s.current.kind → P s [] s)
    (hcons : ∀ s x s₁ xs s₂, stop s.current.kind = false → R s x s₁ → P s₁ xs s₂ →
      P s (x :: xs) s₂) : Ensures (manyUntil stop p) P := by
  intro s hs list s' hr
  fun_induction Parse.manyUntil stop p s generalizing list s' with
  | case1 s hstop => cases hr; exact ⟨hnil s hstop, hs⟩
  | case2 => cases hr
  | case3 => cases hr
  | case4 s hstop x s₁ hp hlt xs s₂ hmany ih =>
    cases hr
    obtain ⟨hR, hs₁⟩ := h s hs x s₁ hp
    obtain ⟨hP, hs₂⟩ := ih hs₁ xs s₂ hmany
    exact ⟨hcons s x s₁ xs s₂ (by simpa using hstop) hR hP, hs₂⟩
  | case5 s hstop x s₁ hp hge =>
    obtain ⟨hR, _⟩ := h s hs x s₁ hp
    exact absurd (hshort s x s₁ hR) hge

/-- Reading items with commas ensures what holds of one item before no comma and, if it holds of
some, of one more with a comma before them. -/
theorem separated {P : ParseState → List α → ParseState → Prop} (h : Ensures p R)
    (hshort : ∀ s x s', R s x s' → s'.after.length < s.after.length)
    (hlast : ∀ s x s₁, R s x s₁ → s₁.current.kind ≠ .comma → P s [x] s₁)
    (hmore : ∀ s x s₁ comma s₂ xs s₃, R s x s₁ → Takes .comma s₁ comma s₂ → P s₂ xs s₃ →
      P s (x :: xs) s₃) : Ensures (separated p) P := by
  intro s hs list s' hr
  fun_induction Parse.separated p s generalizing list s' with
  | case1 => cases hr
  | case2 => cases hr
  | case3 s x s₁ hp hcomma hlt xs s₂ hmany ih =>
    cases hr
    obtain ⟨hR, hs₁⟩ := h s hs x s₁ hp
    obtain ⟨hP, hs₂⟩ := ih hs₁.advance xs s₂ hmany
    have hk : s₁.current.kind ≠ .endOfInput := by rw [hcomma]; decide
    have htakes : Takes .comma s₁ s₁.current s₁.advance :=
      ⟨rfl, hcomma, by decide, hs₁.after_ne_nil hk, rfl⟩
    exact ⟨hmore s x s₁ _ _ xs s₂ hR htakes hP, hs₂⟩
  | case4 s x s₁ hp hcomma hge =>
    obtain ⟨hR, _⟩ := h s hs x s₁ hp
    have hlt := hshort s x s₁ hR
    have hle : s₁.advance.after.length ≤ s₁.after.length := by
      unfold ParseState.advance
      split <;> simp [*]
    omega
  | case5 s x s₁ hp hne =>
    cases hr
    obtain ⟨hR, hs₁⟩ := h s hs x s₁ hp
    exact ⟨hlast s x s₁ hR hne, hs₁⟩

/-- There are no items before the closing kind, and at least one before every other. -/
theorem separatedUntil {close : Kind} {P Q : ParseState → List α → ParseState → Prop}
    (h : Ensures (Parse.separated p) P) (hnone : ∀ s, s.current.kind = close → Q s [] s)
    (hsome : ∀ s list s', s.current.kind ≠ close → P s list s' → Q s list s') :
    Ensures (separatedUntil close p) Q := by
  intro s hs list s' hr
  rw [separatedUntil_apply] at hr
  split at hr
  · next hk => cases hr; exact ⟨hnone s hk, hs⟩
  · next hk =>
    obtain ⟨hP, hc⟩ := h s hs list s' hr
    exact ⟨hsome s list s' hk hP, hc⟩

end Ensures
end Parse
end LexicalScoping
