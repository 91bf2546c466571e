import LexicalScoping.Proofs.Grammar.Ensures

/-!
# Parsers do not look ahead

A parser is blind to the tokens behind the one where it stops: with any others in their place it
answers the same and leaves those others ahead. `BlindAt` says this of a run from one state, whether
it answers or fails, and `Blind` of the runs from all states whose tokens end with the end of input.
There is one rule for each way to build a parser. Reading the end of input is the one step that is
not blind, since whether it moves depends on what is behind it; so the rules that begin with a token
ask for its kind.
-/
namespace LexicalScoping

/-- The state with the given tokens behind the current one. -/
def ParseState.withAhead (s : ParseState) (ahead : List Token) : ParseState :=
  { s with after := ahead }

namespace Parse

variable {α β : Type}

/-- The run from the state takes some of the tokens ahead, and whatever is put behind these is left
there and changes nothing. -/
structure BlindAt (s : ParseState) (p : Parse α) : Prop where
  closed : (p s).2.Closed
  taken : ∃ taken, s.after = taken ++ (p s).2.after ∧
    ∀ ahead, p (s.withAhead (taken ++ ahead)) = ((p s).1, (p s).2.withAhead ahead)

/-- Every run is blind to what is behind the token where it stops. -/
def Blind (p : Parse α) : Prop := ∀ s : ParseState, s.Closed → BlindAt s p

/-- Runs the parser, and on its value one of two others: the first when tokens have been taken, and
the last when none have. -/
def ifTaken (p : Parse α) (more last : α → Parse β) : Parse β := fun s =>
  match p s with
  | (.error e, s') => (.error e, s')
  | (.ok x, s') => if s'.after.length < s.after.length then more x s' else last x s'

namespace BlindAt

variable {s : ParseState} {p : Parse α}

/-- A parser that stays where it is and sees the current token only. -/
theorem of_stays (hs : s.Closed) (hstays : ∀ ahead, (p (s.withAhead ahead)).2 = s.withAhead ahead)
    (hanswer : ∀ ahead, (p (s.withAhead ahead)).1 = (p s).1) : BlindAt s p := by
  have hstate : (p s).2 = s := hstays s.after
  refine ⟨hstate.symm ▸ hs, [], by rw [hstate]; rfl, fun ahead => ?_⟩
  rw [hstate, List.nil_append]
  exact Prod.ext (hanswer ahead) (hstays ahead)

/-- The current token is read. -/
theorem advance (hs : s.Closed) (hk : s.current.kind ≠ .endOfInput) : BlindAt s advance := by
  obtain ⟨next, rest, hafter⟩ := List.exists_cons_of_ne_nil (hs.after_ne_nil hk)
  have hnext : s.advance =
      { s with before := s.current :: s.before, current := next, after := rest } := by
    simp [ParseState.advance, hafter]
  refine ⟨hs.advance, [next], ?_, fun ahead => ?_⟩
  · show s.after = [next] ++ s.advance.after
    rw [hafter, hnext]
    rfl
  · show (_, (s.withAhead ([next] ++ ahead)).advance) = (_, s.advance.withAhead ahead)
    rw [hnext]
    rfl

/-- What fails wherever the parser does, fails as blindly. -/
theorem of_error {whole : Parse β} {e : Diagnostic} {s₁ : ParseState} (hp : BlindAt s p)
    (herror : p s = (.error e, s₁))
    (hfails : ∀ s' s₁', p s' = (.error e, s₁') → whole s' = (.error e, s₁')) :
    BlindAt s whole := by
  obtain ⟨hclosed, taken, hafter, hrun⟩ := hp
  rw [herror] at hclosed hafter hrun
  have hwhole := hfails s s₁ herror
  refine ⟨by rwa [hwhole], taken, by rwa [hwhole], fun ahead => ?_⟩
  rw [hwhole, hfails _ _ (hrun ahead)]

/-- What goes on as another parser where this one stops is blind if that one is. -/
theorem of_sequel {whole next : Parse β} {x : α} {s₁ : ParseState} (hp : BlindAt s p)
    (hok : p s = (.ok x, s₁)) (hnext : BlindAt s₁ next)
    (hgoes : ∀ taken ahead, s.after = taken ++ s₁.after →
      p (s.withAhead (taken ++ ahead)) = (.ok x, s₁.withAhead ahead) →
      whole (s.withAhead (taken ++ ahead)) = next (s₁.withAhead ahead)) : BlindAt s whole := by
  obtain ⟨-, taken, hafter, hrun⟩ := hp
  rw [hok] at hafter hrun
  obtain ⟨hclosed, taken', hafter', hrun'⟩ := hnext
  have hother := fun ahead => hgoes taken ahead hafter (hrun ahead)
  have hsame : whole s = next s₁ := by
    have hself := hother s₁.after
    rwa [← hafter] at hself
  refine ⟨by rwa [hsame], taken ++ taken', ?_, fun ahead => ?_⟩
  · rw [hsame, hafter, hafter', List.append_assoc]
  · rw [hsame, List.append_assoc, hother, hrun']

theorem bind {f : α → Parse β} (hp : BlindAt s p) (hf : ∀ x, Blind (f x)) :
    BlindAt s (p >>= f) := by
  cases hanswer : p s with
  | mk answer s₁ =>
    cases answer with
    | error e =>
      exact hp.of_error hanswer fun s' s₁' h => by rw [bind_apply, h]
    | ok x =>
      have hclosed : s₁.Closed := by simpa only [hanswer] using hp.closed
      exact hp.of_sequel hanswer (hf x s₁ hclosed) fun taken ahead _ h => by rw [bind_apply, h]

/-- What is looked at before going on is the current token. -/
theorem bind_peek {f : Token → Parse β} (hf : BlindAt s (f s.current)) : BlindAt s (peek >>= f) :=
  ⟨hf.closed, hf.taken⟩

theorem ite {condition : Prop} [Decidable condition] {q : Parse α} (hp : condition → BlindAt s p)
    (hq : ¬ condition → BlindAt s q) : BlindAt s (if condition then p else q) := by
  by_cases hc : condition
  · rw [if_pos hc]
    exact hp hc
  · rw [if_neg hc]
    exact hq hc

/-- Whether tokens have been taken is the same whatever is behind them. Where some have, only the
runs from states with fewer tokens ahead are asked about, as the loops need it. -/
theorem ifTaken {more last : α → Parse β} (hp : BlindAt s p)
    (hmore : ∀ x (s₁ : ParseState), s₁.Closed → s₁.after.length < s.after.length →
      BlindAt s₁ (more x)) (hlast : ∀ x, Blind (last x)) : BlindAt s (ifTaken p more last) := by
  cases hanswer : p s with
  | mk answer s₁ =>
    cases answer with
    | error e =>
      exact hp.of_error hanswer fun s' s₁' h => by simp only [Parse.ifTaken, h]
    | ok x =>
      have hclosed : s₁.Closed := by simpa only [hanswer] using hp.closed
      by_cases htook : s₁.after.length < s.after.length
      · refine hp.of_sequel hanswer (hmore x s₁ hclosed htook) fun taken ahead hafter h => ?_
        have htook' : (s₁.withAhead ahead).after.length <
            (s.withAhead (taken ++ ahead)).after.length := by
          rw [hafter] at htook
          simpa [ParseState.withAhead] using htook
        simp only [Parse.ifTaken, h, if_pos htook']
      · refine hp.of_sequel hanswer (hlast x s₁ hclosed) fun taken ahead hafter h => ?_
        have htook' : ¬ (s₁.withAhead ahead).after.length <
            (s.withAhead (taken ++ ahead)).after.length := by
          rw [hafter] at htook
          simpa [ParseState.withAhead] using htook
        simp only [Parse.ifTaken, h, if_neg htook']

end BlindAt

namespace Blind

variable {p : Parse α}

theorem pure (x : α) : Blind (Pure.pure x : Parse α) :=
  fun _ hs => .of_stays hs (fun _ => rfl) fun _ => rfl

theorem failHere (cause : Token → Cause) : Blind (failHere cause : Parse α) :=
  fun _ hs => .of_stays hs (fun _ => rfl) fun _ => rfl

theorem failOn (token : Token) (cause : Cause) : Blind (failOn token cause : Parse α) :=
  fun _ hs => .of_stays hs (fun _ => rfl) fun _ => rfl

/-- The end of what was read last lies behind. -/
theorem spanFrom (start : Position) : Blind (spanFrom start) :=
  fun _ hs => .of_stays hs (fun _ => rfl) fun _ => rfl

theorem freshId : Blind freshId := fun _ hs => ⟨hs, [], rfl, fun _ => rfl⟩

theorem bind {f : α → Parse β} (hp : Blind p) (hf : ∀ x, Blind (f x)) : Blind (p >>= f) :=
  fun s hs => (hp s hs).bind hf

theorem expect {kind : Kind} (hk : kind ≠ .endOfInput) : Blind (expect kind) :=
  fun s hs => .bind_peek <| .ite (fun heq => .advance hs (heq ▸ hk)) fun _ => failHere _ s hs

theorem expectBut {kind : Kind} (hk : kind ≠ .endOfInput) (wanted : String) :
    Blind (expectBut kind wanted) :=
  fun s hs => .bind_peek <| .ite (fun heq => .advance hs (heq ▸ hk)) fun _ => failHere _ s hs

theorem afterKind {kind : Kind} (hk : kind ≠ .endOfInput) (h : Blind p) :
    Blind (afterKind kind p) :=
  fun s hs => .bind_peek <| .ite
    (fun heq => (BlindAt.advance hs (heq ▸ hk)).bind fun _ => h.bind fun _ => pure _)
    fun _ => pure _ s hs

theorem unlessKind (kind : Kind) (h : Blind p) : Blind (unlessKind kind p) :=
  fun s hs => .bind_peek <| .ite (fun _ => pure _ s hs) fun _ => h.bind (fun _ => pure _) s hs

/-- How many levels are open has nothing to do with what is ahead. -/
theorem nested (h : Blind p) : Blind (nested p) := by
  intro s hs
  by_cases hroom : s.depth < maxNesting
  · have hrun : ∀ ahead, Parse.nested p (s.withAhead ahead) =
        ((p (s.opened.withAhead ahead)).1, leave (p (s.opened.withAhead ahead)).2) :=
      fun ahead => (nested_apply p _).trans (if_pos hroom)
    obtain ⟨hclosed, taken, hafter, hinside⟩ := h s.opened hs
    have hself : Parse.nested p s = ((p s.opened).1, leave (p s.opened).2) := hrun s.after
    refine ⟨by rw [hself]; exact hclosed, taken, by rw [hself]; exact hafter, fun ahead => ?_⟩
    rw [hrun, hself, hinside]
    rfl
  · have hrun : ∀ ahead, Parse.nested p (s.withAhead ahead) =
        Parse.failHere (fun _ => .nestingTooDeep maxNesting) (s.withAhead ahead) :=
      fun ahead => (nested_apply p _).trans (if_neg hroom)
    exact .of_stays hs (fun ahead => by rw [hrun]; rfl) fun ahead => by
      rw [hrun, show Parse.nested p s = _ from hrun s.after]
      rfl

end Blind

/-- Puts an item before those that the parser reads. -/
def consTo (x : α) (others : Parse (List α)) : Parse (List α) := do return x :: (← others)

theorem consTo_apply (x : α) (others : Parse (List α)) (s : ParseState) :
    consTo x others s =
      match others s with
      | (.error e, s') => (.error e, s')
      | (.ok xs, s') => (.ok (x :: xs), s') := by
  rw [consTo, bind_apply]
  cases others s with
  | mk answer s' => cases answer <;> rfl

/-- Where no kind stops the items, one is read, and the others if it has taken tokens. -/
theorem manyUntil_eq (stop : Kind → Bool) (item : Parse α) :
    manyUntil stop item = (peek >>= fun token =>
      if stop token.kind then pure []
      else ifTaken item (fun x => consTo x (manyUntil stop item)) (fun x => pure [x])) := by
  funext s
  show _ = (ite (stop s.current.kind) (pure []) (ifTaken item _ _) : Parse (List α)) s
  by_cases hstop : stop s.current.kind
  · rw [manyUntil, if_pos hstop, if_pos hstop]
    rfl
  · rw [manyUntil, if_neg hstop, if_neg hstop, ifTaken]
    cases item s with
    | mk answer s₁ =>
      cases answer with
      | error e => rfl
      | ok x =>
        simp only [consTo_apply x (manyUntil stop item) s₁]
        rfl

/-- Reads an item, and a comma behind it if there is one; answers also whether there is. -/
def beforeComma (item : Parse α) : Parse (α × Bool) := do
  let x ← item
  if (← peek).kind = .comma then
    let _ ← advance
    return (x, true)
  else return (x, false)

/-- An item is read, and others if a comma follows. -/
theorem separated_eq (item : Parse α) :
    separated item = ifTaken (beforeComma item)
      (fun (x, comma) => if comma then consTo x (separated item) else pure [x])
      (fun (x, _) => pure [x]) := by
  funext s
  rw [separated, ifTaken]
  simp only [beforeComma, bind_apply]
  cases item s with
  | mk answer s₁ =>
    cases answer with
    | error e => rfl
    | ok x =>
      simp only [peek]
      by_cases hcomma : s₁.current.kind = .comma
      · have hothers := consTo_apply x (separated item) s₁.advance
        simp only [if_pos hcomma, bind_apply, advance, pure_apply, if_true]
        exact ite_congr rfl (fun _ => hothers.symm) fun _ => rfl
      · simp only [if_neg hcomma, pure_apply]
        split <;> rfl

variable {p : Parse α}

theorem BlindAt.consTo (x : α) {others : Parse (List α)} {s : ParseState}
    (h : BlindAt s others) : BlindAt s (consTo x others) :=
  h.bind fun _ => .pure _

namespace Blind

theorem manyUntil (stop : Kind → Bool) (h : Blind p) : Blind (manyUntil stop p) := by
  intro s hs
  induction hn : s.after.length using Nat.strongRecOn generalizing s with
  | ind n ih =>
    subst hn
    rw [manyUntil_eq]
    exact .bind_peek <| .ite (fun _ => pure _ s hs) fun _ =>
      (h s hs).ifTaken (fun x s₁ hs₁ hlt => (ih _ hlt s₁ hs₁ rfl).consTo x) fun _ => pure _

theorem beforeComma (h : Blind p) : Blind (beforeComma p) :=
  h.bind fun _ s hs => .bind_peek <| .ite
    (fun heq => (BlindAt.advance hs (by rw [heq]; decide)).bind fun _ => pure _)
    fun _ => pure _ s hs

theorem separated (h : Blind p) : Blind (separated p) := by
  intro s hs
  induction hn : s.after.length using Nat.strongRecOn generalizing s with
  | ind n ih =>
    subst hn
    rw [separated_eq]
    exact (h.beforeComma s hs).ifTaken
      (fun (x, comma) s₁ hs₁ hlt =>
        .ite (fun _ => (ih _ hlt s₁ hs₁ rfl).consTo x) fun _ => pure _ s₁ hs₁)
      fun _ => pure _

theorem separatedUntil (close : Kind) (h : Blind p) : Blind (separatedUntil close p) :=
  fun s hs => .bind_peek <| .ite (fun _ => pure _ s hs) fun _ => h.separated s hs

end Blind
end Parse
end LexicalScoping
