import LexicalScoping.Proofs.Grammar.Ensures
import LexicalScoping.Proofs.Grammar.Places

/-!
# What parsers rebuild

`Rebuilds` says what a parser does where the tokens ahead are spelled by a tree: if none of the
places of the tree is too deep, it reads exactly these tokens and gives a good value, and otherwise
it fails at the token of the first place that is. Parsers that run one after the other rebuild trees
that are spelled one after the other, so there is again one rule for each way to build a parser.
-/
namespace LexicalScoping

/-- Something comes behind every token but the end of input. -/
def Ended (tokens : List Token) : Prop :=
  ∀ i token, tokens[i]? = some token → token.kind ≠ .endOfInput → i + 1 < tokens.length

theorem ParseState.Closed.ended {s : ParseState} {tokens : List Token} (h : s.Closed)
    (hat : s.At tokens 0) : Ended tokens := by
  intro i token htoken hproper
  have hlt : i < tokens.length := (List.getElem?_eq_some_iff.1 htoken).1
  by_contra hlast
  have hi : i = tokens.length - 1 := by omega
  have hahead : s.current :: s.after = tokens := hat.ahead
  apply hproper
  apply h
  rw [hahead, List.getLast?_eq_getElem?, ← hi]
  exact htoken

/-- The token at that place, if there is one, is as it should be. -/
def Next (tokens : List Token) (i : Nat) (wanted : Token → Prop) : Prop :=
  ∀ token, tokens[i]? = some token → wanted token

theorem Next.imp {tokens : List Token} {i : Nat} {wanted better : Token → Prop}
    (h : Next tokens i wanted) (hwanted : ∀ token, wanted token → better token) :
    Next tokens i better := fun token htoken => hwanted token (h token htoken)

theorem Next.of_eq {tokens : List Token} {i j : Nat} {wanted : Token → Prop}
    (h : Next tokens i wanted) (hij : i = j) : Next tokens j wanted := hij ▸ h

/-- What is known of the first sign of a spelling holds of the token there. -/
theorem next_of_spelt {tokens : List Token} {i : Nat} {sign : Sign} {signs : List Sign}
    {wanted : Token → Prop} (hwanted : ∀ token, sign.Fits token → wanted token)
    (h : Spelt tokens i (sign :: signs)) : Next tokens i wanted := by
  obtain ⟨⟨token, htoken, hfits⟩, -⟩ := h
  intro token' htoken'
  obtain rfl : token = token' := Option.some.inj (htoken.symm.trans htoken')
  exact hwanted token hfits

theorem kind_of_kept {token : Token} {kind : Kind} (hkind : token.kind = kind) (token' : Token)
    (h : (Sign.kept token).Fits token') : token'.kind = kind := by
  rw [show token' = token from h.2, hkind]

/-- Where a kind is wanted a token of the kind is next. -/
theorem next_ofKind {tokens : List Token} {i : Nat} {kind : Kind} {signs : List Sign}
    (h : Spelt tokens i (.ofKind kind :: signs)) : Next tokens i (fun token => token.kind = kind) :=
  next_of_spelt (fun _ hfits => hfits.2) h

theorem Next.ne_kind {tokens : List Token} {i : Nat} {kind other : Kind}
    (h : Next tokens i (fun token => token.kind = kind)) (hother : kind ≠ other) :
    Next tokens i (fun token => token.kind ≠ other) :=
  h.imp fun _ hkind hsame => hother (hkind.symm.trans hsame)

namespace Parse

variable {α β : Type}

/-- Where the tokens from a place on are spelled by the signs, the parser reads them and gives a
good value, or it fails among them at the first place that is too deep. -/
def Rebuilds (tokens : List Token) (depth i : Nat) (p : Parse α) (signs : List Sign)
    (places : List Place) (good : α → Prop) : Prop :=
  ∀ s : ParseState, s.At tokens i → s.depth = depth → Spelt tokens i signs →
    match places.find? Place.tooDeep with
    | none => ∃ x s', p s = (.ok x, s') ∧ good x ∧ s'.At tokens (i + signs.length) ∧
        s'.depth = depth
    | some place => ∃ token s', tokens[place.start]? = some token ∧
        place.start < i + signs.length ∧
        p s = (.error (token.diagnostic (.nestingTooDeep maxNesting)), s')

namespace Rebuilds

variable {tokens : List Token} {depth i : Nat} {p : Parse α} {f : α → Parse β}
  {signs front back : List Sign} {places more : List Place} {good : α → Prop} {fine : β → Prop}

theorem mono (h : Rebuilds tokens depth i p signs places good) {better : α → Prop}
    (hgood : ∀ x, good x → better x) : Rebuilds tokens depth i p signs places better := by
  intro s hat hdepth hspelt
  have hs := h s hat hdepth hspelt
  split at hs
  · obtain ⟨x, s', hp, hx, hrest⟩ := hs
    exact ⟨x, s', hp, hgood x hx, hrest⟩
  · exact hs

theorem pure {x : α} (h : good x) :
    Rebuilds tokens depth i (Pure.pure x) [] [] good := by
  intro s hat hdepth _
  exact ⟨x, s, rfl, h, hat, hdepth⟩

/-- What is known of the tokens behind the first part may be used for it. -/
theorem bind (hp : Spelt tokens (i + front.length) back →
      Rebuilds tokens depth i p front places good)
    (hf : ∀ x, good x → Rebuilds tokens depth (i + front.length) (f x) back more fine) :
    Rebuilds tokens depth i (p >>= f) (front ++ back) (places ++ more) fine := by
  intro s hat hdepth hspelt
  obtain ⟨hfront, hback⟩ := spelt_append.1 hspelt
  have hs := hp hback s hat hdepth hfront
  rw [bind_apply, List.find?_append, List.length_append, ← Nat.add_assoc]
  cases hfind : places.find? Place.tooDeep with
  | some place =>
    rw [hfind] at hs
    obtain ⟨token, s', htoken, hlt, heq⟩ := hs
    rw [heq]
    exact ⟨token, s', htoken, by omega, rfl⟩
  | none =>
    rw [hfind] at hs
    obtain ⟨x, s', heq, hx, hat', hdepth'⟩ := hs
    rw [heq, Option.none_or]
    exact hf x hx s' hat' hdepth' hback

/-- What follows the first part opens no level. -/
theorem bind_flat (hp : Spelt tokens (i + front.length) back →
      Rebuilds tokens depth i p front places good)
    (hf : ∀ x, good x → Rebuilds tokens depth (i + front.length) (f x) back [] fine) :
    Rebuilds tokens depth i (p >>= f) (front ++ back) places fine := by
  have h := bind hp hf
  rw [List.append_nil] at h
  exact h

/-- What follows the first part reads no tokens. -/
theorem bind_last (hp : Rebuilds tokens depth i p front places good)
    (hf : ∀ x, good x → Rebuilds tokens depth (i + front.length) (f x) [] [] fine) :
    Rebuilds tokens depth i (p >>= f) front places fine := by
  have h := bind_flat (fun _ => hp) hf
  rw [List.append_nil] at h
  exact h

/-- The first part opens no level. -/
theorem bind_free (hp : Spelt tokens (i + front.length) back →
      Rebuilds tokens depth i p front [] good)
    (hf : ∀ x, good x → Rebuilds tokens depth (i + front.length) (f x) back places fine) :
    Rebuilds tokens depth i (p >>= f) (front ++ back) places fine := bind hp hf

/-- The first part opens no level and reads one token. -/
theorem bind_token {sign : Sign} (hp : Rebuilds tokens depth i p [sign] [] good)
    (hf : ∀ x, good x → Rebuilds tokens depth (i + 1) (f x) back places fine) :
    Rebuilds tokens depth i (p >>= f) (sign :: back) places fine := bind_free (fun _ => hp) hf

/-- A parser that looks at the current token before it goes on. -/
theorem bind_peek {f : Token → Parse β}
    (hf : ∀ token, tokens[i]? = some token → Spelt tokens i signs →
      Rebuilds tokens depth i (f token) signs places fine) :
    Rebuilds tokens depth i (peek >>= f) signs places fine := by
  intro s hat hdepth hspelt
  exact hf s.current hat.getElem? hspelt s hat hdepth hspelt

/-- A parser that looks at the token of the first sign. -/
theorem bind_sign {sign : Sign} {f : Token → Parse β} (hf : ∀ token, sign.Fits token →
      Rebuilds tokens depth i (f token) (sign :: signs) places fine) :
    Rebuilds tokens depth i (peek >>= f) (sign :: signs) places fine :=
  bind_peek fun token htoken hspelt =>
    hf token (next_of_spelt (fun _ hfits => hfits) hspelt token htoken)

theorem bind_spanFrom {start : Position} {f : Span → Parse β}
    (hf : ∀ span, Rebuilds tokens depth i (f span) signs places fine) :
    Rebuilds tokens depth i (spanFrom start >>= f) signs places fine := by
  intro s hat hdepth hspelt
  exact hf ⟨start, s.lastEnd⟩ s hat hdepth hspelt

theorem bind_freshId {f : Nat → Parse β}
    (hf : ∀ id, Rebuilds tokens depth i (f id) signs places fine) :
    Rebuilds tokens depth i (freshId >>= f) signs places fine := by
  intro s hat hdepth hspelt
  exact hf s.given s.numbered hat.numbered hdepth hspelt

theorem advance (hends : Ended tokens) {sign : Sign} :
    Rebuilds tokens depth i advance [sign] [] sign.Fits := by
  intro s hat hdepth hspelt
  obtain ⟨⟨token, htoken, hfits⟩, -⟩ := hspelt
  have hcurrent := hat.current_eq htoken
  have hmore := hends i token htoken hfits.1
  exact ⟨s.current, s.advance, rfl, hcurrent ▸ hfits, hat.advance (hat.after_ne_nil hmore),
    (s.advance_depth).trans hdepth⟩

/-- A token that the tree keeps is read. -/
theorem advance_kept (hends : Ended tokens) {same : Token} :
    Rebuilds tokens depth i Parse.advance [.kept same] [] (fun token => token = same) :=
  (advance hends).mono fun _ hfits => hfits.2

theorem expect (hends : Ended tokens) {kind : Kind} :
    Rebuilds tokens depth i (expect kind) [.ofKind kind] [] (fun _ => True) := by
  refine bind_sign fun token hfits => ?_
  rw [if_pos hfits.2]
  exact (advance hends).mono fun _ _ => trivial

theorem expectBut (hends : Ended tokens) {kind : Kind} {wanted : String} :
    Rebuilds tokens depth i (expectBut kind wanted) [.ofKind kind] [] (fun _ => True) := by
  refine bind_sign fun token hfits => ?_
  rw [if_pos hfits.2]
  exact (advance hends).mono fun _ _ => trivial

theorem expectBut_kept (hends : Ended tokens) {same : Token} {kind : Kind} {wanted : String}
    (hkind : same.kind = kind) :
    Rebuilds tokens depth i (Parse.expectBut kind wanted) [.kept same] []
      (fun token => token = same) := by
  refine bind_sign fun token hfits => ?_
  rw [if_pos (kind_of_kept hkind token hfits)]
  exact advance_kept hends

/-- A place that is not too deep need not be looked at. -/
theorem cons (h : Rebuilds tokens depth i p signs places good) {place : Place}
    (hlevel : place.level ≤ maxNesting) :
    Rebuilds tokens depth i p signs (place :: places) good := by
  have hfind : (place :: places).find? Place.tooDeep = places.find? Place.tooDeep := by
    have hshallow : place.tooDeep = false := by
      unfold Place.tooDeep
      exact decide_eq_false (by omega)
    rw [List.find?_cons, hshallow]
  intro s hat hdepth hspelt
  rw [hfind]
  exact h s hat hdepth hspelt

/-- A parser that has no level left fails at the current token. -/
theorem failHere {place : Place} (hstart : place.start = i) (hsigns : signs ≠ [])
    (hlevel : maxNesting < place.level) :
    Rebuilds tokens depth i (failHere fun _ => .nestingTooDeep maxNesting : Parse α) signs
      (place :: places) good := by
  have hdeep : place.tooDeep = true := decide_eq_true hlevel
  have hlength := List.length_pos_iff.2 hsigns
  intro s hat hdepth hspelt
  rw [List.find?_cons, hdeep]
  exact ⟨s.current, s, hstart ▸ hat.getElem?, by omega, rfl⟩

/-- A nested parser opens the level of the first place. -/
theorem nested {place : Place} (hstart : place.start = i) (hsigns : signs ≠ [])
    (hlevel : place.level = depth + 1)
    (h : place.level ≤ maxNesting →
      Rebuilds tokens place.level i p signs (place :: places) good) :
    Rebuilds tokens depth i (nested p) signs (place :: places) good := by
  intro s hat hdepth hspelt
  rw [nested_apply]
  by_cases hroom : s.depth < maxNesting
  · have hopened : s.opened.depth = place.level := by
      rw [hlevel, ← hdepth]
      rfl
    have hs := h (by omega) s.opened hat.opened hopened hspelt
    rw [if_pos hroom]
    split at hs
    · obtain ⟨x, s', heq, hx, hat', hdepth'⟩ := hs
      refine ⟨x, leave s', by rw [heq], hx, hat'.leave, ?_⟩
      show s'.depth - 1 = depth
      omega
    · obtain ⟨token, s', htoken, hlt, heq⟩ := hs
      exact ⟨token, leave s', htoken, hlt, by rw [heq]⟩
  · rw [if_neg hroom]
    exact failHere hstart hsigns (by omega) s hat hdepth hspelt

theorem of_eq {j : Nat} (h : Rebuilds tokens depth j p signs places good) (hij : j = i) :
    Rebuilds tokens depth i p signs places good := hij ▸ h

/-- What follows a mark is read after it. -/
theorem afterKind_some (hends : Ended tokens) {kind : Kind}
    (hp : Rebuilds tokens depth (i + 1) p signs places good) :
    Rebuilds tokens depth i (afterKind kind p) (.ofKind kind :: signs) places
      (fun value => ∃ x, value = some x ∧ good x) := by
  refine bind_sign fun token hfits => ?_
  rw [if_pos hfits.2]
  refine bind_token (advance hends) fun _ _ => bind_last hp fun x hx => ?_
  exact pure ⟨x, rfl, hx⟩

/-- Nothing is read where the mark is not. -/
theorem afterKind_none {kind : Kind} (hnext : Next tokens i (fun token => token.kind ≠ kind)) :
    Rebuilds tokens depth i (afterKind kind p) [] [] (fun value => value = none) := by
  refine bind_peek fun token htoken _ => ?_
  rw [if_neg (hnext token htoken)]
  exact pure rfl

theorem unlessKind_some {kind : Kind} (hp : Rebuilds tokens depth i p signs places good)
    (hfirst : Spelt tokens i signs → Next tokens i (fun token => token.kind ≠ kind)) :
    Rebuilds tokens depth i (unlessKind kind p) signs places
      (fun value => ∃ x, value = some x ∧ good x) := by
  refine bind_peek fun token htoken hspelt => ?_
  rw [if_neg (hfirst hspelt token htoken)]
  exact bind_last hp fun x hx => pure ⟨x, rfl, hx⟩

theorem unlessKind_none {kind : Kind} (hnext : Next tokens i (fun token => token.kind = kind)) :
    Rebuilds tokens depth i (unlessKind kind p) [] [] (fun value => value = none) := by
  refine bind_peek fun token htoken _ => ?_
  rw [if_pos (hnext token htoken)]
  exact pure rfl

/-- No items are read before a kind that stops them. -/
theorem manyUntil_nil {stop : Kind → Bool} (hnext : Next tokens i (fun token => stop token.kind)) :
    Rebuilds tokens depth i (manyUntil stop p) [] [] (fun list => list = []) := by
  intro s hat hdepth _
  have hstop : stop s.current.kind := hnext s.current hat.getElem?
  rw [manyUntil, if_pos hstop]
  exact ⟨[], s, rfl, rfl, hat, hdepth⟩

/-- One more item is read before the others. -/
theorem manyUntil_cons {stop : Kind → Bool} {fine : List α → Prop}
    (hp : Spelt tokens (i + front.length) back → Rebuilds tokens depth i p front places good)
    (hfirst : Spelt tokens i front → Next tokens i (fun token => stop token.kind = false))
    (hfront : front ≠ [])
    (hrest : Rebuilds tokens depth (i + front.length) (manyUntil stop p) back more fine) :
    Rebuilds tokens depth i (manyUntil stop p) (front ++ back) (places ++ more)
      (fun list => ∃ x rest, list = x :: rest ∧ good x ∧ fine rest) := by
  intro s hat hdepth hspelt
  obtain ⟨hspeltFront, hspeltBack⟩ := spelt_append.1 hspelt
  have hgoes : stop s.current.kind = false := hfirst hspeltFront s.current hat.getElem?
  have hs := hp hspeltBack s hat hdepth hspeltFront
  rw [manyUntil, hgoes, List.find?_append, List.length_append, ← Nat.add_assoc]
  cases hfind : places.find? Place.tooDeep with
  | some place =>
    rw [hfind] at hs
    obtain ⟨token, s', htoken, hlt, heq⟩ := hs
    exact ⟨token, s', htoken, by omega, by simp [heq]⟩
  | none =>
    rw [hfind] at hs
    obtain ⟨x, s', heq, hx, hat', hdepth'⟩ := hs
    have hshort : s'.after.length < s.after.length := by
      have h₀ := hat.length_after
      have h₁ := hat'.length_after
      have hl := List.length_pos_iff.2 hfront
      omega
    have hr := hrest s' hat' hdepth' hspeltBack
    rw [Option.none_or]
    cases hfind' : more.find? Place.tooDeep with
    | some place =>
      rw [hfind'] at hr
      obtain ⟨token, s'', htoken, hlt, heq'⟩ := hr
      exact ⟨token, s'', htoken, hlt, by simp [heq, heq', hshort]⟩
    | none =>
      rw [hfind'] at hr
      obtain ⟨rest, s'', heq', hrest', hat'', hdepth''⟩ := hr
      exact ⟨x :: rest, s'', by simp [heq, heq', hshort], ⟨x, rest, rfl, hx, hrest'⟩, hat'',
        hdepth''⟩

/-- The last item is read where no comma follows. -/
theorem separated_last (hp : Rebuilds tokens depth i p front places good)
    (hnext : Next tokens (i + front.length) (fun token => token.kind ≠ .comma)) :
    Rebuilds tokens depth i (separated p) front places (fun list => ∃ x, list = [x] ∧ good x) := by
  intro s hat hdepth hspelt
  have hs := hp s hat hdepth hspelt
  rw [separated]
  split at hs
  · obtain ⟨x, s', heq, hx, hat', hdepth'⟩ := hs
    have hcomma : s'.current.kind ≠ .comma := hnext s'.current hat'.getElem?
    exact ⟨[x], s', by simp [heq, hcomma], ⟨x, rfl, hx⟩, hat', hdepth'⟩
  · obtain ⟨token, s', htoken, hlt, heq⟩ := hs
    exact ⟨token, s', htoken, hlt, by simp [heq]⟩

/-- One more item and a comma are read before the others. -/
theorem separated_more (hends : Ended tokens) {fine : List α → Prop}
    (hp : Spelt tokens (i + front.length) (.ofKind .comma :: back) →
      Rebuilds tokens depth i p front places good)
    (hrest : Rebuilds tokens depth (i + front.length + 1) (separated p) back more fine) :
    Rebuilds tokens depth i (separated p) (front ++ .ofKind .comma :: back) (places ++ more)
      (fun list => ∃ x rest, list = x :: rest ∧ good x ∧ fine rest) := by
  intro s hat hdepth hspelt
  obtain ⟨hspeltFront, hspeltBack⟩ := spelt_append.1 hspelt
  have hs := hp hspeltBack s hat hdepth hspeltFront
  obtain ⟨⟨comma, htoken, hproper, hkind⟩, hspeltRest⟩ := hspeltBack
  have hlength : i + (front ++ .ofKind .comma :: back).length =
      i + front.length + 1 + back.length := by
    rw [List.length_append, List.length_cons]
    omega
  rw [separated, List.find?_append, hlength]
  cases hfind : places.find? Place.tooDeep with
  | some place =>
    rw [hfind] at hs
    obtain ⟨token, s', htoken, hlt, heq⟩ := hs
    exact ⟨token, s', htoken, by omega, by simp [heq]⟩
  | none =>
    rw [hfind] at hs
    obtain ⟨x, s', heq, hx, hat', hdepth'⟩ := hs
    have hcomma : s'.current.kind = .comma := by rw [hat'.current_eq htoken, hkind]
    have hnext := hat'.advance (hat'.after_ne_nil (hends _ comma htoken hproper))
    have hshort : s'.advance.after.length < s.after.length := by
      have h₀ := hat.length_after
      have h₁ := hnext.length_after
      omega
    have hr := hrest s'.advance hnext (s'.advance_depth.trans hdepth') hspeltRest
    rw [Option.none_or]
    cases hfind' : more.find? Place.tooDeep with
    | some place =>
      rw [hfind'] at hr
      obtain ⟨token, s'', htoken, hlt, heq'⟩ := hr
      exact ⟨token, s'', htoken, hlt, by simp [heq, heq', hcomma, hshort]⟩
    | none =>
      rw [hfind'] at hr
      obtain ⟨rest, s'', heq', hrest', hat'', hdepth''⟩ := hr
      exact ⟨x :: rest, s'', by simp [heq, heq', hcomma, hshort], ⟨x, rest, rfl, hx, hrest'⟩,
        hat'', hdepth''⟩

theorem separatedUntil_none {close : Kind}
    (hnext : Next tokens i (fun token => token.kind = close)) :
    Rebuilds tokens depth i (separatedUntil close p) [] [] (fun list => list = []) := by
  intro s hat hdepth _
  rw [separatedUntil_apply, if_pos (hnext s.current hat.getElem?)]
  exact ⟨[], s, rfl, rfl, hat, hdepth⟩

theorem separatedUntil_some {close : Kind} {fine : List α → Prop}
    (hp : Rebuilds tokens depth i (separated p) signs places fine)
    (hfirst : Spelt tokens i signs → Next tokens i (fun token => token.kind ≠ close)) :
    Rebuilds tokens depth i (separatedUntil close p) signs places fine := by
  intro s hat hdepth hspelt
  rw [separatedUntil_apply, if_neg (hfirst hspelt s.current hat.getElem?)]
  exact hp s hat hdepth hspelt

end Rebuilds
end Parse
end LexicalScoping
