import LexicalScoping.Proofs.Grammar.Sound

/-!
# No token is lost

Writing the statements of a program back gives the tokens before the end of input again: none is
lost, added or moved.
-/
namespace LexicalScoping

/-- The statements up to a kind that stops them end at such a token. -/
theorem ReadsStmts.stop_current {stop : Kind → Bool} {s s' : ParseState} {list : List Stmt}
    (h : ReadsStmts stop s list s') : stop s'.current.kind := by
  induction list generalizing s with
  | nil =>
    cases h with
    | nil ends => exact ends
  | cons first rest ih =>
    cases h with
    | cons _ _ others => exact ih others

/-- Tokens of which none is the end of input, with the end of input behind them, are those before
the first end of input. -/
theorem takeWhile_eq_take {tokens : List Token} {n : Nat}
    (hproper : ∀ token ∈ tokens.take n, token.kind ≠ .endOfInput)
    (hends : ∀ token, tokens[n]? = some token → token.kind = .endOfInput) :
    tokens.takeWhile (fun token => token.kind ≠ .endOfInput) = tokens.take n := by
  have hrest : (tokens.drop n).takeWhile (fun token => token.kind ≠ .endOfInput) = [] := by
    cases hd : tokens.drop n with
    | nil => rfl
    | cons token rest =>
      have hk : token.kind = .endOfInput := hends token (by
        have := congrArg (fun list => list[0]?) hd
        simpa using this)
      simp [hk]
  have hsplit : (tokens.take n ++ tokens.drop n).takeWhile
      (fun token => token.kind ≠ .endOfInput) = tokens.take n ++ (tokens.drop n).takeWhile
        (fun token => token.kind ≠ .endOfInput) :=
    List.takeWhile_append_of_pos (by simpa using hproper)
  rw [List.take_append_drop, hrest, List.append_nil] at hsplit
  exact hsplit

/-- What is put behind the tokens does not show before the first end of input. -/
theorem takeWhile_append_ends {tokens ends : List Token}
    (hends : ∀ token ∈ ends, token.kind = .endOfInput) :
    (tokens ++ ends).takeWhile (fun token => token.kind ≠ .endOfInput) =
      tokens.takeWhile (fun token => token.kind ≠ .endOfInput) := by
  have hnone : ends.takeWhile (fun token => token.kind ≠ .endOfInput) = [] := by
    cases ends with
    | nil => rfl
    | cons token ends => simp [hends token (by simp)]
  rw [List.takeWhile_append]
  split
  · next hlength =>
    rw [hnone, List.append_nil]
    exact ((List.takeWhile_prefix _).eq_of_length hlength).symm
  · rfl

namespace Program

/-- Writing a program back gives the tokens before the first end of input, in order. -/
theorem forall₂_fits_of_parse {tokens : List Token} {program : Program}
    (h : parse tokens = .ok program) :
    List.Forall₂ Sign.Fits (Stmt.spellings program.statements)
      (tokens.takeWhile fun token => token.kind ≠ .endOfInput) := by
  obtain ⟨s, -, hreads⟩ := readsStmts_of_parse h
  obtain ⟨ends, hends, hat⟩ := ParseState.exists_at_ofTokens tokens
  obtain ⟨hat', hspelt⟩ := hreads.spans (tokens ++ ends) 0 hat
  have hfits := hspelt.forall₂
  rw [List.drop_zero] at hfits
  have htake := takeWhile_eq_take (forall_ne_endOfInput_of_fits hfits) (fun token ht => by
    rw [Nat.zero_add] at hat'
    have hcurrent := hat'.current_eq ht
    have hstop := hreads.stop_current
    rw [hcurrent] at hstop
    simpa using hstop)
  rw [← takeWhile_append_ends hends, htake]
  exact hfits

/-- The text `o.x = a + self;` in which an assignment rebuilds its left operand. -/
def assigningText : List Token :=
  [.bare .identifier "o", .bare .dot ".", .bare .identifier "x", .bare .assignment "=",
    .bare .identifier "a", .bare .plus "+", .bare .selfWord "self", .bare .semicolon ";",
    .bare .endOfInput "EOF"]

theorem forall₂_fits_of_parse_assigningText : ∃ program, parse assigningText = .ok program ∧
    List.Forall₂ Sign.Fits (Stmt.spellings program.statements)
      (assigningText.takeWhile fun token => token.kind ≠ .endOfInput) := by
  obtain ⟨program, h⟩ : ∃ program, parse assigningText = .ok program :=
    ⟨_, eq_ok_get (by decide +kernel)⟩
  exact ⟨program, h, forall₂_fits_of_parse h⟩

end Program
end LexicalScoping
