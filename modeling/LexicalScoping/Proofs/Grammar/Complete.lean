import LexicalScoping.Proofs.Grammar.RebuildStatement

/-!
# Every well-shaped program is read

The statements of a well-shaped program come back from the tokens that spell them, unless somewhere
in them more levels are open than may be. Then the reading fails at the first token of the first
statement or expression for which that is so.
-/
namespace LexicalScoping

/-- No statement begins with the end of input. -/
theorem not_beginsStatement_of_endOfInput (kind : Kind) (h : decide (kind = .endOfInput)) :
    ¬ BeginsStatement kind := by
  have hkind : kind = .endOfInput := of_decide_eq_true h
  apply not_beginsStatement_of_endsCase
  rw [hkind]
  rfl

namespace Place

theorem tooDeep_iff (place : Place) : place.tooDeep ↔ maxNesting < place.level := by
  rw [tooDeep, decide_eq_true_iff]

/-- None of the places is too deep if no level is above the limit. -/
theorem find?_tooDeep_eq_none {places : List Place}
    (h : ∀ place ∈ places, place.level ≤ maxNesting) : places.find? tooDeep = none := by
  rw [List.find?_eq_none]
  intro place hplace hdeep
  have hle := h place hplace
  rw [tooDeep_iff] at hdeep
  omega

/-- The first place that is too deep is the one before which no level is above the limit. -/
theorem find?_tooDeep_eq_some {before after : List Place} {place : Place}
    (hbefore : ∀ earlier ∈ before, earlier.level ≤ maxNesting) (hdeep : maxNesting < place.level) :
    (before ++ place :: after).find? tooDeep = some place := by
  have hplace : place.tooDeep = true := (tooDeep_iff place).2 hdeep
  rw [List.find?_append, find?_tooDeep_eq_none hbefore, Option.none_or, List.find?_cons, hplace]

end Place

namespace Program

variable {list : List Stmt} {part rest : List Token} {stop : Token}

/-- A parser that starts with the tokens of a well-shaped program rebuilds it. -/
theorem run_of_wellShaped (hw : Stmt.WellShapedAll list)
    (hfits : List.Forall₂ Sign.Fits (Stmt.spellings list) part) (hstop : stop.kind = .endOfInput)
    (rest : List Token) :
    match (Stmt.placesAll .top 0 list).find? Place.tooDeep with
    | none => ∃ list' s, run (part ++ stop :: rest) = (.ok list', s) ∧
        Stmt.bareAll list' = Stmt.bareAll list
    | some place => ∃ token s, part[place.start]? = some token ∧
        run (part ++ stop :: rest) =
          (.error (token.diagnostic (.nestingTooDeep maxNesting)), s) := by
  obtain ⟨ends, -, hat⟩ := ParseState.exists_at_ofTokens (part ++ stop :: rest)
  have hends : Ended (part ++ stop :: rest ++ ends) := (ParseState.closed_ofTokens _).ended hat
  have hlength : (Stmt.spellings list).length = part.length := hfits.length_eq
  have hspelt : Spelt (part ++ stop :: rest ++ ends) 0 (Stmt.spellings list) := by
    have hpart := spelt_of_forall₂ hfits [] (stop :: rest ++ ends)
    simpa using hpart
  have hnext : Next (part ++ stop :: rest ++ ends)
      (Place.top.start + 0 + (Stmt.spellings list).length)
      (fun token => decide (token.kind = .endOfInput) ∧ token.kind ≠ .elseWord) := by
    intro token htoken
    have hfirst : token = stop := by
      have hget : (part ++ stop :: rest ++ ends)[part.length]? = some stop := by simp
      rw [hlength, show Place.top.start + 0 + part.length = part.length from Nat.zero_add _,
        hget] at htoken
      exact (Option.some.inj htoken).symm
    rw [hfirst, hstop]
    decide
  have hrebuilds := rebuilds_statements Place.top not_beginsStatement_of_endOfInput hw
    (Stmt.rebuilt_of_mem hends hw) 0 (Nat.lt_succ_self maxNesting) hnext
  have hrun := hrebuilds (ParseState.ofTokens (part ++ stop :: rest)) hat
    (by unfold ParseState.ofTokens; split <;> rfl) hspelt
  cases hfind : (Stmt.placesAll .top 0 list).find? Place.tooDeep with
  | none =>
    rw [hfind] at hrun
    obtain ⟨list', s, heq, hbare, -⟩ := hrun
    exact ⟨list', s, heq, hbare⟩
  | some place =>
    rw [hfind] at hrun
    obtain ⟨token, s, htoken, hlt, heq⟩ := hrun
    have hinside : place.start < part.length := by
      rw [← hlength]
      simpa [Place.top] using hlt
    refine ⟨token, s, ?_, heq⟩
    rw [← htoken, List.append_assoc, List.getElem?_append_left hinside]

/-- Tokens that spell a well-shaped program are read to that program, up to the numbers of its
references and the stretches of its nodes, if no level in it is above the limit. Otherwise the
first statement or expression on a level above the limit is rejected at its first token. -/
theorem parse_of_wellShaped (hw : Stmt.WellShapedAll list)
    (hfits : List.Forall₂ Sign.Fits (Stmt.spellings list) part) (hstop : stop.kind = .endOfInput) :
    ((∀ place ∈ Stmt.placesAll .top 0 list, place.level ≤ maxNesting) →
        ∃ program, parse (part ++ stop :: rest) = .ok program ∧
          Stmt.bareAll program.statements = Stmt.bareAll list) ∧
      ∀ before place after, Stmt.placesAll .top 0 list = before ++ place :: after →
        (∀ earlier ∈ before, earlier.level ≤ maxNesting) → maxNesting < place.level →
          ∃ token, part[place.start]? = some token ∧
            parse (part ++ stop :: rest) =
              .error (token.diagnostic (.nestingTooDeep maxNesting)) := by
  have hrun := run_of_wellShaped hw hfits hstop rest
  refine ⟨fun hshallow => ?_, fun before place after hplaces hbefore hdeep => ?_⟩
  · rw [Place.find?_tooDeep_eq_none hshallow] at hrun
    obtain ⟨list', s, heq, hbare⟩ := hrun
    exact ⟨⟨list', s.given⟩, by rw [parse, heq], hbare⟩
  · rw [hplaces, Place.find?_tooDeep_eq_some hbefore hdeep] at hrun
    obtain ⟨token, s, htoken, heq⟩ := hrun
    exact ⟨token, htoken, by rw [parse, heq]⟩

/-- The statements of `if (a) o.x = b - c - a; else print a;`. -/
def branchingProgram : List Stmt :=
  let name (text : String) : Token := .bare .identifier text
  let read (text : String) : Expr := .read ⟨0, name text⟩
  let minus (left right : Expr) : Expr := .binary .strict left (.bare .dash "-") right default
  let value : Expr := minus (minus (read "b") (read "c")) (read "a")
  [.ifElse (read "a") (.expression (.set (read "o") (name "x") value default) default)
    (some (.print (read "a") default)) default]

/-- The text of that program. -/
def branchingText : List Token :=
  [.bare .ifWord "if", .bare .openParen "(", .bare .identifier "a", .bare .closeParen ")",
    .bare .identifier "o", .bare .dot ".", .bare .identifier "x", .bare .assignment "=",
    .bare .identifier "b", .bare .dash "-", .bare .identifier "c", .bare .dash "-",
    .bare .identifier "a", .bare .semicolon ";", .bare .elseWord "else", .bare .printWord "print",
    .bare .identifier "a", .bare .semicolon ";"]

/-- A name in so many parentheses. -/
def grouped : Nat → Expr
  | 0 => .read ⟨0, .bare .identifier "a"⟩
  | n + 1 => .grouping (grouped n) default

theorem wellShaped_grouped (n : Nat) : (grouped n).WellShaped := by
  induction n with
  | zero => rfl
  | succ n ih => exact ih

/-- The text of the name in so many parentheses, as a statement. -/
def groupedText (n : Nat) : List Token :=
  List.replicate n (.bare .openParen "(") ++
    .bare .identifier "a" :: (List.replicate n (.bare .closeParen ")") ++ [.bare .semicolon ";"])

/-- A branching program is read, and a name in 127 parentheses is rejected where it stands. -/
theorem parse_branchingText_groupedText :
    (∃ program, parse (branchingText ++ [.bare .endOfInput "EOF"]) = .ok program ∧
      Stmt.bareAll program.statements = Stmt.bareAll branchingProgram) ∧
    parse (groupedText 127 ++ [.bare .endOfInput "EOF"]) =
      .error ((Token.bare .identifier "a").diagnostic (.nestingTooDeep maxNesting)) := by
  constructor
  · have hw : Stmt.WellShapedAll branchingProgram := by
      simp [branchingProgram, Stmt.WellShapedAll, Stmt.WellShaped, Expr.WellShaped, Stmt.EndsOpen,
        Token.bare, Expr.power, binaryPower]
      decide
    have hfits : List.Forall₂ Sign.Fits (Stmt.spellings branchingProgram) branchingText := by
      decide
    have hshallow : ∀ place ∈ Stmt.placesAll .top 0 branchingProgram,
        place.level ≤ maxNesting := by decide
    exact (parse_of_wellShaped hw hfits rfl).1 hshallow
  · let list : List Stmt := [.expression (grouped 127) default]
    let places := Stmt.placesAll .top 0 list
    have hw : Stmt.WellShapedAll list := ⟨wellShaped_grouped 127, trivial⟩
    have hfits : List.Forall₂ Sign.Fits (Stmt.spellings list) (groupedText 127) := by
      decide +kernel
    have hplaces : places = places.take 128 ++ ⟨129, 0, 127⟩ :: [] := by decide +kernel
    have hbefore : ∀ earlier ∈ places.take 128, earlier.level ≤ maxNesting := by decide +kernel
    have hstop : (Token.bare .endOfInput "EOF").kind = .endOfInput := rfl
    obtain ⟨token, htoken, h⟩ :=
      (parse_of_wellShaped hw hfits hstop).2 _ _ _ hplaces hbefore (by decide)
    have hname : (groupedText 127)[127]? = some (.bare .identifier "a") := by decide +kernel
    rw [h, Option.some.inj (htoken.symm.trans hname)]

end Program
end LexicalScoping
