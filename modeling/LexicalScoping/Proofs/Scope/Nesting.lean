import LexicalScoping.Proofs.Grammar.Complete
import LexicalScoping.Proofs.Grammar.Levels
import LexicalScoping.Proofs.Scope.Calls

/-!
# What the limit on levels bounds

The limit bounds the levels of a program that was read, and not the paths in it: these are longer by
the nodes that share their level with the node above them. A path keeps to the limit exactly if it
has no more of these nodes than its levels leave room for, and then the walk over the program keeps
to the limit too. The walk over a program in which no `return` stands outside of all functions keeps
to the limit only then. There is no limit on sums of many operands, so paths may be as long as one
likes.
-/
namespace LexicalScoping
namespace Program

/-- In a program that was read no level is above the limit. Its paths and the open calls of the walk
over it keep to the limit exactly if on every path the nodes that share their level are no more than
the levels leave room for. The open calls alone do so exactly then, if the walk goes down all paths,
which it does unless it reports a `return` outside of all functions. -/
theorem depth_le_iff_shared_le {tokens : List Token} {program : Program}
    (h : parse tokens = .ok program) :
    (∀ place ∈ program.places, place.level ≤ maxNesting) ∧
      (((∀ place ∈ program.places, place.depth ≤ maxNesting) ∧
          ∀ reported, (CountedWalk.program reported program.statements).peak ≤ maxNesting) ↔
        ∀ place ∈ program.places, place.shared ≤ maxNesting - place.level) ∧
      ∀ reported, (Walk.program reported program.statements).ReturnsInside →
        ((CountedWalk.program reported program.statements).peak ≤ maxNesting ↔
          ∀ place ∈ program.places, place.shared ≤ maxNesting - place.level) := by
  have hlevels : Shallow program.places := shallow_of_parse h
  have hroom : (∀ place ∈ program.places, place.depth ≤ maxNesting) ↔
      ∀ place ∈ program.places, place.shared ≤ maxNesting - place.level := by
    refine forall₂_congr fun place hplace => ?_
    have hlevel : place.level ≤ maxNesting := hlevels place hplace
    show place.level + place.shared ≤ maxNesting ↔ _
    omega
  have hpeak : (∀ place ∈ program.places, place.depth ≤ maxNesting) →
      ∀ reported, (CountedWalk.program reported program.statements).peak ≤ maxNesting :=
    fun hdepths reported =>
      CountedWalk.peak_program_le reported program.statements maxNesting hdepths
  refine ⟨hlevels, ?_, fun reported hreturns => ?_⟩
  · rw [← hroom, and_iff_left_iff_imp]
    exact hpeak
  · rw [← hroom]
    constructor
    · intro hle place hplace
      exact Nat.le_trans (CountedWalk.depth_le_peak_program hreturns place hplace) hle
    · exact fun hdepths => hpeak hdepths reported

/-- A name with so many more of it added to it. -/
def summed : Nat → Expr
  | 0 => .read ⟨0, .bare .identifier "a"⟩
  | n + 1 => .binary .strict (summed n) (.bare .plus "+") (.read ⟨0, .bare .identifier "a"⟩) default

/-- The tokens of such a sum. -/
def summedTokens : Nat → List Token
  | 0 => [.bare .identifier "a"]
  | n + 1 => summedTokens n ++ [.bare .plus "+", .bare .identifier "a"]

/-- The text of such a sum, as a statement. -/
def summedText (n : Nat) : List Token :=
  summedTokens n ++ [.bare .semicolon ";", .bare .endOfInput "EOF"]

/-- With 126 names added, the longest paths just keep to the limit. -/
theorem depth_le_summedText : ∃ program, parse (summedText 126) = .ok program ∧
    (∀ place ∈ program.places, place.depth ≤ maxNesting) ∧
      ∀ reported, (CountedWalk.program reported program.statements).peak ≤ maxNesting := by
  obtain ⟨program, h, hshared⟩ : ∃ program, parse (summedText 126) = .ok program ∧
      ∀ place ∈ program.places, place.shared ≤ maxNesting - place.level :=
    ⟨_, eq_ok_get (by decide +kernel), by decide +kernel⟩
  exact ⟨program, h, (depth_le_iff_shared_le h).2.1.2 hshared⟩

/-- With one name more, a path passes through more nodes than the limit says, and the walk has as
many calls open at once. -/
theorem maxNesting_lt_depth_summedText : ∃ program, parse (summedText 127) = .ok program ∧
    (∃ place ∈ program.places, maxNesting < place.depth) ∧
      maxNesting < (CountedWalk.program #[] program.statements).peak :=
  ⟨_, eq_ok_get (by decide +kernel), by decide +kernel, by decide +kernel⟩

/-! ## There is no limit on paths -/

theorem wellShaped_summed (n : Nat) :
    (summed n).WellShaped ∧ Power.additive ≤ (summed n).power := by
  induction n with
  | zero => exact ⟨rfl, by decide⟩
  | succ n ih =>
    obtain ⟨hshape, hpower⟩ := ih
    exact ⟨⟨⟨.additive, rfl, hpower, by decide⟩, hshape, rfl⟩, Nat.le_refl _⟩

theorem fits_summed (n : Nat) :
    List.Forall₂ Sign.Fits (summed n).spelling (summedTokens n) := by
  induction n with
  | zero => exact .cons (by decide) .nil
  | succ n ih => exact List.rel_append ih (.cons (by decide) (.cons (by decide) .nil))

/-- All operands of a sum are on its level or one inside it. -/
theorem level_le_of_mem_summed (n : Nat) (place : Place) :
    ∀ inner ∈ (summed n).places place, inner.level ≤ place.level + 1 := by
  induction n generalizing place with
  | zero => simp [summed, Expr.places]
  | succ n ih =>
    have hleft := ih (place.sharing 0)
    simp only [summed, Expr.places, List.mem_cons, List.mem_append, List.not_mem_nil, or_false]
    rintro inner (rfl | hinner | rfl)
    · omega
    · exact hleft inner hinner
    · exact Nat.le_refl _

/-- The first name of a sum has the whole sum above it. -/
theorem exists_depth_of_bare_eq (n : Nat) {e : Expr} (place : Place)
    (h : e.bare = (summed n).bare) : ∃ inner ∈ e.places place, inner.depth = place.depth + n := by
  induction n generalizing e place with
  | zero =>
    obtain ⟨children, hchildren⟩ := e.exists_places place
    exact ⟨place, by simp [hchildren], rfl⟩
  | succ n ih =>
    cases e with
    | binary evaluation left operator right span =>
      simp only [summed, Expr.bare, Expr.binary.injEq] at h
      obtain ⟨inner, hinner, hdepth⟩ := ih (place.sharing 0) h.2.1
      refine ⟨inner, by simp [Expr.places, hinner], ?_⟩
      rw [hdepth]
      show place.level + (place.shared + 1) + n = place.level + place.shared + (n + 1)
      omega
    | _ => simp [summed, Expr.bare] at h

/-- Sums of any length are read, and the paths in them are as long. -/
theorem exists_depth_summedText (n : Nat) : ∃ program, parse (summedText n) = .ok program ∧
    ∃ place ∈ program.places, place.depth = n + 2 := by
  have hw : Stmt.WellShapedAll [.expression (summed n) default] :=
    ⟨(wellShaped_summed n).1, trivial⟩
  have hfits : List.Forall₂ Sign.Fits (Stmt.spellings [.expression (summed n) default])
      (summedTokens n ++ [.bare .semicolon ";"]) := by
    have hsemicolon : List.Forall₂ Sign.Fits [.ofKind .semicolon] [.bare .semicolon ";"] :=
      .cons (by decide) .nil
    simpa [Stmt.spellings, Stmt.spelling] using List.rel_append (fits_summed n) hsemicolon
  have hstop : (Token.bare .endOfInput "EOF").kind = .endOfInput := rfl
  have hlevels : ∀ place ∈ Stmt.placesAll .top 0 [.expression (summed n) default],
      place.level ≤ maxNesting := by
    have he := level_le_of_mem_summed n ((Place.top.inside 0).inside 0)
    simp only [Stmt.placesAll, Stmt.places, List.append_nil, List.mem_cons]
    rintro place (rfl | hplace)
    · decide
    · exact Nat.le_trans (he place hplace) (by decide)
  have hrun := run_of_wellShaped hw hfits hstop []
  rw [Place.find?_tooDeep_eq_none hlevels] at hrun
  obtain ⟨list, s, heq, hbare⟩ := hrun
  have htext : summedTokens n ++ [.bare .semicolon ";"] ++ [.bare .endOfInput "EOF"] =
      summedText n := by simp [summedText]
  rw [htext] at heq
  refine ⟨⟨list, s.given⟩, by rw [parse, heq], ?_⟩
  cases list with
  | nil => cases hbare
  | cons stmt rest =>
    have hstmt : stmt.bare = .expression (summed n).bare default := (List.cons.inj hbare).1
    cases stmt with
    | expression e span =>
      obtain ⟨place, hplace, hdepth⟩ :=
        exists_depth_of_bare_eq n ((Place.top.inside 0).inside 0) (Stmt.expression.inj hstmt).1
      refine ⟨place, by simp [places, Stmt.placesAll, Stmt.places, hplace], ?_⟩
      rw [hdepth]
      exact Nat.add_comm _ _
    | ifElse condition thenBody elseBody span => cases elseBody <;> cases hstmt
    | _ => cases hstmt

end Program
end LexicalScoping
