import LexicalScoping.Token.Lexeme
import Mathlib.Algebra.Group.Nat.Even

/-!
# Which quote closes a string literal

A backslash takes away the meaning of the character behind it, be it a quote or another backslash.
So behind an opening quote, a quote closes the literal exactly if the number of backslashes directly
before it is even (`Closes`), and the first such quote is the one that the lexer finds. Taking
characters off the front, two at a time behind a backslash, keeps the parity of every later run.
-/
namespace LexicalScoping

/-- How many backslashes stand directly before a place of the text. -/
def backslashesBefore (text : List Char) (place : Nat) : Nat :=
  ((text.take place).reverse.takeWhile (· = '\\')).length

/-- At the place there is a quote with an even number of backslashes directly before it. -/
def Closes (text : List Char) (place : Nat) : Prop :=
  text[place]? = some '"' ∧ Even (backslashesBefore text place)

/-- The place is the first where a quote closes. -/
def ClosesFirst (text : List Char) (place : Nat) : Prop :=
  Closes text place ∧ ∀ earlier < place, ¬ Closes text earlier

/-- A run that reaches a character other than a backslash ends there. -/
theorem backslashesBefore_cons {c : Char} (h : c ≠ '\\') (rest : List Char) (place : Nat) :
    backslashesBefore (c :: rest) (place + 1) = backslashesBefore rest place := by
  have hnone : [c].takeWhile (· = '\\') = [] := by simp [h]
  unfold backslashesBefore
  rw [List.take_succ_cons, List.reverse_cons, List.takeWhile_append, hnone, List.append_nil]
  split
  · next hall => exact hall.symm
  · rfl

/-- A run that reaches a backslash and the character behind it ends before or behind them both. -/
theorem even_backslashesBefore_escaped (c : Char) (rest : List Char) (place : Nat) :
    Even (backslashesBefore ('\\' :: c :: rest) (place + 2)) ↔
      Even (backslashesBefore rest place) := by
  by_cases hc : c = '\\'
  · have htwo : ['\\', '\\'].takeWhile (· = '\\') = ['\\', '\\'] := by decide
    subst hc
    unfold backslashesBefore
    rw [List.take_succ_cons, List.take_succ_cons, List.reverse_cons, List.reverse_cons,
      List.append_assoc, List.takeWhile_append, List.singleton_append, htwo]
    split
    · next hall =>
      have heven : Even (['\\', '\\'] : List Char).length := by decide
      rw [List.length_append, ← hall, Nat.even_add, iff_true_right heven]
    · exact Iff.rfl
  · have hnone : [c, '\\'].takeWhile (· = '\\') = [] := by simp [hc]
    unfold backslashesBefore
    rw [List.take_succ_cons, List.take_succ_cons, List.reverse_cons, List.reverse_cons,
      List.append_assoc, List.takeWhile_append, List.singleton_append, hnone, List.append_nil]
    split
    · next hall => rw [hall]
    · exact Iff.rfl

theorem closes_zero_iff (c : Char) (rest : List Char) : Closes (c :: rest) 0 ↔ c = '"' := by
  simp [Closes, backslashesBefore]

theorem closes_cons_iff {c : Char} (h : c ≠ '\\') (rest : List Char) (place : Nat) :
    Closes (c :: rest) (place + 1) ↔ Closes rest place := by
  unfold Closes
  rw [List.getElem?_cons_succ, backslashesBefore_cons h]

theorem closes_escaped_iff (c : Char) (rest : List Char) (place : Nat) :
    Closes ('\\' :: c :: rest) (place + 2) ↔ Closes rest place := by
  unfold Closes
  rw [List.getElem?_cons_succ, List.getElem?_cons_succ, even_backslashesBefore_escaped]

/-- Neither a backslash nor the character behind it closes. -/
theorem exists_of_closes_escaped {c : Char} {rest : List Char} {place : Nat}
    (h : Closes ('\\' :: c :: rest) place) : ∃ later, place = later + 2 ∧ Closes rest later := by
  rcases place with _ | _ | later
  · exact absurd ((closes_zero_iff _ _).1 h) (by decide)
  · have hone : ¬ Even (backslashesBefore ('\\' :: c :: rest) 1) := Nat.not_even_one
    exact absurd h.2 hone
  · exact ⟨later, rfl, (closes_escaped_iff c rest later).1 h⟩

/-- Any other character that is no quote does not close. -/
theorem exists_of_closes_cons {c : Char} (hquote : c ≠ '"') (hbackslash : c ≠ '\\')
    {rest : List Char} {place : Nat} (h : Closes (c :: rest) place) :
    ∃ later, place = later + 1 ∧ Closes rest later := by
  cases place with
  | zero => exact absurd ((closes_zero_iff c rest).1 h) hquote
  | succ later => exact ⟨later, rfl, (closes_cons_iff hbackslash rest later).1 h⟩

/-- The lexer finds the first quote that closes, and takes the text up to it. -/
theorem exists_closesFirst {source text : List Char} (h : closedString? source = some text) :
    ∃ place, ClosesFirst source place ∧ text = source.take (place + 1) := by
  fun_induction closedString? source generalizing text with
  | case1 => cases h
  | case2 rest =>
    cases h
    exact ⟨0, ⟨(closes_zero_iff '"' rest).2 rfl, by simp⟩, rfl⟩
  | case3 => cases h
  | case4 c rest _ ih =>
    obtain ⟨inner, hinner, rfl⟩ := Option.map_eq_some_iff.1 h
    obtain ⟨place, ⟨hcloses, hfirst⟩, rfl⟩ := ih hinner
    refine ⟨place + 2, ⟨(closes_escaped_iff c rest place).2 hcloses, ?_⟩, rfl⟩
    intro earlier hlt hearlier
    obtain ⟨later, rfl, hlater⟩ := exists_of_closes_escaped hearlier
    exact hfirst later (by omega) hlater
  | case5 c rest hquote hbackslash ih =>
    obtain ⟨inner, hinner, rfl⟩ := Option.map_eq_some_iff.1 h
    obtain ⟨place, ⟨hcloses, hfirst⟩, rfl⟩ := ih hinner
    refine ⟨place + 1, ⟨(closes_cons_iff hbackslash rest place).2 hcloses, ?_⟩, rfl⟩
    intro earlier hlt hearlier
    obtain ⟨later, rfl, hlater⟩ := exists_of_closes_cons hquote hbackslash hearlier
    exact hfirst later (by omega) hlater

/-- The lexer finds no end of a string literal only if no quote closes it. -/
theorem not_closes_of_closedString?_eq_none {source : List Char}
    (h : closedString? source = none) (place : Nat) : ¬ Closes source place := by
  fun_induction closedString? source generalizing place with
  | case1 => simp [Closes]
  | case2 => cases h
  | case3 =>
    cases place with
    | zero => exact fun hzero => absurd ((closes_zero_iff _ _).1 hzero) (by decide)
    | succ place => simp [Closes]
  | case4 c rest _ ih =>
    intro hcloses
    obtain ⟨later, rfl, hlater⟩ := exists_of_closes_escaped hcloses
    exact ih (by simpa using h) later hlater
  | case5 c rest hquote hbackslash ih =>
    intro hcloses
    obtain ⟨later, rfl, hlater⟩ := exists_of_closes_cons hquote hbackslash hcloses
    exact ih (by simpa using h) later hlater

theorem closedString?_eq_none_iff {source : List Char} :
    closedString? source = none ↔ ∀ place, ¬ Closes source place := by
  constructor
  · exact not_closes_of_closedString?_eq_none
  · intro hnever
    cases h : closedString? source with
    | none => rfl
    | some text =>
      obtain ⟨place, hfirst, -⟩ := exists_closesFirst h
      exact absurd hfirst.1 (hnever place)

/-- If quotes close, the lexer takes the text up to the first that does. -/
theorem closedString?_of_closesFirst {source : List Char} {place : Nat}
    (h : ClosesFirst source place) : closedString? source = some (source.take (place + 1)) := by
  cases hclosed : closedString? source with
  | none => exact absurd h.1 (closedString?_eq_none_iff.1 hclosed place)
  | some text =>
    obtain ⟨other, hother, rfl⟩ := exists_closesFirst hclosed
    have hle : place ≤ other := Nat.le_of_not_lt fun hlt => h.2 other hlt hother.1
    have hge : other ≤ place := Nat.le_of_not_lt fun hlt => hother.2 place hlt h.1
    rw [Nat.le_antisymm hle hge]

end LexicalScoping
