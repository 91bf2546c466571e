import LexicalScoping.Proofs.Token.Munch
import LexicalScoping.Proofs.Token.Quotes

/-!
# Every text is the value of a string literal

A text is written as a string literal by putting the six characters that have an escape letter
behind a backslash and leaving all others as they are. What stands between the quotes then holds no
quote that closes, so the lexer takes the whole literal, and decodes it to the text again. A
quotation differs from the literal only where it shows a character by its number, which a literal
never does. Both facts go through the text character by character: a pair with a backslash and a
plain character keep the parity of every later run of backslashes.
-/
namespace LexicalScoping

namespace Text

/-- A string literal whose value is the text. -/
def literalText (text : String) : String := String.ofList ('"' :: escape text.toList ++ ['"'])

/-- At the place a character is shown by its number, behind a backslash that is not itself behind
one. -/
def NumberedAt (shown : List Char) (place : Nat) : Prop :=
  (∃ c, numberedChar c <+: shown.drop place) ∧ Even (backslashesBefore shown place)

theorem escape_cons (c : Char) (text : List Char) :
    escape (c :: text) = escapeChar c ++ escape text := List.flatMap_cons

theorem escapeChar_of_letter {c letter : Char} (h : escapeLetter? c = some letter) :
    escapeChar c = ['\\', letter] := by
  rw [escapeChar, h]

theorem escapeChar_of_none {c : Char} (h : escapeLetter? c = none) : escapeChar c = [c] := by
  rw [escapeChar, h]

/-- A quote has a letter, so a character without one is no quote. -/
theorem ne_quote_of_escapeLetter? {c : Char} (h : escapeLetter? c = none) : c ≠ '"' := by
  rintro rfl
  cases h

theorem escapeLetter?_ne_u (c : Char) : escapeLetter? c ≠ some 'u' := by
  unfold escapeLetter?
  split <;> decide

/-- Nothing in an escaped text closes a literal. -/
theorem stringBody_escape (text : List Char) : StringBody (escape text) := by
  induction text with
  | nil => exact .nil
  | cons c text ih =>
    rw [escape_cons]
    cases h : escapeLetter? c with
    | some letter =>
      rw [escapeChar_of_letter h]
      exact .escaped letter ih
    | none =>
      rw [escapeChar_of_none h]
      exact .plain (ne_quote_of_escapeLetter? h) (ne_backslash_of_escapeLetter? h) ih

theorem numberedChar_eq (c : Char) :
    numberedChar c = '\\' :: 'u' :: '\x7b' :: (Nat.toDigits 16 c.toNat ++ ['\x7d']) := rfl

theorem not_isPrefix_numberedChar {c d : Char} (h : d ≠ '\\') (rest : List Char) :
    ¬ numberedChar c <+: d :: rest := by
  rw [numberedChar_eq, List.cons_prefix_cons]
  rintro ⟨rfl, -⟩
  exact h rfl

theorem numberedAt_cons_iff {c : Char} (h : c ≠ '\\') (rest : List Char) (place : Nat) :
    NumberedAt (c :: rest) (place + 1) ↔ NumberedAt rest place := by
  unfold NumberedAt
  rw [List.drop_succ_cons, backslashesBefore_cons h]

theorem numberedAt_escaped_iff (c : Char) (rest : List Char) (place : Nat) :
    NumberedAt ('\\' :: c :: rest) (place + 2) ↔ NumberedAt rest place := by
  unfold NumberedAt
  rw [List.drop_succ_cons, List.drop_succ_cons, even_backslashesBefore_escaped]

/-- A plain character begins no number. -/
theorem exists_of_numberedAt_cons {c : Char} (h : c ≠ '\\') {rest : List Char} {place : Nat}
    (hat : NumberedAt (c :: rest) place) : ∃ later, place = later + 1 ∧ NumberedAt rest later := by
  cases place with
  | zero =>
    obtain ⟨⟨d, hd⟩, -⟩ := hat
    exact absurd hd (not_isPrefix_numberedChar h rest)
  | succ later => exact ⟨later, rfl, (numberedAt_cons_iff h rest later).1 hat⟩

/-- A backslash and a letter other than `u` begin no number. -/
theorem exists_of_numberedAt_escaped {letter : Char} (h : letter ≠ 'u') {rest : List Char}
    {place : Nat} (hat : NumberedAt ('\\' :: letter :: rest) place) :
    ∃ later, place = later + 2 ∧ NumberedAt rest later := by
  rcases place with _ | _ | later
  · obtain ⟨⟨d, hd⟩, -⟩ := hat
    rw [List.drop_zero, numberedChar_eq, List.cons_prefix_cons, List.cons_prefix_cons] at hd
    exact absurd hd.2.1.symm h
  · exact absurd hat.2 Nat.not_even_one
  · exact ⟨later, rfl, (numberedAt_escaped_iff letter rest later).1 hat⟩

/-- An escaped text shows no character by its number, whatever is behind it that shows none. -/
theorem not_numberedAt_escape_append {tail : List Char} (htail : ∀ place, ¬ NumberedAt tail place)
    (text : List Char) (place : Nat) : ¬ NumberedAt (escape text ++ tail) place := by
  induction text generalizing place with
  | nil => exact htail place
  | cons c text ih =>
    intro hat
    rw [escape_cons] at hat
    cases h : escapeLetter? c with
    | some letter =>
      have hletter : letter ≠ 'u' := fun hu => escapeLetter?_ne_u c (hu ▸ h)
      rw [escapeChar_of_letter h] at hat
      obtain ⟨later, -, hlater⟩ := exists_of_numberedAt_escaped hletter hat
      exact ih later hlater
    | none =>
      rw [escapeChar_of_none h] at hat
      obtain ⟨later, -, hlater⟩ := exists_of_numberedAt_cons (ne_backslash_of_escapeLetter? h) hat
      exact ih later hlater

/-- If a quotation shows no character by its number, it shows all as a literal writes them. -/
theorem flatMap_quoteChar_eq_escape {tail : List Char} (text : List Char)
    (h : ∀ place, ¬ NumberedAt (text.flatMap quoteChar ++ tail) place) :
    text.flatMap quoteChar = escape text := by
  induction text with
  | nil => rfl
  | cons c text ih =>
    rw [List.flatMap_cons, List.append_assoc] at h
    rw [List.flatMap_cons, escape_cons]
    cases hletter : escapeLetter? c with
    | some letter =>
      have hquote : quoteChar c = ['\\', letter] := by rw [quoteChar, hletter]
      rw [hquote] at h
      rw [hquote, escapeChar_of_letter hletter,
        ih fun place hat => h (place + 2) ((numberedAt_escaped_iff letter _ place).2 hat)]
    | none =>
      have hplain := ne_backslash_of_escapeLetter? hletter
      by_cases hvisible : isVisible c
      · have hquote : quoteChar c = [c] := by
          rw [quoteChar, hletter]
          exact if_pos hvisible
        rw [hquote] at h
        rw [hquote, escapeChar_of_none hletter,
          ih fun place hat => h (place + 1) ((numberedAt_cons_iff hplain _ place).2 hat)]
      · have hquote : quoteChar c = numberedChar c := by
          rw [quoteChar, hletter]
          exact if_neg hvisible
        rw [hquote] at h
        exact absurd ⟨⟨c, List.prefix_append _ _⟩, Even.zero⟩ (h 0)

/-- A quotation is the literal exactly if it shows no character by its number. -/
theorem quote_eq_literalText_iff (text : String) :
    quote text = literalText text ↔ ∀ place, ¬ NumberedAt (quote text).toList place := by
  have hquote : ('"' : Char) ≠ '\\' := by decide
  constructor
  · intro heq place hat
    rw [heq, literalText, String.toList_ofList] at hat
    obtain ⟨later, -, hlater⟩ := exists_of_numberedAt_cons hquote hat
    refine not_numberedAt_escape_append (fun place hat => ?_) text.toList later hlater
    obtain ⟨later, -, ⟨c, hc⟩, -⟩ := exists_of_numberedAt_cons hquote hat
    simp [numberedChar_eq] at hc
  · intro hnone
    rw [quote, String.toList_ofList] at hnone
    rw [quote, literalText, flatMap_quoteChar_eq_escape text.toList fun place hat =>
      hnone (place + 1) ((numberedAt_cons_iff hquote _ place).2 hat)]

end Text

open Text

/-- The token of a string literal that is its whole source. -/
def literalToken (file : String) (text : String) : Token :=
  ⟨.string, literalText text, some (.string text),
    ⟨.first file, .behind file (literalText text).toList⟩⟩

theorem read_literalText (text : String) :
    Pattern.string.read (literalText text).toList = .token .string (some (.string text)) := by
  have hcontent : literalContent (literalText text).toList = escape text.toList := by
    rw [literalText, String.toList_ofList, literalContent]
    exact List.dropLast_concat
  rw [Pattern.read, hcontent, unescape_escape, String.ofList_toList]

/-- The lexer takes the whole literal. -/
theorem first?_literalText (text : String) :
    Pattern.first? (literalText text).toList = some (.string, (literalText text).toList) := by
  obtain ⟨place, hfirst, hwhole⟩ :=
    exists_closesFirst (closedString?_of_body (stringBody_escape text.toList) [])
  have hsource : (literalText text).toList = '"' :: (escape text.toList ++ ['"']) := by
    rw [literalText, String.toList_ofList]
    rfl
  rw [hsource, first?_quote hfirst, ← hwhole]

theorem tokenize_of_literal (text : String) (file : Option String) :
    tokenize (literalText text) file = .ok [literalToken (file.getD unnamedFile) text,
      Token.endAt (.behind (file.getD unnamedFile) (literalText text).toList)] := by
  have hstart : Reached (file.getD unnamedFile) (literalText text).toList [] []
      (literalText text).toList := .start
  obtain ⟨rest, hrest, hreached⟩ :=
    hstart.step_of_ne_openQuote (first?_literalText text) (by decide)
  obtain rfl : rest = [] := List.self_eq_append_right.1 hrest
  rw [read_literalText] at hreached
  rw [List.nil_append, List.nil_append, Reading.tokens, String.ofList_toList] at hreached
  exact hreached.tokenize_eq_ok

/-- Every text has a literal, which the lexer reads as one token with the text as its value. A
literal's value is displayed as that literal exactly if the display shows no character by its
number, and then reading the display gives the value back. -/
theorem tokenize_literalText (text : String) (file : Option String) :
    tokenize (literalText text) file = .ok [literalToken (file.getD unnamedFile) text,
      Token.endAt (.behind (file.getD unnamedFile) (literalText text).toList)] ∧
    ((Literal.string text).display = literalText text ↔
      ∀ place, ¬ NumberedAt (Literal.string text).display.toList place) ∧
    ((∀ place, ¬ NumberedAt (Literal.string text).display.toList place) →
      tokenize (Literal.string text).display file =
        .ok [literalToken (file.getD unnamedFile) text, Token.endAt
          (.behind (file.getD unnamedFile) (Literal.string text).display.toList)]) := by
  refine ⟨tokenize_of_literal text file, quote_eq_literalText_iff text, fun hnone => ?_⟩
  have heq : (Literal.string text).display = literalText text :=
    (quote_eq_literalText_iff text).2 hnone
  rw [heq]
  exact tokenize_of_literal text file

/-- A backslash before a quote, a line feed, and a bracketed number that is none. -/
def trickyText : String := "\\\"\n\\u\x7b41\x7dé"

theorem tokenize_display_trickyText : ∃ tokens,
    (∀ place, ¬ NumberedAt (Literal.string trickyText).display.toList place) ∧
      tokenize (Literal.string trickyText).display none = .ok tokens ∧
      tokens.map (·.literal) = [some (.string trickyText), none] := by
  have heq : (Literal.string trickyText).display = literalText trickyText := by decide
  obtain ⟨-, hiff, htokens⟩ := tokenize_literalText trickyText none
  exact ⟨_, hiff.1 heq, htokens (hiff.1 heq), rfl⟩

end LexicalScoping
