import LexicalScoping.Proofs.Token.Layout
import LexicalScoping.Proofs.Token.Longest
import LexicalScoping.Proofs.Token.Quotes

/-!
# The lexer takes the longest text, and fails where no lexeme starts

`Reached` says which places the lexer comes to and what it has recognised before them, lexeme by
lexeme. At each of them the first pattern that fits takes the longest text of all. What is left of a
source does not influence the lexemes before a place, so the source up to the place is read into the
tokens recognised there, and a source is refused exactly if the lexer comes to a place that starts
no lexeme.
-/
namespace LexicalScoping

/-- The tokens that a reading leaves, at most one. -/
def Reading.tokens (text : List Char) (start stop : Position) : Reading → List Token
  | .token kind literal => [⟨kind, String.ofList text, literal, ⟨start, stop⟩⟩]
  | .skip => []
  | .failure _ => []

/-- Behind the text `before` the lexer has recognised the tokens and is left with `rest`. -/
inductive Reached (file : String) (source : List Char) :
    List Char → List Token → List Char → Prop
  | start : Reached file source [] [] source
  | step {before text rest : List Char} {tokens : List Token} {p : Pattern} :
    Reached file source before tokens (text ++ rest) →
    Pattern.first? (text ++ rest) = some (p, text) → (∀ cause, p.read text ≠ .failure cause) →
    Reached file source (before ++ text)
      (tokens ++ (p.read text).tokens text (.behind file before) (.behind file (before ++ text)))
      rest

/-- No text at the start of the source is a lexeme. A quote alone is none. -/
def StartsNoLexeme (source : List Char) : Prop :=
  ∀ p ∈ Pattern.table, p ≠ .openQuote → ∀ text, text <+: source → ¬ p.Matches text

/-- What the lexer reports at a character that starts no lexeme. -/
def causeAt (c : Char) : Cause :=
  if c = '"' then .unterminatedString else .unrecognisedToken (String.singleton c)

namespace Pattern

/-- Only a quote alone cannot be read: every number has a value. -/
theorem read_ne_failure {p : Pattern} (hp : p ≠ .openQuote) {text : List Char}
    (h : p.Matches text) (cause : Cause) : p.read text ≠ .failure cause := by
  cases p with
  | word =>
    simp only [read]
    split <;> simp
  | number =>
    obtain ⟨whole, hne, hwhole, htext⟩ := h
    have hvalue : ∃ value, Binary64.readDecimal? text = some value := by
      rcases htext with rfl | ⟨places, hplaces, hdigits, rfl⟩
      · exact ⟨_, Binary64.readDecimal?_digits hne hwhole⟩
      · exact ⟨_, Binary64.readDecimal?_point hne hwhole hplaces hdigits⟩
    obtain ⟨value, hvalue⟩ := hvalue
    simp [read, hvalue]
  | openQuote => contradiction
  | _ => simp [read]

/-- A lexeme is found again in every shorter source that still has it at its start. -/
theorem first?_of_prefix {source shorter text : List Char} {p : Pattern}
    (h : first? source = some (p, text)) (hshorter : shorter <+: source)
    (htext : text <+: shorter) : first? shorter = some (p, text) := by
  obtain ⟨hp, hlongest, hmore⟩ := first?_eq_some_iff.1 h
  have hstays : p.Longest shorter text :=
    ⟨htext, hlongest.fits, fun other hother => hlongest.length_le other (hother.trans hshorter)⟩
  exact first?_eq_some_iff.2 ⟨hp, hstays, fun q hq hne other hother =>
    hmore q hq hne other (hother.trans hshorter)⟩

end Pattern

/-- What the lexer does at the start of a text that is not empty. -/
theorem tokensFrom_cons (place : Position) (c : Char) (rest : List Char) :
    tokensFrom place (c :: rest) =
      match Pattern.first? (c :: rest) with
      | none => .error ⟨.unrecognisedToken (String.singleton c), place⟩
      | some (p, text) =>
        match p.read text with
        | .failure cause => .error ⟨cause, place⟩
        | .skip => tokensFrom (place.afterText text) ((c :: rest).drop text.length)
        | .token kind literal =>
          (tokensFrom (place.afterText text) ((c :: rest).drop text.length)).map
            (⟨kind, String.ofList text, literal, ⟨place, place.afterText text⟩⟩ :: ·) := by
  rw [tokensFrom]
  split
  · next hfirst => simp only [hfirst]
  · next p text hfirst =>
    have hwritten := Pattern.written_of_first? hfirst
    cases hread : p.read text <;> simp only [hfirst, hread, hwritten]

/-- One step of the lexer over a lexeme that can be read. -/
theorem tokensFrom_append {place : Position} {text rest : List Char} {p : Pattern}
    (h : Pattern.first? (text ++ rest) = some (p, text))
    (hread : ∀ cause, p.read text ≠ .failure cause) :
    tokensFrom place (text ++ rest) = (tokensFrom (place.afterText text) rest).map
      ((p.read text).tokens text place (place.afterText text) ++ ·) := by
  have hdrop : (text ++ rest).drop text.length = rest := List.drop_left
  have hne : text ++ rest ≠ [] := by
    obtain ⟨hp, hlexeme⟩ := Pattern.of_first? h
    exact List.append_ne_nil_of_left_ne_nil (Pattern.ne_nil_of_lexeme? hp hlexeme) rest
  obtain ⟨c, tail, hsource⟩ := List.exists_cons_of_ne_nil hne
  rw [hsource] at h hdrop ⊢
  rw [tokensFrom_cons, h]
  simp only [hdrop]
  cases hreading : p.read text with
  | failure cause => exact absurd hreading (hread cause)
  | skip => cases tokensFrom (place.afterText text) rest <;> rfl
  | token kind literal => rfl

theorem splitAtByte?_byteLength (text rest : List Char) :
    splitAtByte? (byteLength text) (text ++ rest) = some (text, rest) := by
  induction text with
  | nil => cases rest <;> rfl
  | cons c text ih =>
    obtain ⟨bytes, hbytes, hfits, hleft⟩ := exists_byteLength_cons c text
    rw [hbytes, List.cons_append, splitAtByte?, if_pos hfits, hleft, ih]
    rfl

namespace Scanner

/-- The move by the bytes of a text is the move over the text. -/
theorem advance?_byteLength (place : Position) (text rest : List Char) :
    (⟨place, text ++ rest⟩ : Scanner).advance? (byteLength text) =
      some ⟨place.afterText text, rest⟩ := by
  rw [advance?, splitAtByte?_byteLength]
  rfl

/-- The lexer goes on where a scanner comes to that moves by the bytes of what is written into the
token. -/
theorem exists_advance?_of_first? (scanner : Scanner) {p : Pattern} {text : List Char}
    (h : Pattern.first? scanner.rest = some (p, text))
    (hread : ∀ cause, p.read text ≠ .failure cause) :
    ∃ next, scanner.advance? (byteLength (p.written text)) = some next ∧
      tokensFrom scanner.position scanner.rest = (tokensFrom next.position next.rest).map
        ((p.read text).tokens text scanner.position next.position ++ ·) := by
  obtain ⟨position, source⟩ := scanner
  obtain ⟨rest, rfl, -, -⟩ := Pattern.exists_rest_of_first? h
  refine ⟨⟨position.afterText text, rest⟩, ?_, tokensFrom_append h hread⟩
  rw [Pattern.written_of_first? h, advance?_byteLength]

end Scanner

theorem tokensFrom_of_startsNoLexeme {place : Position} {c : Char} {after : List Char}
    (h : StartsNoLexeme (c :: after)) :
    tokensFrom place (c :: after) = .error ⟨causeAt c, place⟩ := by
  rw [tokensFrom]
  split
  · next hnone =>
    have hne : c ≠ '"' := by
      rintro rfl
      have hnever := Pattern.first?_eq_none_iff.1 hnone .openQuote (by decide) ['"']
      exact hnever ⟨after, rfl⟩ rfl
    rw [causeAt, if_neg hne]
  · next p text hfirst =>
    obtain ⟨hp, hlongest, -⟩ := Pattern.first?_eq_some_iff.1 hfirst
    have hquote : p = .openQuote := by
      by_contra hne
      exact h p hp hne text hlongest.isPrefix hlongest.fits
    subst hquote
    obtain rfl : text = ['"'] := hlongest.fits
    obtain ⟨rest, hrest⟩ := hlongest.isPrefix
    cases hrest
    rfl

/-- If some lexeme starts there, the first pattern that fits is no quote alone. -/
theorem exists_first?_of_not_startsNoLexeme {source : List Char} (h : ¬ StartsNoLexeme source) :
    ∃ p text, Pattern.first? source = some (p, text) ∧ p ≠ .openQuote := by
  unfold StartsNoLexeme at h
  push Not at h
  obtain ⟨q, hq, hne, other, hstarts, hfits⟩ := h
  cases hfirst : Pattern.first? source with
  | none => exact absurd hfits (Pattern.first?_eq_none_iff.1 hfirst q hq other hstarts)
  | some answer =>
    obtain ⟨p, text⟩ := answer
    refine ⟨p, text, rfl, ?_⟩
    rintro rfl
    obtain ⟨-, hlongest, hmore⟩ := Pattern.first?_eq_some_iff.1 hfirst
    obtain rfl : text = ['"'] := hlongest.fits
    have hlt := hmore q hq hne other hstarts hfits
    have hpos := List.length_pos_iff.2 (Pattern.ne_nil_of_matches hq hfits)
    rw [List.length_singleton] at hlt
    omega

namespace Reached

variable {file : String} {source before rest : List Char} {tokens : List Token}

theorem eq_append (h : Reached file source before tokens rest) : source = before ++ rest := by
  induction h with
  | start => rfl
  | step _ _ _ ih => rw [ih, List.append_assoc]

/-- The lexer really goes on from the place, and what it recognises there comes behind the tokens
before it. -/
theorem tokensFrom_eq (h : Reached file source before tokens rest) :
    tokensFrom (.behind file []) source =
      (tokensFrom (.behind file before) rest).map (tokens ++ ·) := by
  induction h with
  | start => cases tokensFrom (.behind file []) source <;> rfl
  | step _ hfirst hread ih =>
    rw [ih, tokensFrom_append hfirst hread, Position.afterText_behind]
    cases tokensFrom (.behind file _) _ <;> simp [Except.map]

/-- The place is reached as well if less is left behind it. -/
theorem of_prefix (h : Reached file source before tokens rest) {shorter : List Char}
    (hshorter : shorter <+: rest) : Reached file (before ++ shorter) before tokens shorter := by
  induction h generalizing shorter with
  | start => exact .start
  | @step before text rest tokens p _ hfirst hread ih =>
    have hcut : text ++ shorter <+: text ++ rest := (List.prefix_append_right_inj text).2 hshorter
    have hfirst' := Pattern.first?_of_prefix hfirst hcut (List.prefix_append text shorter)
    have hbefore := ih hcut
    rw [← List.append_assoc] at hbefore
    exact .step hbefore hfirst' hread

/-- Every token recognised is what a pattern of the table reads a text of the source as, and spans
that text. -/
theorem exists_lexeme (h : Reached file source before tokens rest) :
    ∀ t ∈ tokens, ∃ p ∈ Pattern.table, ∃ front text back, source = front ++ (text ++ back) ∧
      p.Matches text ∧ p.read text = .token t.kind t.literal ∧ t.text = String.ofList text ∧
      t.span = ⟨.behind file front, .behind file (front ++ text)⟩ := by
  induction h with
  | start => simp
  | @step before text rest tokens p hbefore hfirst hread ih =>
    rw [List.forall_mem_append]
    refine ⟨ih, fun t ht => ?_⟩
    cases hreading : p.read text with
    | failure cause => exact absurd hreading (hread cause)
    | skip =>
      rw [hreading] at ht
      cases ht
    | token kind literal =>
      rw [hreading] at ht
      obtain rfl := List.mem_singleton.1 ht
      obtain ⟨hp, hlongest, -⟩ := Pattern.first?_eq_some_iff.1 hfirst
      exact ⟨p, hp, before, text, rest, hbefore.eq_append, hlongest.fits, hreading, rfl, rfl⟩

/-- The lexer moves over a lexeme. -/
theorem step_of_ne_openQuote (h : Reached file source before tokens rest) {p : Pattern}
    {text : List Char} (hfirst : Pattern.first? rest = some (p, text)) (hne : p ≠ .openQuote) :
    ∃ rest', rest = text ++ rest' ∧ Reached file source (before ++ text) (tokens ++
      (p.read text).tokens text (.behind file before) (.behind file (before ++ text))) rest' := by
  obtain ⟨-, hlongest, -⟩ := Pattern.first?_eq_some_iff.1 hfirst
  obtain ⟨rest', rfl⟩ := hlongest.isPrefix
  exact ⟨rest', rfl, .step h hfirst (Pattern.read_ne_failure hne hlongest.fits)⟩

/-- Going on from a place, the lexer comes to the end of the source, or to a place that starts no
lexeme. -/
theorem ends {file : String} {source before rest : List Char} {tokens : List Token}
    (h : Reached file source before tokens rest) :
    (∃ tokens, Reached file source source tokens []) ∨
      ∃ before tokens c after, Reached file source before tokens (c :: after) ∧
        StartsNoLexeme (c :: after) := by
  cases hrest : rest with
  | nil =>
    subst hrest
    have hsource := h.eq_append
    rw [List.append_nil] at hsource
    subst hsource
    exact .inl ⟨tokens, h⟩
  | cons c after =>
    rw [hrest] at h
    by_cases hno : StartsNoLexeme (c :: after)
    · exact .inr ⟨before, tokens, c, after, h, hno⟩
    · obtain ⟨p, text, hfirst, hne⟩ := exists_first?_of_not_startsNoLexeme hno
      obtain ⟨hp, hlongest, -⟩ := Pattern.first?_eq_some_iff.1 hfirst
      obtain ⟨rest', hrest', hnext⟩ := h.step_of_ne_openQuote hfirst hne
      have hshorter : rest'.length < rest.length := by
        have hpos := List.length_pos_iff.2 (Pattern.ne_nil_of_matches hp hlongest.fits)
        rw [hrest, hrest', List.length_append]
        omega
      exact ends hnext
termination_by rest.length

/-- At the end of the source everything is recognised. -/
theorem tokenize_eq_ok {source : String} {option : Option String}
    (h : Reached (option.getD unnamedFile) source.toList before tokens []) :
    tokenize source option =
      .ok (tokens ++ [Token.endAt (.behind (option.getD unnamedFile) before)]) := by
  have heq := h.tokensFrom_eq
  rw [tokensFrom] at heq
  exact heq

/-- A place that starts no lexeme is where the source is refused. -/
theorem tokenize_eq_error {source : String} {option : Option String} {c : Char}
    {after : List Char}
    (h : Reached (option.getD unnamedFile) source.toList before tokens (c :: after))
    (hno : StartsNoLexeme (c :: after)) :
    tokenize source option = .error ⟨causeAt c, .behind (option.getD unnamedFile) before⟩ := by
  have heq := h.tokensFrom_eq
  rw [tokensFrom_of_startsNoLexeme hno] at heq
  exact heq

end Reached

/-- If a source is read, the lexer comes to its end. -/
theorem exists_reached_of_tokenize {source : String} {file : Option String} {tokens : List Token}
    (h : tokenize source file = .ok tokens) :
    ∃ proper, tokens = proper ++ [Token.endAt (.behind (file.getD unnamedFile) source.toList)] ∧
      Reached (file.getD unnamedFile) source.toList source.toList proper [] := by
  have hstart : Reached (file.getD unnamedFile) source.toList [] [] source.toList := .start
  rcases hstart.ends with ⟨proper, hreached⟩ | ⟨before, proper, c, after, hreached, hno⟩
  · rw [hreached.tokenize_eq_ok] at h
    cases h
    exact ⟨proper, rfl, hreached⟩
  · rw [hreached.tokenize_eq_error hno] at h
    contradiction

/-- If a source is refused, the lexer comes to a place that starts no lexeme. -/
theorem exists_reached_of_tokenize_eq_error {source : String} {file : Option String}
    {d : Diagnostic} (h : tokenize source file = .error d) :
    ∃ before tokens c after,
      Reached (file.getD unnamedFile) source.toList before tokens (c :: after) ∧
        StartsNoLexeme (c :: after) ∧
        d = ⟨causeAt c, .behind (file.getD unnamedFile) before⟩ := by
  have hstart : Reached (file.getD unnamedFile) source.toList [] [] source.toList := .start
  rcases hstart.ends with ⟨tokens, hreached⟩ | ⟨before, tokens, c, after, hreached, hno⟩
  · rw [hreached.tokenize_eq_ok] at h
    contradiction
  · rw [hreached.tokenize_eq_error hno] at h
    cases h
    exact ⟨before, tokens, c, after, hreached, hno, rfl⟩

/-- A lexeme that begins with a quote is a string literal. -/
theorem eq_string_of_matches_quote {p : Pattern} (hp : p ∈ Pattern.table) (hne : p ≠ .openQuote)
    {after text : List Char} (hstarts : text <+: '"' :: after) (hfits : p.Matches text) :
    p = .string := by
  obtain ⟨c, rest, rfl, hlead⟩ := Pattern.exists_cons_of_matches hp hfits
  obtain rfl : c = '"' := (List.cons_prefix_cons.1 hstarts).1
  have hquote : p.lead = .quote := hlead.symm.trans (by decide)
  cases p with
  | string => rfl
  | openQuote => contradiction
  | _ => cases hquote

/-- Behind a quote nothing is a lexeme exactly if no later quote closes it. -/
theorem startsNoLexeme_quote_iff (after : List Char) :
    StartsNoLexeme ('"' :: after) ↔ ∀ place, ¬ Closes after place := by
  rw [← closedString?_eq_none_iff]
  constructor
  · intro h
    have hnever := Pattern.lexeme?_eq_none_iff.2 (h .string (by decide) (by decide))
    simpa [Pattern.lexeme?] using hnever
  · intro h p hp hne text hstarts hfits
    have hnone : Pattern.string.lexeme? ('"' :: after) = none := by simp [Pattern.lexeme?, h]
    obtain rfl := eq_string_of_matches_quote hp hne hstarts hfits
    exact Pattern.lexeme?_eq_none_iff.1 hnone text hstarts hfits

/-- Only two ampersands or two bars are a mark. -/
theorem startsNoLexeme_lone {c : Char} (hc : c = '&' ∨ c = '|') {after : List Char}
    (hlone : after.head? ≠ some c) : StartsNoLexeme (c :: after) := by
  have hmarks : ∀ mark ∈ Kind.marks,
      (mark.spelling.toList.head? = some '&' → mark.spelling.toList = ['&', '&']) ∧
        (mark.spelling.toList.head? = some '|' → mark.spelling.toList = ['|', '|']) := by decide
  intro p hp _ text hstarts hfits
  obtain ⟨d, rest, rfl, hlead⟩ := Pattern.exists_cons_of_matches hp hfits
  obtain rfl : d = c := (List.cons_prefix_cons.1 hstarts).1
  have hother : p.lead = .other := by
    rcases hc with rfl | rfl
    · exact hlead.symm.trans (by decide)
    · exact hlead.symm.trans (by decide)
  cases p with
  | comment =>
    obtain ⟨words, -, hwords⟩ := hfits
    cases hwords
    exact absurd hc (by decide)
  | mark row =>
    have hspelling : d :: rest = row.spelling.toList := hfits
    have hmark := Pattern.mem_marks_of_mem_table hp
    have hboth : d :: rest = [d, d] := by
      rw [hspelling]
      rcases hc with rfl | rfl
      · exact (hmarks _ hmark).1 (by rw [← hspelling]; rfl)
      · exact (hmarks _ hmark).2 (by rw [← hspelling]; rfl)
    rw [hboth] at hstarts
    obtain ⟨back, rfl⟩ := (List.cons_prefix_cons.1 hstarts).2
    exact hlone rfl
  | _ => cases hother

/-- A literal that is closed is a lexeme up to the first quote that closes it. -/
theorem first?_quote {after : List Char} {place : Nat} (h : ClosesFirst after place) :
    Pattern.first? ('"' :: after) = some (.string, '"' :: after.take (place + 1)) := by
  have hstring : Pattern.string.lexeme? ('"' :: after) =
      some ('"' :: after.take (place + 1)) := by
    simp [Pattern.lexeme?, closedString?_of_closesFirst h]
  have hlexeme : ¬ StartsNoLexeme ('"' :: after) := fun hno =>
    (startsNoLexeme_quote_iff after).1 hno place h.1
  obtain ⟨p, text, hfirst, hne⟩ := exists_first?_of_not_startsNoLexeme hlexeme
  obtain ⟨hp, hlongest, -⟩ := Pattern.first?_eq_some_iff.1 hfirst
  have hp' := eq_string_of_matches_quote hp hne hlongest.isPrefix hlongest.fits
  subst hp'
  rw [hfirst, hlongest.unique (Pattern.lexeme?_eq_some_iff.1 hstring)]

/-- At every place that the lexer comes to, the first pattern that fits takes a text that is not
empty, the longest that it stands for, and more than any other pattern stands for. Unless it is a
quote alone, the lexer goes on behind that text. A source is refused exactly if the lexer comes to a
place that starts no lexeme, and what is reported is the character there: a quote that no later
quote closes, or one that begins nothing. The source up to any place that the lexer comes to is read
into the tokens recognised before it. -/
theorem tokenize_munches (source : String) (file : Option String) :
    (∀ before tokens rest, Reached (file.getD unnamedFile) source.toList before tokens rest →
      ∀ p text, Pattern.first? rest = some (p, text) →
        text ≠ [] ∧ p.Longest rest text ∧
        (∀ q ∈ Pattern.table, q ≠ p → ∀ other, other <+: rest → q.Matches other →
          other.length < text.length) ∧
        (p ≠ .openQuote → ∃ rest', rest = text ++ rest' ∧
          Reached (file.getD unnamedFile) source.toList (before ++ text)
            (tokens ++ (p.read text).tokens text (.behind (file.getD unnamedFile) before)
              (.behind (file.getD unnamedFile) (before ++ text))) rest')) ∧
    (∀ d, tokenize source file = .error d ↔ ∃ before tokens c after,
      Reached (file.getD unnamedFile) source.toList before tokens (c :: after) ∧
        StartsNoLexeme (c :: after) ∧
        d = ⟨causeAt c, .behind (file.getD unnamedFile) before⟩) ∧
    (∀ after, StartsNoLexeme ('"' :: after) ↔ ∀ place, ¬ Closes after place) ∧
    (∀ after place, ClosesFirst after place →
      Pattern.first? ('"' :: after) = some (.string, '"' :: after.take (place + 1))) ∧
    (∀ c after, c = '&' ∨ c = '|' → after.head? ≠ some c → StartsNoLexeme (c :: after)) ∧
    ∀ before tokens rest, Reached (file.getD unnamedFile) source.toList before tokens rest →
      source.toList = before ++ rest ∧
      tokenize source file =
        (tokensFrom (.behind (file.getD unnamedFile) before) rest).map (tokens ++ ·) ∧
      tokenize (String.ofList before) file =
        .ok (tokens ++ [Token.endAt (.behind (file.getD unnamedFile) before)]) := by
  refine ⟨fun before tokens rest h p text hfirst => ?_, fun d => ?_, startsNoLexeme_quote_iff,
    fun after place h => first?_quote h, fun c after hc hlone => startsNoLexeme_lone hc hlone,
    fun before tokens rest h => ?_⟩
  · obtain ⟨hp, hlongest, hmore⟩ := Pattern.first?_eq_some_iff.1 hfirst
    exact ⟨Pattern.ne_nil_of_matches hp hlongest.fits, hlongest, hmore,
      h.step_of_ne_openQuote hfirst⟩
  · constructor
    · intro hfails
      have hstart : Reached (file.getD unnamedFile) source.toList [] [] source.toList := .start
      rcases hstart.ends with
        ⟨tokens, h⟩ | ⟨before, tokens, c, after, h, hno⟩
      · rw [h.tokenize_eq_ok] at hfails
        contradiction
      · rw [h.tokenize_eq_error hno] at hfails
        cases hfails
        exact ⟨before, tokens, c, after, h, hno, rfl⟩
    · rintro ⟨before, tokens, c, after, h, hno, rfl⟩
      exact h.tokenize_eq_error hno
  · have hcut : Reached (file.getD unnamedFile) (String.ofList before).toList before tokens [] := by
      have hbefore := h.of_prefix List.nil_prefix
      rw [List.append_nil] at hbefore
      rw [String.toList_ofList]
      exact hbefore
    exact ⟨h.eq_append, h.tokensFrom_eq, hcut.tokenize_eq_ok⟩

/-- A name, and a string literal whose last quote is behind a backslash. -/
def openText : String := "a \"\\\""

/-- There no quote closes the literal, and the name before it is what the source up to it is read
into. -/
theorem tokenize_munches_openText : ∃ before tokens after,
    Reached unnamedFile openText.toList before tokens ('"' :: after) ∧
      (∀ place, ¬ Closes after place) ∧
      tokenize openText none = .error ⟨.unterminatedString, .behind unnamedFile before⟩ ∧
      tokenize (String.ofList before) none =
        .ok (tokens ++ [Token.endAt (.behind unnamedFile before)]) := by
  obtain ⟨hlongest, hfails, hquote, -, -, hbefore⟩ := tokenize_munches openText none
  have herror : tokenize openText none = .error ⟨.unterminatedString, ⟨2, 1, 3, unnamedFile⟩⟩ := by
    decide +kernel
  obtain ⟨before, tokens, c, after, hreached, hno, hd⟩ := (hfails _).1 herror
  obtain rfl : c = '"' := by
    by_contra hne
    rw [causeAt, if_neg hne] at hd
    cases hd
  have hplace : (⟨2, 1, 3, unnamedFile⟩ : Position) = .behind unnamedFile before :=
    congrArg Diagnostic.position hd
  rw [hplace] at herror
  exact ⟨before, tokens, after, hreached, (hquote after).1 hno, herror,
    (hbefore _ _ _ hreached).2.2⟩

end LexicalScoping
