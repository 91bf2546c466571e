import LexicalScoping.Proofs.Token.Read
import Mathlib.Data.List.Forall2
import Mathlib.Data.List.TakeWhile

/-!
# How tokens lie in their source

A source that can be read is a row of gaps and lexemes. A gap is made of blanks and of comments,
each of which runs up to the next line feed or to the end of the source. `Laid` says this of what is
left of a source after some text, with the place of each token computed from all the text before it;
`exists_laid_of_tokensFrom` shows it of the lexer, lexeme by lexeme. The other theorems read off
what this says of the offsets of the tokens.
-/
namespace LexicalScoping

/-- The text leaves no token where `after` follows it in the source. -/
inductive Gap : List Char → List Char → Prop
  | nil (after : List Char) : Gap [] after
  | blank {c : Char} {gap after : List Char} : Text.isBlank c → Gap gap after →
    Gap (c :: gap) after
  | comment {words gap after : List Char} : '\n' ∉ words →
    (∀ c ∈ (gap ++ after).head?, c = '\n') → Gap gap after →
    Gap ('/' :: '/' :: words ++ gap) after

namespace Gap

variable {front back after : List Char}

theorem append (hf : Gap front (back ++ after)) (hb : Gap back after) :
    Gap (front ++ back) after := by
  generalize hwhole : back ++ after = whole at hf
  induction hf with
  | nil => exact hb
  | blank hc _ ih => exact .blank hc (ih hwhole)
  | comment hwords hends _ ih =>
    subst hwhole
    rw [List.append_assoc]
    exact .comment hwords (by rwa [List.append_assoc]) (ih rfl)

theorem of_blanks (hblank : ∀ c ∈ front, Text.isBlank c) (after : List Char) :
    Gap front after := by
  induction front with
  | nil => exact .nil after
  | cons c front ih =>
    rw [List.forall_mem_cons] at hblank
    exact .blank hblank.1 (ih hblank.2)

/-- A comment with nothing behind it on its line. -/
theorem of_comment (line : List Char) :
    Gap ('/' :: '/' :: line.takeWhile (· ≠ '\n')) (line.dropWhile (· ≠ '\n')) := by
  have hwords : '\n' ∉ line.takeWhile (· ≠ '\n') := fun hmem => by
    simpa using List.mem_takeWhile_imp hmem
  have hends : ∀ c ∈ (line.dropWhile (· ≠ '\n')).head?, c = '\n' := fun c hc => by
    have hstops := List.head?_dropWhile_not (· ≠ '\n') line
    rw [Option.mem_def.1 hc] at hstops
    simpa using hstops
  have h := Gap.comment hwords hends (.nil _)
  rwa [List.append_nil] at h

/-- What a pattern takes without leaving a token is a gap. -/
theorem of_skip {p : Pattern} {text rest : List Char}
    (hlexeme : p.lexeme? (text ++ rest) = some text) (hskip : p.read text = .skip) :
    Gap text rest := by
  cases p with
  | word =>
    simp only [Pattern.read] at hskip
    split at hskip <;> contradiction
  | number =>
    simp only [Pattern.read] at hskip
    split at hskip <;> contradiction
  | string => contradiction
  | openQuote => contradiction
  | mark => contradiction
  | blank =>
    obtain ⟨htext, -⟩ := nonempty?_eq_some hlexeme
    refine of_blanks (fun c hc => ?_) rest
    rw [htext] at hc
    exact List.mem_takeWhile_imp hc
  | comment =>
    simp only [Pattern.lexeme?] at hlexeme
    split at hlexeme
    · next line hsource =>
      cases hlexeme
      have hline : line.takeWhile (· ≠ '\n') ++ rest = line := by simpa using hsource
      have hsplit : line.takeWhile (· ≠ '\n') ++ rest =
          line.takeWhile (· ≠ '\n') ++ line.dropWhile (· ≠ '\n') := by
        rw [hline, List.takeWhile_append_dropWhile]
      rw [List.append_cancel_left hsplit]
      exact of_comment line
    · contradiction

end Gap

/-- Only the end of a source is given the kind that marks it. -/
theorem Pattern.kind_ne_endOfInput_of_read {p : Pattern} {text : List Char} {kind : Kind}
    {literal : Option Literal} (hp : p ∈ Pattern.table) (h : p.read text = .token kind literal) :
    kind ≠ .endOfInput := by
  have hreserved : ∀ entry ∈ Kind.reserved, entry.2 ≠ .endOfInput := by decide
  have hmarks : ∀ mark ∈ Kind.marks, mark.kind ≠ .endOfInput := by decide
  rcases Pattern.cases_of_read hp h with ⟨hmem, -⟩ | ⟨rfl, -⟩ | ⟨rfl, -⟩ | ⟨rfl, -⟩ |
    ⟨⟨mark, hmem, rfl⟩, -⟩
  · exact hreserved _ hmem
  · decide
  · decide
  · decide
  · exact hmarks mark hmem

theorem Position.afterText_behind (file : String) (before text : List Char) :
    (behind file before).afterText text = behind file (before ++ text) := by
  rw [← afterText_first, ← afterText_append, afterText_first]

/-- After the text `before`, the rest of the source holds the tokens, with gaps around them. -/
inductive Laid (file : String) : List Char → List Char → List Token → Prop
  | gap {before rest : List Char} : Gap rest [] → Laid file before rest []
  | token {before gap text rest : List Char} {token : Token} {tokens : List Token} :
    Gap gap (text ++ rest) → text ≠ [] → token.kind ≠ .endOfInput →
    token.text = String.ofList text →
    token.span = ⟨.behind file (before ++ gap), .behind file (before ++ (gap ++ text))⟩ →
    Laid file (before ++ (gap ++ text)) rest tokens →
    Laid file before (gap ++ (text ++ rest)) (token :: tokens)

namespace Laid

variable {file : String} {before rest : List Char} {tokens : List Token}

/-- One more gap in front. -/
theorem skip {front : List Char} (hfront : Gap front rest)
    (h : Laid file (before ++ front) rest tokens) : Laid file before (front ++ rest) tokens := by
  cases h with
  | gap hlast =>
    rw [← List.append_nil rest] at hfront
    exact .gap (hfront.append hlast)
  | token hgap htext hkind hvalue hspan hlaid =>
    rw [← List.append_assoc]
    exact .token (hfront.append hgap) htext hkind hvalue (by simp [hspan]) (by simpa using hlaid)

/-- A token with no gap in front. -/
theorem lexeme {text : List Char} {token : Token} (htext : text ≠ [])
    (hkind : token.kind ≠ .endOfInput) (hvalue : token.text = String.ofList text)
    (hspan : token.span = ⟨.behind file before, .behind file (before ++ text)⟩)
    (h : Laid file (before ++ text) rest tokens) :
    Laid file before (text ++ rest) (token :: tokens) :=
  .token (.nil _) htext hkind hvalue (by simpa using hspan) h

end Laid

/-- The first pattern that fits takes a text off the source. -/
theorem Pattern.exists_rest_of_first? {source text : List Char} {p : Pattern}
    (h : first? source = some (p, text)) : ∃ rest, source = text ++ rest ∧
      source.drop text.length = rest ∧ p.lexeme? (text ++ rest) = some text := by
  obtain ⟨-, hlexeme⟩ := of_first? h
  obtain ⟨rest, hrest⟩ := isPrefix_of_lexeme? hlexeme
  rw [← hrest] at hlexeme ⊢
  exact ⟨rest, rfl, List.drop_left, hlexeme⟩

/-- The lexer lays out the tokens over what is left of the source and puts the end behind them. What
it skips joins the gap that the rest starts with. -/
theorem exists_laid_of_tokensFrom {file : String} {before source : List Char}
    {tokens : List Token} (h : tokensFrom (.behind file before) source = .ok tokens) :
    ∃ proper, tokens = proper ++ [Token.endAt (.behind file (before ++ source))] ∧
      Laid file before source proper := by
  generalize hplace : Position.behind file before = place at h
  fun_induction tokensFrom place source generalizing before tokens
  case case1 place =>
    cases h
    exact ⟨[], by simp [hplace], .gap (.nil _)⟩
  case case2 => contradiction
  case case3 => contradiction
  case case4 place c source p text hfirst written next hread ih =>
    obtain ⟨rest, hsource, hdrop, hlexeme⟩ := Pattern.exists_rest_of_first? hfirst
    have hwritten : written = text := Pattern.written_of_first? hfirst
    have hnext : Position.behind file (before ++ text) = next := by
      rw [← Position.afterText_behind, hplace, ← hwritten]
    rw [hwritten, hdrop] at h ih
    obtain ⟨proper, htokens, hlaid⟩ := ih hnext h
    rw [hsource, htokens, List.append_assoc]
    exact ⟨proper, rfl, hlaid.skip (.of_skip hlexeme hread)⟩
  case case5 place c source p text hfirst written next kind literal hread ih =>
    obtain ⟨hp, htakes⟩ := Pattern.of_first? hfirst
    obtain ⟨rest, hsource, hdrop, -⟩ := Pattern.exists_rest_of_first? hfirst
    have hwritten : written = text := Pattern.written_of_first? hfirst
    have hnext : Position.behind file (before ++ text) = next := by
      rw [← Position.afterText_behind, hplace, ← hwritten]
    rw [hwritten, hdrop] at h ih
    cases hothers : tokensFrom next rest with
    | error =>
      rw [hothers] at h
      contradiction
    | ok others =>
      rw [hothers] at h
      cases h
      obtain ⟨proper, htokens, hlaid⟩ := ih hnext hothers
      have hlexed : Laid file before (text ++ rest)
          (⟨kind, String.ofList text, literal, ⟨place, next⟩⟩ :: proper) :=
        .lexeme (Pattern.ne_nil_of_lexeme? hp htakes)
          (Pattern.kind_ne_endOfInput_of_read hp hread) rfl (by rw [hplace, hnext]) hlaid
      rw [hsource]
      exact ⟨_, by simp [htokens], hlexed⟩

theorem exists_laid_of_tokenize {source : String} {file : Option String} {tokens : List Token}
    (h : tokenize source file = .ok tokens) :
    ∃ proper, tokens = proper ++ [Token.endAt (.behind (file.getD unnamedFile) source.toList)] ∧
      Laid (file.getD unnamedFile) [] source.toList proper := by
  have hfrom : tokensFrom (.behind (file.getD unnamedFile) []) source.toList = .ok tokens := h
  exact exists_laid_of_tokensFrom hfrom

theorem getLast?_of_tokenize {source : String} {file : Option String} {tokens : List Token}
    (h : tokenize source file = .ok tokens) :
    tokens.getLast? = some (Token.endAt (.behind (file.getD unnamedFile) source.toList)) := by
  obtain ⟨proper, rfl, -⟩ := exists_laid_of_tokenize h
  exact List.getLast?_concat

/-- The text stands in the source from one byte offset up to another. -/
def StandsAt (source : List Char) (start stop : Nat) (text : List Char) : Prop :=
  ∃ before after, source = before ++ (text ++ after) ∧ byteLength before = start ∧
    byteLength (before ++ text) = stop

/-- There is only a gap in the source from one byte offset up to another. -/
def GapAt (source : List Char) (start stop : Nat) : Prop :=
  ∃ before gap after, source = before ++ (gap ++ after) ∧ byteLength before = start ∧
    byteLength (before ++ gap) = stop ∧ Gap gap after

/-- The place is the one behind a text that starts the source. -/
def Position.LiesIn (file : String) (source : List Char) (p : Position) : Prop :=
  ∃ before, before <+: source ∧ p = behind file before

/-- The token has a text of the source, and the places before and behind it. -/
def Token.LiesIn (file : String) (source : List Char) (token : Token) : Prop :=
  ∃ before text after, source = before ++ (text ++ after) ∧ text ≠ [] ∧
    token.text = String.ofList text ∧
    token.span = ⟨.behind file before, .behind file (before ++ text)⟩

theorem byteLength_pos {text : List Char} (h : text ≠ []) : 0 < byteLength text := by
  cases text with
  | nil => contradiction
  | cons c text =>
    have hc := c.utf8Size_pos
    rw [byteLength_cons]
    omega

namespace Token.LiesIn

variable {file : String} {source : List Char} {token : Token}

theorem start_lt_stop (h : token.LiesIn file source) :
    token.span.start.offset < token.span.stop.offset := by
  obtain ⟨before, text, after, -, htext, -, hspan⟩ := h
  have hpos := byteLength_pos htext
  rw [hspan]
  simp only [Position.behind, byteLength_append]
  omega

theorem stop_le (h : token.LiesIn file source) :
    token.span.stop.offset ≤ byteLength source := by
  obtain ⟨before, text, after, rfl, -, -, hspan⟩ := h
  rw [hspan]
  simp only [Position.behind, byteLength_append]
  omega

theorem standsAt (h : token.LiesIn file source) :
    StandsAt source token.span.start.offset token.span.stop.offset token.text.toList := by
  obtain ⟨before, text, after, hsource, -, hvalue, hspan⟩ := h
  exact ⟨before, after, by simp [hvalue, hsource], by simp [hspan, Position.behind],
    by simp [hvalue, hspan, Position.behind]⟩

theorem places (h : token.LiesIn file source) :
    token.span.start.LiesIn file source ∧ token.span.stop.LiesIn file source := by
  obtain ⟨before, text, after, hsource, -, -, hspan⟩ := h
  constructor
  · exact ⟨before, ⟨text ++ after, hsource.symm⟩, by rw [hspan]⟩
  · exact ⟨before ++ text, ⟨after, by simp [hsource]⟩, by rw [hspan]⟩

end Token.LiesIn

namespace Laid

variable {file : String} {before rest : List Char} {tokens : List Token}

theorem kind_ne_endOfInput (h : Laid file before rest tokens) :
    ∀ token ∈ tokens, token.kind ≠ .endOfInput := by
  induction h with
  | gap => simp
  | token _ _ hkind _ _ _ ih => exact List.forall_mem_cons.2 ⟨hkind, ih⟩

theorem liesIn (h : Laid file before rest tokens) :
    ∀ token ∈ tokens, token.LiesIn file (before ++ rest) := by
  induction h with
  | gap => simp
  | @token before gap text rest token tokens _ htext _ hvalue hspan _ ih =>
    rw [List.forall_mem_cons]
    constructor
    · exact ⟨before ++ gap, text, rest, by simp, htext, hvalue, by simpa using hspan⟩
    · simpa using ih

theorem byteLength_le_start (h : Laid file before rest tokens) :
    ∀ token ∈ tokens, byteLength before ≤ token.span.start.offset := by
  induction h with
  | gap => simp
  | token _ _ _ _ hspan _ ih =>
    rw [List.forall_mem_cons]
    constructor
    · simp [hspan, Position.behind]
    · intro token hmem
      have hle := ih token hmem
      rw [byteLength_append] at hle
      omega

/-- Each token ends before the later ones start. -/
theorem pairwise (h : Laid file before rest tokens) :
    tokens.Pairwise fun first second => first.span.stop.offset ≤ second.span.start.offset := by
  induction h with
  | gap => exact .nil
  | token _ _ _ _ hspan hlaid ih =>
    refine .cons (fun second hsecond => ?_) ih
    rw [hspan]
    exact hlaid.byteLength_le_start second hsecond

/-- Before, between and behind the tokens there are only gaps. -/
theorem forall₂_gapAt (h : Laid file before rest tokens) :
    List.Forall₂ (GapAt (before ++ rest))
      (byteLength before :: tokens.map (·.span.stop.offset))
      (tokens.map (·.span.start.offset) ++ [byteLength (before ++ rest)]) := by
  induction h with
  | @gap before rest hlast =>
    exact .cons ⟨before, rest, [], by simp, rfl, rfl, hlast⟩ .nil
  | @token before gap text rest token tokens hgap _ _ _ hspan _ ih =>
    have hfirst : GapAt (before ++ (gap ++ (text ++ rest))) (byteLength before)
        token.span.start.offset :=
      ⟨before, gap, text ++ rest, rfl, rfl, by rw [hspan]; rfl, hgap⟩
    have hstop : token.span.stop.offset = byteLength (before ++ (gap ++ text)) := by
      rw [hspan]
      rfl
    rw [← hstop] at ih
    exact .cons hfirst (by simpa using ih)

end Laid

/-- The tokens lie one behind the other. -/
structure Ascending (tokens : List Token) : Prop where
  forward : ∀ token ∈ tokens, token.span.start.offset ≤ token.span.stop.offset
  apart : tokens.Pairwise fun first second => first.span.stop.offset ≤ second.span.start.offset

/-- The end of input lies behind all tokens of a source. -/
theorem ascending_of_tokenize {source : String} {file : Option String} {tokens : List Token}
    (h : tokenize source file = .ok tokens) : Ascending tokens := by
  obtain ⟨proper, rfl, hlaid⟩ := exists_laid_of_tokenize h
  have hlies := hlaid.liesIn
  rw [List.nil_append] at hlies
  constructor
  · rw [List.forall_mem_append, List.forall_mem_singleton]
    exact ⟨fun token hmem => Nat.le_of_lt (hlies token hmem).start_lt_stop, Nat.le_refl _⟩
  · refine List.pairwise_append.2 ⟨hlaid.pairwise, List.pairwise_singleton _ _, ?_⟩
    intro token hmem last hlast
    rw [List.mem_singleton.1 hlast]
    exact (hlies token hmem).stop_le

/-- The tokens of a source are proper ones, of which each is a text of the source that is not empty
and starts behind the one before, and the end of input, which lies behind the whole source. Nothing
but gaps is before, between and behind the proper tokens. All places of tokens count the bytes, the
line feeds and the characters of the last line in the text before them. -/
theorem exists_layout_of_tokenize {source : String} {file : Option String} {tokens : List Token}
    (h : tokenize source file = .ok tokens) :
    ∃ proper, tokens =
        proper ++ [Token.endAt (.behind (file.getD unnamedFile) source.toList)] ∧
      (∀ token ∈ proper, token.kind ≠ .endOfInput ∧
        token.span.start.offset < token.span.stop.offset ∧
        StandsAt source.toList token.span.start.offset token.span.stop.offset
          token.text.toList) ∧
      (proper.Pairwise fun first second =>
        first.span.stop.offset ≤ second.span.start.offset) ∧
      List.Forall₂ (GapAt source.toList) (0 :: proper.map (·.span.stop.offset))
        (proper.map (·.span.start.offset) ++ [byteLength source.toList]) ∧
      ∀ token ∈ tokens,
        token.span.start.LiesIn (file.getD unnamedFile) source.toList ∧
          token.span.stop.LiesIn (file.getD unnamedFile) source.toList := by
  have hfrom : tokensFrom (.behind (file.getD unnamedFile) []) source.toList = .ok tokens := h
  obtain ⟨proper, rfl, hlaid⟩ := exists_laid_of_tokensFrom hfrom
  have hlies := hlaid.liesIn
  have hgaps := hlaid.forall₂_gapAt
  rw [List.nil_append] at hlies hgaps ⊢
  refine ⟨proper, rfl, fun token hmem => ?_, hlaid.pairwise, hgaps, fun token hmem => ?_⟩
  · exact ⟨hlaid.kind_ne_endOfInput token hmem, (hlies token hmem).start_lt_stop,
      (hlies token hmem).standsAt⟩
  · rcases List.mem_append.1 hmem with hproper | hend
    · exact (hlies token hproper).places
    · have hlast : (Position.behind (file.getD unnamedFile) source.toList).LiesIn
          (file.getD unnamedFile) source.toList := ⟨_, List.prefix_refl _, rfl⟩
      rw [List.mem_singleton.1 hend]
      exact ⟨hlast, hlast⟩

/-- A comment, and a string literal over two lines with a character of two bytes. -/
def commentedText : String := "a // b\n\"é\n\";"

/-- There the comment and the blanks around it make up the gap from byte 1 to byte 7, and the string
literal behind it stands up to byte 12, on the third line. -/
theorem gapAt_commentedText : ∃ first string mark ends,
    tokenize commentedText none = .ok [first, string, mark, ends] ∧
      string.span = ⟨⟨7, 2, 1, unnamedFile⟩, ⟨12, 3, 2, unnamedFile⟩⟩ ∧
      GapAt commentedText.toList 1 7 ∧
      StandsAt commentedText.toList 7 12 "\"é\n\"".toList := by
  obtain ⟨first, string, mark, ends, h, hfirst, hstring, htext⟩ : ∃ first string mark ends,
      tokenize commentedText none = .ok [first, string, mark, ends] ∧
        first.span.stop.offset = 1 ∧
        string.span = ⟨⟨7, 2, 1, unnamedFile⟩, ⟨12, 3, 2, unnamedFile⟩⟩ ∧
        string.text = "\"é\n\"" := by
    have htokens : tokenize commentedText none = .ok
        [⟨.identifier, "a", none, ⟨⟨0, 1, 1, unnamedFile⟩, ⟨1, 1, 2, unnamedFile⟩⟩⟩,
          ⟨.string, "\"é\n\"", some (.string "é\n"),
            ⟨⟨7, 2, 1, unnamedFile⟩, ⟨12, 3, 2, unnamedFile⟩⟩⟩,
          ⟨.semicolon, ";", none, ⟨⟨12, 3, 2, unnamedFile⟩, ⟨13, 3, 3, unnamedFile⟩⟩⟩,
          .endAt ⟨13, 3, 3, unnamedFile⟩] := by decide +kernel
    exact ⟨_, _, _, _, htokens, rfl, rfl, rfl⟩
  obtain ⟨proper, htokens, hproper, -, hgaps, -⟩ := exists_layout_of_tokenize h
  have hthree : proper = [first, string, mark] := by
    have hinit := congrArg List.dropLast htokens
    simpa using hinit.symm
  subst hthree
  have hstands := (hproper string (by simp)).2.2
  rw [hstring, htext] at hstands
  simp only [List.map_cons, List.cons_append, List.forall₂_cons, hfirst, hstring] at hgaps
  exact ⟨first, string, mark, ends, h, hstring, hgaps.2.1, hstands⟩

end LexicalScoping
