import LexicalScoping.Analysis
import LexicalScoping.Proofs.Grammar.AlikeRules
import LexicalScoping.Proofs.Scope.AlikeWalk
import LexicalScoping.Proofs.Token.Munch

/-!
# Where diagnostics stand

Whatever is wrong with a source stands in the source, and at no blank character of it. The lexer
stops at characters that are not blank. All later diagnostics stand where a token starts, since
parsing and resolving put together alike what corresponds token by token, and every token
corresponds to itself.
-/
namespace LexicalScoping

/-- The place is behind a text that starts the source, and what stands there, if the source goes on,
is no blank. -/
def Position.SeenIn (file : String) (source : List Char) (p : Position) : Prop :=
  ∃ before rest, source = before ++ rest ∧ p = behind file before ∧
    ∀ c ∈ rest.head?, Text.isBlank c = false

/-- A lexeme that leaves a token does not begin with a blank. -/
theorem Pattern.isBlank_head?_of_read {p : Pattern} (hp : p ∈ table) {text : List Char}
    (hfits : p.Matches text) {kind : Kind} {literal : Option Literal}
    (hread : p.read text = .token kind literal) (rest : List Char) :
    ∀ c ∈ (text ++ rest).head?, Text.isBlank c = false := by
  obtain ⟨c, tail, rfl, hlead⟩ := exists_cons_of_matches hp hfits
  have hne : p.lead ≠ .blank := by
    cases p with
    | blank => contradiction
    | _ => exact nofun
  rintro _ ⟨⟩
  exact isBlank_eq_false_of_lead (hlead ▸ hne)

theorem isBlank_eq_false_of_startsNoLexeme {c : Char} {after : List Char}
    (h : StartsNoLexeme (c :: after)) : Text.isBlank c = false := by
  by_contra hblank
  rw [Bool.not_eq_false] at hblank
  exact h .blank (by decide) (by decide) [c] ⟨after, rfl⟩ ⟨by simp, by simpa using hblank⟩

/-- What the lexer recognises starts at a character that is not blank. -/
theorem Reached.seenIn {file : String} {source before rest : List Char} {tokens : List Token}
    (h : Reached file source before tokens rest) :
    ∀ t ∈ tokens, t.span.start.SeenIn file source := by
  intro t ht
  obtain ⟨p, hp, front, text, back, hsource, hfits, hread, -, hspan⟩ := h.exists_lexeme t ht
  rw [hspan]
  exact ⟨front, text ++ back, hsource, rfl, Pattern.isBlank_head?_of_read hp hfits hread back⟩

/-- The lexer refuses a source at a character that is not blank, or all its tokens start at one,
but for the end of input, which starts behind the source. -/
theorem seenIn_of_tokenize (source : String) (file : Option String) :
    (∃ d, tokenize source file = .error d ∧
        d.position.SeenIn (file.getD unnamedFile) source.toList) ∨
      ∃ tokens last, tokenize source file = .ok tokens ∧ tokens.getLast? = some last ∧
        last.kind = .endOfInput ∧
        ∀ t ∈ tokens, t.span.start.SeenIn (file.getD unnamedFile) source.toList := by
  have hstart : Reached (file.getD unnamedFile) source.toList [] [] source.toList := .start
  rcases hstart.ends with
    ⟨tokens, h⟩ | ⟨before, tokens, c, after, h, hno⟩
  · have hend : (Token.endAt (.behind (file.getD unnamedFile) source.toList)).span.start.SeenIn
        (file.getD unnamedFile) source.toList :=
      ⟨source.toList, [], by simp, rfl, by simp⟩
    refine .inr ⟨_, _, h.tokenize_eq_ok, List.getLast?_concat, rfl, ?_⟩
    rw [List.forall_mem_append]
    exact ⟨h.seenIn, by simpa using hend⟩
  · refine .inl ⟨_, h.tokenize_eq_error hno, before, c :: after, h.eq_append, rfl, ?_⟩
    rintro _ ⟨⟩
    exact isBlank_eq_false_of_startsNoLexeme hno

/-- Parsing and resolving report what is wrong at the start of a token. The list is alike to itself
if each token corresponds to itself, and each name is its own new name. -/
theorem exists_token_of_mem_diagnostics {tokens : List Token} {last : Token}
    (hlast : tokens.getLast? = some last) (hend : last.kind = .endOfInput) {d : Diagnostic}
    (h : d ∈ (analyseTokens tokens).diagnostics) : ∃ t ∈ tokens, d.position = t.span.start := by
  let R : Token → Token → Prop := fun t t' => t ∈ tokens ∧ t = t'
  have hR : Correspondence R := ⟨fun ⟨_, he⟩ => he ▸ rfl, fun ⟨_, he⟩ => he ▸ rfl⟩
  have hN : Renaming R Eq :=
    ⟨fun hx hy => hx ▸ hy ▸ Iff.rfl, fun ⟨⟨_, he⟩, _⟩ => he ▸ rfl, rfl, rfl, rfl⟩
  have htokens : List.Forall₂ R tokens tokens := List.forall₂_same.2 fun t ht => ⟨ht, rfl⟩
  have hreadings := Program.parse_alike hR htokens hlast hend
  have hposition : ∀ {d d' : Diagnostic}, d.Alike R d' → ∃ t ∈ tokens, d.position = t.span.start :=
    fun ⟨_, t, _, ⟨ht, _⟩, hd, _⟩ => ⟨t, ht, hd⟩
  unfold analyseTokens Run.diagnostics at h
  generalize Program.parse tokens = reading at h hreadings
  cases hreadings with
  | error hd =>
    obtain rfl := List.mem_singleton.1 h
    exact hposition hd
  | ok hstatements _ =>
    obtain ⟨-, hdiagnostics⟩ := resolve_alike hN hstatements
    obtain ⟨i, hi, rfl⟩ := List.getElem_of_mem h
    exact hposition ((List.forall₂_iff_get.1 hdiagnostics).2 i hi hi)

/-- All that is wrong with a source is reported at places in it where no blank stands. -/
theorem seenIn_of_mem_diagnostics {source : String} {file : Option String} {d : Diagnostic}
    (h : d ∈ (analyse source file).diagnostics) :
    d.position.SeenIn (file.getD unnamedFile) source.toList := by
  rcases seenIn_of_tokenize source file with
    ⟨d', herror, hseen⟩ | ⟨tokens, last, hok, hlast, hend, hseen⟩
  · simp only [analyse, herror, Run.diagnostics] at h
    obtain rfl := List.mem_singleton.1 h
    exact hseen
  · have htokens : d ∈ (analyseTokens tokens).diagnostics := by
      simpa only [analyse, hok, Run.diagnostics] using h
    obtain ⟨t, ht, hd⟩ := exists_token_of_mem_diagnostics hlast hend htokens
    rw [hd]
    exact hseen t ht

end LexicalScoping
