import LexicalScoping.Proofs.Grammar.RefusalRules
import LexicalScoping.Proofs.Token.Munch
import LexicalScoping.Proofs.Token.Read

/-!
# What the lexer supplies the parser with

A token that was read has a literal exactly if its kind is one of literals, the literal is of that
kind, a name is a word that is not reserved, and a reserved word is spelled as it should be
(`Token.Supplied`). The parser asks every literal that it meets for its value, in whichever rule and
at whatever level. Since it reports only what is wrong with a token, and the tokens of a source all
have their values, it never finds one without.
-/
namespace LexicalScoping

/-- The kind of the tokens that stand for the literal. -/
def Literal.kind : Literal → Kind
  | .number _ => .number
  | .string _ => .string
  | .bool true => .trueWord
  | .bool false => .falseWord
  | .nil => .nilWord

theorem Literal.kind_plain (value : Literal) : value.plain.kind = value.kind := by
  cases value <;> rfl

namespace Kind

/-- Exactly the kinds of literals ask for one. -/
theorem isSome_plainLiteral? (kind : Kind) : kind.plainLiteral?.isSome ↔ kind ∈ literals := by
  cases kind <;> decide

theorem kind_of_mem_plainLiteral? {kind : Kind} : ∀ value ∈ kind.plainLiteral?,
    value.kind = kind := by
  cases kind <;> decide

end Kind

/-- What can be relied on about a token. -/
structure Token.Supplied (t : Token) : Prop where
  /-- There is a literal exactly if the kind is one of literals. -/
  isSome_literal_iff : t.literal.isSome ↔ t.kind ∈ Kind.literals
  /-- The literal is of the token's kind. -/
  kind_literal : ∀ value ∈ t.literal, value.kind = t.kind
  /-- A name is a letter or underscore, then letters, digits and underscores. -/
  name_form : t.kind = .identifier → ∃ c rest, t.text.toList = c :: rest ∧ isWordStart c ∧
    ∀ d ∈ rest, isWordPart d
  /-- No name is reserved. -/
  notMem_reserved : t.kind = .identifier → ∀ kind, (t.text, kind) ∉ Kind.reserved
  /-- A reserved word is spelled as such. -/
  text_eq : ∀ word, (word, t.kind) ∈ Kind.reserved → t.text = word

/-- Only words are read as names. -/
theorem Pattern.eq_word_of_read {p : Pattern} (hp : p ∈ table) {text : List Char}
    {literal : Option Literal} (h : p.read text = .token .identifier literal) : p = .word := by
  have hmarks : ∀ mark ∈ Kind.marks, mark.kind ≠ .identifier := by decide
  cases p with
  | word => rfl
  | number =>
    simp only [read] at h
    split at h <;> cases h
  | mark row =>
    simp only [read, Reading.token.injEq] at h
    exact absurd h.1 (hmarks row (mem_marks_of_mem_table hp))
  | _ => cases h

namespace Token.IsRead

variable {t : Token}

theorem isSome_literal_iff (h : t.IsRead) : t.literal.isSome ↔ t.kind ∈ Kind.literals := by
  rw [← Kind.isSome_plainLiteral?, ← h.plain_literal, Option.isSome_map]

theorem kind_literal (h : t.IsRead) : ∀ value ∈ t.literal, value.kind = t.kind := by
  intro value hvalue
  have hplain : value.plain ∈ t.kind.plainLiteral? := by
    rw [← h.plain_literal]
    exact Option.mem_map_of_mem _ hvalue
  rw [← value.kind_plain]
  exact Kind.kind_of_mem_plainLiteral? _ hplain

theorem notMem_reserved (h : t.IsRead) (hname : t.kind = .identifier) (kind : Kind) :
    (t.text, kind) ∉ Kind.reserved := by
  have hnone := List.lookup_eq_none_iff.1 (h.lookup_reserved hname)
  intro hmem
  simpa using hnone _ hmem

/-- Each kind of reserved word has one spelling, and nothing else is of such a kind. -/
theorem text_eq (h : t.IsRead) (word : String) (hword : (word, t.kind) ∈ Kind.reserved) :
    t.text = word := by
  have hspelling : ∀ entry ∈ Kind.reserved, ∀ other ∈ Kind.reserved, entry.2 = other.2 →
      entry.1 = other.1 := by decide
  have hothers : ∀ entry ∈ Kind.reserved,
      entry.2 ∉ [Kind.endOfInput, .identifier, .number, .string] := by decide
  have hmarks : ∀ entry ∈ Kind.reserved, ∀ mark ∈ Kind.marks, mark.kind ≠ entry.2 := by decide
  have hother := hothers _ hword
  rcases h with ⟨hkind, -⟩ | ⟨p, hp, hread⟩
  · simp [hkind] at hother
  · rcases Pattern.cases_of_read hp hread with ⟨hmem, -⟩ | ⟨hkind, -⟩ | ⟨hkind, -⟩ | ⟨hkind, -⟩ |
      ⟨⟨mark, hmem, hkind⟩, -⟩
    · rw [String.ofList_toList] at hmem
      exact hspelling _ hmem _ hword rfl
    · simp [hkind] at hother
    · simp [hkind] at hother
    · simp [hkind] at hother
    · exact absurd hkind (hmarks _ hword mark hmem)

theorem supplied (h : t.IsRead)
    (hname : t.kind = .identifier → Pattern.word.Matches t.text.toList) : t.Supplied :=
  ⟨h.isSome_literal_iff, h.kind_literal, hname, h.notMem_reserved, h.text_eq⟩

end Token.IsRead

/-- Whatever the lexer recognises can be relied on. -/
theorem Reached.supplied {file : String} {source before rest : List Char} {tokens : List Token}
    (h : Reached file source before tokens rest) :
    ∀ t ∈ tokens, t.Supplied ∧ t.kind ≠ .endOfInput := by
  intro t ht
  obtain ⟨p, hp, front, text, back, -, hfits, hread, htext, -⟩ := h.exists_lexeme t ht
  have hlist : t.text.toList = text := by rw [htext, String.toList_ofList]
  rw [← hlist] at hfits hread
  refine ⟨Token.IsRead.supplied (.inr ⟨p, hp, hread⟩) fun hname => ?_,
    Pattern.kind_ne_endOfInput_of_read hp hread⟩
  rw [hname] at hread
  obtain rfl := Pattern.eq_word_of_read hp hread
  exact hfits

/-- A parser that can rely on its literals having values does not report one as missing. -/
theorem Program.cause_ne_numberParseError {tokens : List Token} {last : Token}
    (hlast : tokens.getLast? = some last) (hend : last.kind = .endOfInput)
    (hvalues : ∀ t ∈ tokens, t.kind ∈ Kind.literals → t.literal.isSome) {d : Diagnostic}
    (h : parse tokens = .error d) (text : String) : d.cause ≠ .numberParseError text := by
  obtain ⟨t, ht, hrefused, -⟩ := refuses_of_parse hlast hend h
  intro hcause
  rw [hcause] at hrefused
  cases hrefused with
  | valueless hkind hnone =>
    have hsome := hvalues t ht hkind
    rw [hnone] at hsome
    contradiction

/-- Only a token that was not read can lack its value, and then it is reported. -/
example : (Program.parse [⟨.number, "1", none, default⟩, .endAt default]).map Program.idCount =
    .error ⟨.numberParseError "1", default⟩ := by decide +kernel

/-- The tokens of a source end with its only end of input, and what the parser relies on holds of
every one of them. So neither the lexer nor the parser ever reports a number that it cannot read. -/
theorem tokenize_supplies_parse (source : String) (file : Option String) :
    (∀ tokens, tokenize source file = .ok tokens →
      (∃ proper last, tokens = proper ++ [last] ∧ last.kind = .endOfInput ∧
        ∀ t ∈ proper, t.kind ≠ .endOfInput) ∧
      (∀ t ∈ tokens, t.Supplied) ∧
      ∀ d, Program.parse tokens = .error d → ∀ text, d.cause ≠ .numberParseError text) ∧
    ∀ d, tokenize source file = .error d → ∀ text, d.cause ≠ .numberParseError text := by
  constructor
  · intro tokens h
    obtain ⟨proper, rfl, hreached⟩ := exists_reached_of_tokenize h
    set last := Token.endAt (.behind (file.getD unnamedFile) source.toList)
    have hlast : last.Supplied := Token.IsRead.supplied (.inl ⟨rfl, rfl⟩) nofun
    have hsupplied : ∀ t ∈ proper ++ [last], t.Supplied := by
      rw [List.forall_mem_append, List.forall_mem_singleton]
      exact ⟨fun t ht => (hreached.supplied t ht).1, hlast⟩
    refine ⟨⟨proper, last, rfl, rfl, fun t ht => (hreached.supplied t ht).2⟩, hsupplied,
      fun d hd => ?_⟩
    exact Program.cause_ne_numberParseError List.getLast?_concat rfl
      (fun t ht => (hsupplied t ht).isSome_literal_iff.2) hd
  · intro d h text
    obtain ⟨before, tokens, c, after, -, -, rfl⟩ := exists_reached_of_tokenize_eq_error h
    show causeAt c ≠ _
    unfold causeAt
    split <;> nofun

/-- Reserved words, a name, a number and a string literal, with no sign before the last word. -/
def valuedText : String := "if (a1) 0 + \"\" nil"

/-- There a sign is missing, and no value. -/
theorem tokenize_supplies_parse_valuedText : ∃ tokens d,
    tokenize valuedText none = .ok tokens ∧ tokens.length = 9 ∧ (∀ t ∈ tokens, t.Supplied) ∧
      Program.parse tokens = .error d ∧ (∀ text, d.cause ≠ .numberParseError text) ∧
      ∃ d', tokenize "@" none = .error d' ∧ ∀ text, d'.cause ≠ .numberParseError text := by
  obtain ⟨tokens, htokens, hlength, hfails⟩ : ∃ tokens,
      tokenize valuedText none = .ok tokens ∧ tokens.length = 9 ∧
        (Program.parse tokens).toOption.isNone :=
    ⟨_, eq_ok_get (by decide +kernel), by decide +kernel, by decide +kernel⟩
  obtain ⟨d, hparse⟩ := exists_eq_error_of_isNone hfails
  obtain ⟨d', hstray⟩ : ∃ d', tokenize "@" none = .error d' :=
    exists_eq_error_of_isNone (by decide +kernel)
  obtain ⟨-, hsupplied, hparsed⟩ := (tokenize_supplies_parse valuedText none).1 tokens htokens
  exact ⟨tokens, d, htokens, hlength, hsupplied, hparse, hparsed d hparse, d', hstray,
    (tokenize_supplies_parse "@" none).2 d' hstray⟩

end LexicalScoping
