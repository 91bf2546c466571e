import LexicalScoping.Token.Lexer

/-!
# What tokens are read from

Every token but the end of input is what a pattern of the table reads its text as. So its kind says
whether it has a literal, and of which sort, and a name is no reserved word.
-/
namespace LexicalScoping

/-- The token is the end of input, or a pattern reads its text as a token of that kind and
literal. -/
def Token.IsRead (t : Token) : Prop :=
  (t.kind = .endOfInput ∧ t.literal = none) ∨
    ∃ p ∈ Pattern.table, p.read t.text.toList = .token t.kind t.literal

theorem isRead_of_tokensFrom {place : Position} {source : List Char} {tokens : List Token}
    (h : tokensFrom place source = .ok tokens) : ∀ t ∈ tokens, t.IsRead := by
  fun_induction tokensFrom place source generalizing tokens
  case case1 place =>
    cases h
    simp [Token.IsRead, Token.endAt]
  case case2 => contradiction
  case case3 => contradiction
  case case4 ih => exact ih h
  case case5 place c source p text hfirst written next kind literal hread ih =>
    have hwritten : written = text := Pattern.written_of_first? hfirst
    cases hothers : tokensFrom next ((c :: source).drop written.length) with
    | error => rw [hothers] at h; contradiction
    | ok others =>
      rw [hothers] at h
      cases h
      have htoken : Token.IsRead ⟨kind, String.ofList written, literal, ⟨place, next⟩⟩ :=
        .inr ⟨p, (Pattern.of_first? hfirst).1, by simpa [hwritten] using hread⟩
      exact List.forall_mem_cons.2 ⟨htoken, ih hothers⟩

/-- A text is read as a reserved word, a name, a number, a string literal or a mark. -/
theorem Pattern.cases_of_read {p : Pattern} {text : List Char} {kind : Kind}
    {literal : Option Literal} (hp : p ∈ table) (h : p.read text = .token kind literal) :
    ((String.ofList text, kind) ∈ Kind.reserved ∧ literal = wordLiteral? kind) ∨
      (kind = .identifier ∧ literal = none ∧
        Kind.reserved.lookup (String.ofList text) = none) ∨
      (kind = .number ∧ ∃ value, literal = some (.number value)) ∨
      (kind = .string ∧ ∃ value, literal = some (.string value)) ∨
      ((∃ mark ∈ Kind.marks, mark.kind = kind) ∧ literal = none) := by
  cases p with
  | word =>
    simp only [read] at h
    split at h
    · next hword =>
      cases h
      obtain ⟨front, back, hsplit, -⟩ := List.lookup_eq_some_iff.1 hword
      exact .inl ⟨by simp [hsplit], rfl⟩
    · next hword =>
      cases h
      exact .inr (.inl ⟨rfl, rfl, hword⟩)
  | number =>
    simp only [read] at h
    split at h
    · next value _ =>
      cases h
      exact .inr (.inr (.inl ⟨rfl, value, rfl⟩))
    · contradiction
  | string =>
    cases h
    exact .inr (.inr (.inr (.inl ⟨rfl, _, rfl⟩)))
  | mark row =>
    cases h
    exact .inr (.inr (.inr (.inr ⟨⟨row, mem_marks_of_mem_table hp, rfl⟩, rfl⟩)))
  | blank => contradiction
  | openQuote => contradiction
  | comment => contradiction

/-- The literal without the number or the text that it stands for. -/
def Literal.plain : Literal → Literal
  | .number _ => .number default
  | .string _ => .string ""
  | value => value

/-- The literal that tokens of the kind have, without its number or text. -/
def Kind.plainLiteral? : Kind → Option Literal
  | .number => some (.number default)
  | .string => some (.string "")
  | kind => wordLiteral? kind

namespace Token.IsRead

variable {t : Token}

/-- The kind says whether there is a literal, and of which sort. -/
theorem plain_literal (h : t.IsRead) : t.literal.map Literal.plain = t.kind.plainLiteral? := by
  have hreserved : ∀ entry ∈ Kind.reserved,
      (wordLiteral? entry.2).map Literal.plain = entry.2.plainLiteral? := by decide
  have hmarks : ∀ mark ∈ Kind.marks, none = mark.kind.plainLiteral? := by decide
  rcases h with ⟨hkind, hliteral⟩ | ⟨p, hp, hread⟩
  · rw [hkind, hliteral]
    rfl
  · rcases Pattern.cases_of_read hp hread with ⟨hmem, hliteral⟩ | ⟨hkind, hliteral, -⟩ |
      ⟨hkind, value, hliteral⟩ | ⟨hkind, value, hliteral⟩ | ⟨⟨mark, hmem, hkind⟩, hliteral⟩
    · rw [hliteral]
      exact hreserved _ hmem
    · rw [hkind, hliteral]
      rfl
    · rw [hkind, hliteral]
      rfl
    · rw [hkind, hliteral]
      rfl
    · rw [hliteral, ← hkind]
      exact hmarks mark hmem

/-- No reserved word is a name. -/
theorem lookup_reserved (h : t.IsRead) (hname : t.kind = .identifier) :
    Kind.reserved.lookup t.text = none := by
  have hreserved : ∀ entry ∈ Kind.reserved, entry.2 ≠ .identifier := by decide
  have hmarks : ∀ mark ∈ Kind.marks, mark.kind ≠ .identifier := by decide
  rcases h with ⟨hkind, -⟩ | ⟨p, hp, hread⟩
  · rw [hkind] at hname
    contradiction
  · rcases Pattern.cases_of_read hp hread with ⟨hmem, -⟩ | ⟨-, -, hlookup⟩ |
      ⟨hkind, -⟩ | ⟨hkind, -⟩ | ⟨⟨mark, hmem, hkind⟩, -⟩
    · exact absurd hname (hreserved _ hmem)
    · simpa using hlookup
    · exact absurd (hkind.symm.trans hname) (by decide)
    · exact absurd (hkind.symm.trans hname) (by decide)
    · exact absurd (hkind.trans hname) (hmarks mark hmem)

end Token.IsRead

end LexicalScoping
