import LexicalScoping.Diagnostic.Basic
import LexicalScoping.Text.Blank

/-!
# Lexemes

The text that begins at a place is recognised by the first pattern of an ordered table that fits. A
pattern that fits takes a text that is not empty (`ne_nil_of_lexeme?`) and begins what is left of
the source (`isPrefix_of_lexeme?`). The lexer moves by the text that it writes into a token, which a
mark has of its own; it is the text that was taken (`written_of_first?`).
-/
namespace LexicalScoping

/-- The forms of text that the lexer knows. -/
inductive Pattern
  /-- A letter or underscore, then letters, digits and underscores. -/
  | word
  /-- Digits, perhaps with a point and more digits. -/
  | number
  /-- White space. -/
  | blank
  /-- A string literal with both its quotes. -/
  | string
  /-- A double quote alone. -/
  | openQuote
  /-- Two slashes and the rest of the line. -/
  | comment
  /-- A fixed spelling. -/
  | mark (row : Mark)
deriving DecidableEq, Repr

/-- ASCII letters and the underscore. -/
def isWordStart (c : Char) : Bool := c.isAlpha || c = '_'

/-- ASCII letters, digits and the underscore. -/
def isWordPart (c : Char) : Bool := c.isAlphanum || c = '_'

/-- The content of a string literal and its closing quote. A character after a backslash never
closes the literal. -/
def closedString? : List Char → Option (List Char)
  | [] => none
  | c :: rest =>
    if c = '"' then some [c]
    else if c = '\\' then
      match rest with
      | [] => none
      | d :: rest => (closedString? rest).map fun text => c :: d :: text
    else (closedString? rest).map (c :: ·)

/-- A text that has a character. -/
def nonempty? (text : List Char) : Option (List Char) := if text = [] then none else some text

/-- A point and the digits after it, or nothing if no digit follows the point. -/
def pointAndPlaces : List Char → List Char
  | '.' :: rest =>
    match rest.takeWhile Char.isDigit with
    | [] => []
    | places => '.' :: places
  | _ => []

namespace Pattern

/-- The patterns in the order in which they are tried. -/
def table : List Pattern :=
  [word, number, blank, string, openQuote, comment] ++ Kind.marks.map mark

/-- The longest text at the start of the source that fits the pattern. -/
def lexeme? (source : List Char) : Pattern → Option (List Char)
  | word =>
    match source with
    | [] => none
    | c :: rest => if isWordStart c then some (c :: rest.takeWhile isWordPart) else none
  | number =>
    (nonempty? (source.takeWhile Char.isDigit)).map fun whole =>
      whole ++ pointAndPlaces (source.drop whole.length)
  | blank => nonempty? (source.takeWhile Text.isBlank)
  | string =>
    match source with
    | '"' :: rest => (closedString? rest).map ('"' :: ·)
    | _ => none
  | openQuote =>
    match source with
    | '"' :: _ => some ['"']
    | _ => none
  | comment =>
    match source with
    | '/' :: '/' :: rest => some ('/' :: '/' :: rest.takeWhile (· ≠ '\n'))
    | _ => none
  | mark row =>
    if row.spelling.toList.isPrefixOf source then some row.spelling.toList else none

/-- The first pattern that fits, with the text that it takes. -/
def first? (source : List Char) : Option (Pattern × List Char) :=
  table.findSome? fun p => (p.lexeme? source).map (p, ·)

end Pattern

/-- What a lexeme comes to. -/
inductive Reading
  | token (kind : Kind) (literal : Option Literal)
  | skip
  | failure (cause : Cause)
deriving DecidableEq, Repr

/-- The value of a reserved word that is a literal. -/
def wordLiteral? : Kind → Option Literal
  | .trueWord => some (.bool true)
  | .falseWord => some (.bool false)
  | .nilWord => some .nil
  | _ => none

/-- The content of a string literal, without its quotes. -/
def literalContent (text : List Char) : List Char := text.tail.dropLast

/-- Reads the text that a pattern took. -/
def Pattern.read (text : List Char) : Pattern → Reading
  | word =>
    match Kind.reserved.lookup (String.ofList text) with
    | some kind => .token kind (wordLiteral? kind)
    | none => .token .identifier none
  | number =>
    match Binary64.readDecimal? text with
    | some value => .token .number (some (.number value))
    | none => .failure (.numberParseError (String.ofList text))
  | blank => .skip
  | string =>
    .token .string (some (.string (String.ofList (Text.unescape (literalContent text)))))
  | openQuote => .failure .unterminatedString
  | comment => .skip
  | mark row => .token row.kind none

/-- The text of a token that is made of the text that a pattern took. -/
def Pattern.written (text : List Char) : Pattern → List Char
  | mark row => row.written.toList
  | _ => text

theorem nonempty?_eq_some {text out : List Char} (h : nonempty? text = some out) :
    out = text ∧ text ≠ [] := by
  unfold nonempty? at h
  split at h <;> cases h
  next hn => exact ⟨rfl, hn⟩

theorem closedString?_isPrefix {source text : List Char} (h : closedString? source = some text) :
    text <+: source := by
  fun_induction closedString? source generalizing text with
  | case1 => cases h
  | case2 rest => cases h; exact ⟨rest, rfl⟩
  | case3 => cases h
  | case4 d rest _ ih =>
    obtain ⟨inner, hi, rfl⟩ := Option.map_eq_some_iff.1 h
    exact List.cons_prefix_cons.2 ⟨rfl, List.cons_prefix_cons.2 ⟨rfl, ih hi⟩⟩
  | case5 c rest _ _ ih =>
    obtain ⟨inner, hi, rfl⟩ := Option.map_eq_some_iff.1 h
    exact List.cons_prefix_cons.2 ⟨rfl, ih hi⟩

theorem pointAndPlaces_isPrefix (source : List Char) : pointAndPlaces source <+: source := by
  unfold pointAndPlaces
  split
  · next rest =>
    split
    · exact List.nil_prefix
    · exact List.cons_prefix_cons.2 ⟨rfl, List.takeWhile_prefix _⟩
  · exact List.nil_prefix

/-- No spelling in the table of marks is empty. -/
theorem toList_ne_nil_of_mem_marks : ∀ mark ∈ Kind.marks, mark.spelling.toList ≠ [] := by
  decide

namespace Pattern

/-- A lexeme begins the source that it was found in. -/
theorem isPrefix_of_lexeme? {p : Pattern} {source text : List Char}
    (h : p.lexeme? source = some text) : text <+: source := by
  unfold lexeme? at h
  split at h
  · split at h
    · cases h
    · split at h
      · cases h; exact List.cons_prefix_cons.2 ⟨rfl, List.takeWhile_prefix _⟩
      · cases h
  · obtain ⟨whole, hw, rfl⟩ := Option.map_eq_some_iff.1 h
    obtain ⟨rfl, _⟩ := nonempty?_eq_some hw
    obtain ⟨rest, hr⟩ : source.takeWhile Char.isDigit <+: source := List.takeWhile_prefix _
    have hd : source.drop (source.takeWhile Char.isDigit).length = rest := by
      conv => lhs; arg 2; rw [← hr]
      simp
    rw [hd]
    obtain ⟨tail, ht⟩ := pointAndPlaces_isPrefix rest
    exact ⟨tail, by rw [List.append_assoc, ht, hr]⟩
  · obtain ⟨rfl, _⟩ := nonempty?_eq_some h
    exact List.takeWhile_prefix _
  · split at h
    · obtain ⟨inner, hi, rfl⟩ := Option.map_eq_some_iff.1 h
      exact List.cons_prefix_cons.2 ⟨rfl, closedString?_isPrefix hi⟩
    · cases h
  · split at h
    · next rest => cases h; exact ⟨rest, rfl⟩
    · cases h
  · split at h
    · cases h
      exact List.cons_prefix_cons.2 ⟨rfl, List.cons_prefix_cons.2 ⟨rfl, List.takeWhile_prefix _⟩⟩
    · cases h
  · split at h
    · next hp => cases h; exact List.isPrefixOf_iff_prefix.1 hp
    · cases h

theorem mem_marks_of_mem_table {row : Mark} (hp : mark row ∈ table) : row ∈ Kind.marks := by
  simpa [table] using hp

/-- A lexeme of a pattern of the table is not empty. -/
theorem ne_nil_of_lexeme? {p : Pattern} {source text : List Char} (hp : p ∈ table)
    (h : p.lexeme? source = some text) : text ≠ [] := by
  unfold lexeme? at h
  split at h
  · split at h
    · cases h
    · split at h <;> cases h
      simp
  · obtain ⟨whole, hw, rfl⟩ := Option.map_eq_some_iff.1 h
    obtain ⟨rfl, hn⟩ := nonempty?_eq_some hw
    exact fun he => hn (List.append_eq_nil_iff.1 he).1
  · obtain ⟨rfl, hn⟩ := nonempty?_eq_some h
    exact hn
  · split at h
    · obtain ⟨inner, _, rfl⟩ := Option.map_eq_some_iff.1 h
      simp
    · cases h
  · split at h <;> cases h
    simp
  · split at h <;> cases h
    simp
  · next row =>
    split at h <;> cases h
    exact toList_ne_nil_of_mem_marks row (mem_marks_of_mem_table hp)

/-- The pattern that is found comes from the table, and the text is the one that it takes. -/
theorem of_first? {source text : List Char} {p : Pattern} (h : first? source = some (p, text)) :
    p ∈ table ∧ p.lexeme? source = some text := by
  obtain ⟨q, hq, hf⟩ := List.exists_of_findSome?_eq_some h
  obtain ⟨t, ht, he⟩ := Option.map_eq_some_iff.1 hf
  cases he
  exact ⟨hq, ht⟩

/-- The text of a token is the text that its pattern took. -/
theorem written_of_first? {source text : List Char} {p : Pattern}
    (h : first? source = some (p, text)) : p.written text = text := by
  obtain ⟨hp, hl⟩ := of_first? h
  cases p with
  | mark row =>
    simp only [lexeme?] at hl
    split at hl <;> cases hl
    rw [written, Kind.written_eq_spelling row (mem_marks_of_mem_table hp)]
  | _ => rfl

/-- What follows a lexeme is shorter than what it begins. -/
theorem length_drop_lt_of_first? {source text : List Char} {p : Pattern}
    (h : first? source = some (p, text)) :
    (source.drop (p.written text).length).length < source.length := by
  rw [written_of_first? h]
  obtain ⟨hp, hl⟩ := of_first? h
  have h₁ := List.length_pos_iff.2 (ne_nil_of_lexeme? hp hl)
  have h₂ := (isPrefix_of_lexeme? hl).length_le
  rw [List.length_drop]
  omega

end Pattern
end LexicalScoping
