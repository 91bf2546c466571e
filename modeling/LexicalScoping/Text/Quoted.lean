import LexicalScoping.Text.Visible

/-!
# Quoted text

Six characters are written with a backslash and a letter, both in the string literals of a program
and in the quotations of a message. A literal writes every other character as itself; a quotation
shows those that are not visible by number. `unescape_escape` says that reading a literal's text
gives back what was written.
-/
namespace LexicalScoping.Text

/-- The letter written after a backslash for a character that has one. -/
def escapeLetter? : Char → Option Char
  | '\n' => some 'n'
  | '\t' => some 't'
  | '\r' => some 'r'
  | '\\' => some '\\'
  | '"' => some '"'
  | '\x00' => some '0'
  | _ => none

/-- The character that a letter after a backslash stands for. -/
def escapedBy? : Char → Option Char
  | 'n' => some '\n'
  | 't' => some '\t'
  | 'r' => some '\r'
  | '\\' => some '\\'
  | '"' => some '"'
  | '0' => some '\x00'
  | _ => none

/-- A character as a string literal writes it. -/
def escapeChar (c : Char) : List Char :=
  match escapeLetter? c with
  | some letter => ['\\', letter]
  | none => [c]

/-- The content of a string literal that stands for the text. -/
def escape (text : List Char) : List Char := text.flatMap escapeChar

/-- The text that the content of a string literal stands for. A backslash before any other
character, or at the end, stands for itself. -/
def unescape : List Char → List Char
  | [] => []
  | [c] => [c]
  | c :: d :: rest =>
    if c = '\\' then
      match escapedBy? d with
      | some meaning => meaning :: unescape rest
      | none => c :: d :: unescape rest
    else c :: unescape (d :: rest)

/-- A letter written after a backslash is read as the character it was written for. -/
theorem escapedBy?_of_escapeLetter? {c letter : Char} (h : escapeLetter? c = some letter) :
    escapedBy? letter = some c := by
  unfold escapeLetter? at h
  split at h <;> cases h <;> rfl

/-- A backslash has a letter, so a character without one is no backslash. -/
theorem ne_backslash_of_escapeLetter? {c : Char} (h : escapeLetter? c = none) : c ≠ '\\' := by
  rintro rfl
  cases h

theorem unescape_cons {c : Char} (h : c ≠ '\\') (rest : List Char) :
    unescape (c :: rest) = c :: unescape rest := by
  cases rest with
  | nil => rfl
  | cons d rest => simp [unescape, h]

theorem unescape_escapeChar_append (c : Char) (rest : List Char) :
    unescape (escapeChar c ++ rest) = c :: unescape rest := by
  unfold escapeChar
  cases h : escapeLetter? c with
  | some letter => simp [unescape, escapedBy?_of_escapeLetter? h]
  | none => exact unescape_cons (ne_backslash_of_escapeLetter? h) rest

/-- Reading a literal's content gives the text back. -/
theorem unescape_escape (text : List Char) : unescape (escape text) = text := by
  induction text with
  | nil => rfl
  | cons c text ih =>
    have h : escape (c :: text) = escapeChar c ++ escape text := by simp [escape]
    rw [h, unescape_escapeChar_append, ih]

/-- A character shown by its number, in hexadecimal without leading zeros. -/
def numberedChar (c : Char) : List Char :=
  ['\\', 'u', '{'] ++ Nat.toDigits 16 c.toNat ++ ['}']

/-- A character as a quotation shows it. -/
def quoteChar (c : Char) : List Char :=
  match escapeLetter? c with
  | some letter => ['\\', letter]
  | none => if isVisible c then [c] else numberedChar c

/-- The text between double quotes, on one line and with every character visible. -/
def quote (text : String) : String :=
  String.ofList ('"' :: text.toList.flatMap quoteChar ++ ['"'])

end LexicalScoping.Text
