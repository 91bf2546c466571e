import LexicalScoping.Source.Position

/-!
# Lines of a source text

A text is cut after each line feed, so the pieces make up the text again (`flatten_pieces`). A byte
offset belongs to the piece that it lies in; the offset just past the text belongs to the last.
The pieces are gone through with their starts and numbers.
-/
namespace LexicalScoping

/-- The text cut after each line feed. -/
def pieces : List Char → List (List Char)
  | [] => []
  | c :: rest =>
    if c = '\n' then [c] :: pieces rest
    else match pieces rest with
      | [] => [[c]]
      | piece :: others => (c :: piece) :: others

/-- Cutting loses nothing. -/
theorem flatten_pieces (text : List Char) : (pieces text).flatten = text := by
  induction text with
  | nil => rfl
  | cons c rest ih =>
    unfold pieces
    split
    · simp [ih]
    · split <;> simp_all

/-- An offset as seen from its line: the line's number, its text with the line feed that ends it,
and the bytes of it before the offset. -/
structure LinePlace where
  number : Nat
  text : List Char
  offset : Nat
deriving DecidableEq, Repr

/-- Goes through the pieces, with the offset where the next one starts and its number, up to the
piece that the offset lies in. If it lies in none, the place is at the end of the last piece, with
the number of that piece, or with the first number if there are no pieces. -/
def seekPiece (last : List Char) (offset : Nat) : Nat → Nat → List (List Char) → LinePlace
  | _, number, [] => ⟨max number 2 - 1, last, byteLength last⟩
  | start, number, piece :: others =>
    let stop := start + byteLength piece
    if start ≤ offset ∧ offset < stop then ⟨number, piece, offset - start⟩
    else seekPiece last offset stop (number + 1) others

/-- The line that a byte offset lies on. There is none for an offset beyond the text. -/
def lineAt? (text : List Char) (offset : Nat) : Option LinePlace :=
  if byteLength text < offset then none
  else some (seekPiece ((pieces text).getLast?.getD []) offset 0 1 (pieces text))

/-- How many characters of the text lie before a byte offset, if the offset is between characters
and not beyond the text. -/
def charsBefore? : List Char → Nat → Option Nat
  | _, 0 => some 0
  | [], _ + 1 => none
  | c :: rest, offset + 1 =>
    if c.utf8Size ≤ offset + 1 then (charsBefore? rest (offset + 1 - c.utf8Size)).map (· + 1)
    else none

end LexicalScoping
