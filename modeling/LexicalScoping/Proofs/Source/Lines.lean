import LexicalScoping.Source.Line

/-!
# The line of a place

A place behind some text of a source lies on the line that begins after the last line feed of that
text, and `lineAt?` finds it: its number is one more than the line feeds before, and what is before
the place on it are the characters of `lastLine`. The search takes off one line after the other, so
the induction is on the lines that lie before the place.
-/
namespace LexicalScoping

theorem lastLine_append_newline (line before : List Char) :
    lastLine (line ++ '\n' :: before) = lastLine before := by
  induction line with
  | nil =>
    by_cases h : '\n' ∈ before
    · simp [lastLine, h]
    · simp [lastLine, h, lastLine_of_notMem h]
  | cons c line ih => simp [lastLine, ih]

theorem newline_notMem_lastLine (before : List Char) : '\n' ∉ lastLine before := by
  induction before with
  | nil => simp [lastLine]
  | cons c before ih =>
    by_cases h : '\n' ∈ before
    · simpa [lastLine, h] using ih
    · by_cases hc : c = '\n'
      · simp [lastLine, h, hc]
      · simp [lastLine, h, hc, Ne.symm hc]

theorem pieces_ne_nil {text : List Char} (h : text ≠ []) : pieces text ≠ [] := by
  intro hnil
  have hflat := flatten_pieces text
  rw [hnil] at hflat
  exact h hflat.symm

/-- A line feed ends the first piece. -/
theorem pieces_append_newline {line : List Char} (h : '\n' ∉ line) (rest : List Char) :
    pieces (line ++ '\n' :: rest) = (line ++ ['\n']) :: pieces rest := by
  induction line with
  | nil => simp [pieces]
  | cons c line ih =>
    rw [List.mem_cons, not_or] at h
    rw [List.cons_append, pieces, if_neg (Ne.symm h.1), ih h.2]
    rfl

/-- Text without a line feed is in front of the first piece. -/
theorem pieces_append {line : List Char} (h : '\n' ∉ line) {rest piece : List Char}
    {others : List (List Char)} (hrest : pieces rest = piece :: others) :
    pieces (line ++ rest) = (line ++ piece) :: others := by
  induction line with
  | nil => exact hrest
  | cons c line ih =>
    rw [List.mem_cons, not_or] at h
    rw [List.cons_append, pieces, if_neg (Ne.symm h.1), ih h.2]
    rfl

/-- The first piece begins the text, and a line feed can only end it. -/
theorem exists_pieces_cons (c : Char) (rest : List Char) :
    ∃ tail others, pieces (c :: rest) = (c :: tail) :: others ∧
      '\n' ∉ (c :: tail).dropLast := by
  induction rest generalizing c with
  | nil =>
    by_cases hc : c = '\n'
    · exact ⟨[], [], by simp [pieces], by simp⟩
    · exact ⟨[], [], by simp [pieces], by simp⟩
  | cons d rest ih =>
    by_cases hc : c = '\n'
    · exact ⟨[], pieces (d :: rest), by rw [pieces, if_pos hc], by simp⟩
    · obtain ⟨tail, others, hpieces, hline⟩ := ih d
      refine ⟨d :: tail, others, by rw [pieces, if_neg hc, hpieces], ?_⟩
      rw [List.dropLast_cons_cons, List.mem_cons, not_or]
      exact ⟨Ne.symm hc, hline⟩

/-- Finds the piece an offset lies in, the first piece having the given number. -/
def placeInPieces (number offset : Nat) : List (List Char) → LinePlace
  | [] => ⟨number, [], 0⟩
  | [last] => ⟨number, last, min offset (byteLength last)⟩
  | piece :: others =>
    if offset < byteLength piece then ⟨number, piece, offset⟩
    else placeInPieces (number + 1) (offset - byteLength piece) others

theorem placeInPieces_cons_of_lt {offset : Nat} {piece : List Char} (number : Nat)
    (others : List (List Char)) (h : offset < byteLength piece) :
    placeInPieces number offset (piece :: others) = ⟨number, piece, offset⟩ := by
  cases others with
  | nil => rw [placeInPieces, Nat.min_eq_left (Nat.le_of_lt h)]
  | cons next others =>
    rw [placeInPieces, if_pos h]
    exact List.cons_ne_nil next others

theorem placeInPieces_cons_of_le {offset : Nat} {piece : List Char} (number : Nat)
    {others : List (List Char)} (hothers : others ≠ []) (h : byteLength piece ≤ offset) :
    placeInPieces number offset (piece :: others) =
      placeInPieces (number + 1) (offset - byteLength piece) others := by
  cases others with
  | nil => contradiction
  | cons next others =>
    rw [placeInPieces, if_neg (Nat.not_lt.2 h)]
    exact List.cons_ne_nil next others

/-- The search that carries the start of the next piece finds what the search does that takes the
bytes of each piece off the offset. -/
theorem seekPiece_eq_placeInPieces {parts : List (List Char)} (hparts : parts ≠ [])
    {last : List Char} (hlast : last = parts.getLast?.getD []) {number start offset : Nat}
    (hnumber : 1 ≤ number) (hstart : start ≤ offset) :
    seekPiece last offset start number parts = placeInPieces number (offset - start) parts := by
  induction parts generalizing number start with
  | nil => contradiction
  | cons piece others ih =>
    rw [seekPiece]
    by_cases hstop : offset < start + byteLength piece
    · rw [if_pos ⟨hstart, hstop⟩, placeInPieces_cons_of_lt number others (by omega)]
    · rw [if_neg fun h => hstop h.2]
      by_cases hothers : others = []
      · subst hothers
        obtain rfl : last = piece := hlast
        have hend : min (offset - start) (byteLength last) = byteLength last := by omega
        have hback : max (number + 1) 2 - 1 = number := by omega
        rw [seekPiece, placeInPieces, hend, hback]
      · rw [placeInPieces_cons_of_le number hothers (by omega), Nat.sub_sub]
        obtain ⟨next, rest, rfl⟩ := List.exists_cons_of_ne_nil hothers
        exact ih hothers hlast (by omega) (by omega)

theorem lineAt?_eq (text : List Char) (offset : Nat) : lineAt? text offset =
    if byteLength text < offset then none else some (placeInPieces 1 offset (pieces text)) := by
  rw [lineAt?]
  by_cases h : pieces text = []
  · rw [h]
    rfl
  · rw [seekPiece_eq_placeInPieces h rfl (Nat.le_refl 1) (Nat.zero_le offset), Nat.sub_zero]

/-- A place with no line feed before it is found in the first piece. -/
theorem placeInPieces_first {before : List Char} (h : '\n' ∉ before) (number : Nat) (c : Char)
    (after : List Char) : ∃ tail, '\n' ∉ (c :: tail).dropLast ∧
      placeInPieces number (byteLength before) (pieces (before ++ c :: after)) =
        ⟨number, before ++ c :: tail, byteLength before⟩ := by
  obtain ⟨tail, others, hpieces, hline⟩ := exists_pieces_cons c after
  have hlt : byteLength before < byteLength (before ++ c :: tail) := by
    have hc := c.utf8Size_pos
    rw [byteLength_append, byteLength_cons]
    omega
  refine ⟨tail, hline, ?_⟩
  rw [pieces_append h hpieces, placeInPieces_cons_of_lt number others hlt]

/-- A place behind a whole line is found in what follows the line. -/
theorem placeInPieces_later {line : List Char} (h : '\n' ∉ line) (number : Nat)
    (before : List Char) (c : Char) (after : List Char) :
    placeInPieces number (byteLength (line ++ '\n' :: before))
        (pieces (line ++ '\n' :: before ++ c :: after)) =
      placeInPieces (number + 1) (byteLength before) (pieces (before ++ c :: after)) := by
  have hothers : pieces (before ++ c :: after) ≠ [] := pieces_ne_nil (by simp)
  have hle : byteLength (line ++ ['\n']) ≤ byteLength (line ++ '\n' :: before) := by
    simp only [byteLength_append, byteLength_cons, byteLength_nil]
    omega
  have hleft : byteLength (line ++ '\n' :: before) - byteLength (line ++ ['\n']) =
      byteLength before := by
    simp only [byteLength_append, byteLength_cons, byteLength_nil]
    omega
  rw [List.append_assoc, List.cons_append, pieces_append_newline h,
    placeInPieces_cons_of_le number hothers hle, hleft]

/-- A place is found on its line, numbered on from the given number. -/
theorem exists_placeInPieces (number : Nat) (before : List Char) (c : Char) (after : List Char) :
    ∃ tail, '\n' ∉ (c :: tail).dropLast ∧
      placeInPieces number (byteLength before) (pieces (before ++ c :: after)) =
        ⟨number + before.count '\n', lastLine before ++ c :: tail,
          byteLength (lastLine before)⟩ := by
  by_cases h : '\n' ∈ before
  · obtain ⟨line, rest, hbefore, hline⟩ := List.eq_append_cons_of_mem h
    have hshorter : rest.length < before.length := by
      rw [hbefore, List.length_append, List.length_cons]
      omega
    obtain ⟨tail, htail, hplace⟩ := exists_placeInPieces (number + 1) rest c after
    have hcount : number + 1 + rest.count '\n' = number + before.count '\n' := by
      rw [hbefore, List.count_append, List.count_cons_self, List.count_eq_zero.2 hline]
      omega
    have hlast : lastLine before = lastLine rest := by
      rw [hbefore, lastLine_append_newline]
    rw [hcount] at hplace
    rw [hlast, hbefore, placeInPieces_later hline, hplace]
    exact ⟨tail, htail, by rw [← hbefore]⟩
  · obtain ⟨tail, htail, hplace⟩ := placeInPieces_first h number c after
    rw [lastLine_of_notMem h, List.count_eq_zero.2 h, hplace]
    exact ⟨tail, htail, rfl⟩
termination_by before.length

/-- The offset is that of the character between the two parts of the line. -/
structure LinePlace.Parts (place : LinePlace) (front : List Char) (c : Char) (tail : List Char) :
    Prop where
  text : place.text = front ++ c :: tail
  offset : place.offset = byteLength front

/-- The line of the character behind a text: its number counts the line feeds of the text, before
the character are the last characters of the text, and only a line feed at its end is behind it. -/
theorem exists_lineAt? (before : List Char) (c : Char) (after : List Char) :
    ∃ line tail, lineAt? (before ++ c :: after) (byteLength before) = some line ∧
      line.number = 1 + before.count '\n' ∧ line.Parts (lastLine before) c tail ∧
      '\n' ∉ (c :: tail).dropLast := by
  obtain ⟨tail, htail, hplace⟩ := exists_placeInPieces 1 before c after
  have hle : ¬ byteLength (before ++ c :: after) < byteLength before := by
    rw [byteLength_append]
    omega
  exact ⟨_, tail, by rw [lineAt?_eq, if_neg hle, hplace], rfl, ⟨rfl, rfl⟩, htail⟩

/-- Behind a text there are as many characters as the text has. -/
theorem charsBefore?_byteLength (before after : List Char) :
    charsBefore? (before ++ after) (byteLength before) = some before.length := by
  induction before with
  | nil => cases after <;> rfl
  | cons c before ih =>
    obtain ⟨bytes, hbytes, hfits, hleft⟩ := exists_byteLength_cons c before
    rw [hbytes, List.cons_append, charsBefore?, if_pos hfits, hleft, ih]
    rfl

end LexicalScoping
