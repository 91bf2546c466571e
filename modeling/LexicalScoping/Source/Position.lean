/-!
# Positions in a source text

A position counts bytes of the UTF-8 text from zero, and lines and characters of a line from one;
only a line feed ends a line. A position is moved over text character by character.
`afterText_first` says where that leads from the start of a source: past all bytes of the text, to
the line after all its line feeds, and to the column after the characters since the last of them.
-/
namespace LexicalScoping

/-- How many bytes the text takes in UTF-8. -/
def byteLength : List Char → Nat
  | [] => 0
  | c :: rest => c.utf8Size + byteLength rest

@[simp] theorem byteLength_nil : byteLength [] = 0 := rfl

@[simp] theorem byteLength_cons (c : Char) (rest : List Char) :
    byteLength (c :: rest) = c.utf8Size + byteLength rest := rfl

@[simp] theorem byteLength_append (s t : List Char) :
    byteLength (s ++ t) = byteLength s + byteLength t := by
  induction s with
  | nil => simp
  | cons c s ih => simp [ih, Nat.add_assoc]

/-- The bytes of a text that begins with a character are not none, and without those of the
character they are the bytes of what follows it. -/
theorem exists_byteLength_cons (c : Char) (text : List Char) : ∃ bytes,
    byteLength (c :: text) = bytes + 1 ∧ c.utf8Size ≤ bytes + 1 ∧
      bytes + 1 - c.utf8Size = byteLength text := by
  have hc := c.utf8Size_pos
  exact ⟨c.utf8Size + byteLength text - 1, by rw [byteLength_cons]; omega, by omega, by omega⟩

/-- The characters after the last line feed. -/
def lastLine : List Char → List Char
  | [] => []
  | c :: rest => if '\n' ∈ rest then lastLine rest else if c = '\n' then rest else c :: rest

theorem lastLine_of_notMem {text : List Char} (h : '\n' ∉ text) : lastLine text = text := by
  cases text with
  | nil => rfl
  | cons c rest =>
    have hc : c ≠ '\n' := fun he => h (he ▸ List.mem_cons_self)
    have hr : '\n' ∉ rest := fun hm => h (List.mem_cons_of_mem _ hm)
    simp [lastLine, hc, hr]

/-- A place in the named source. -/
@[ext]
structure Position where
  offset : Nat
  line : Nat
  column : Nat
  file : String
deriving DecidableEq, Repr, Inhabited

namespace Position

/-- The place before the first character. -/
def first (file : String) : Position := ⟨0, 1, 1, file⟩

/-- No place in any source. -/
def nowhere : Position := ⟨0, 0, 0, "<null>"⟩

/-- The place after one more character. -/
def after (p : Position) (c : Char) : Position :=
  if c = '\n' then ⟨p.offset + c.utf8Size, p.line + 1, 1, p.file⟩
  else ⟨p.offset + c.utf8Size, p.line, p.column + 1, p.file⟩

/-- The place after the characters of a text. -/
def afterText (p : Position) (text : List Char) : Position := text.foldl after p

/-- The place behind a text that starts its source. -/
def behind (file : String) (text : List Char) : Position :=
  ⟨byteLength text, 1 + text.count '\n', 1 + (lastLine text).length, file⟩

@[simp] theorem afterText_nil (p : Position) : p.afterText [] = p := rfl

@[simp] theorem afterText_cons (p : Position) (c : Char) (text : List Char) :
    p.afterText (c :: text) = (p.after c).afterText text := rfl

theorem afterText_append (p : Position) (s t : List Char) :
    p.afterText (s ++ t) = (p.afterText s).afterText t := List.foldl_append

@[simp] theorem file_after (p : Position) (c : Char) : (p.after c).file = p.file := by
  unfold after
  split <;> rfl

@[simp] theorem offset_after (p : Position) (c : Char) :
    (p.after c).offset = p.offset + c.utf8Size := by
  unfold after
  split <;> rfl

theorem line_after (p : Position) (c : Char) :
    (p.after c).line = p.line + if c = '\n' then 1 else 0 := by
  unfold after
  split <;> rfl

theorem column_after (p : Position) (c : Char) :
    (p.after c).column = if c = '\n' then 1 else p.column + 1 := by
  unfold after
  split <;> rfl

@[simp] theorem file_afterText (p : Position) (text : List Char) :
    (p.afterText text).file = p.file := by
  induction text generalizing p with
  | nil => rfl
  | cons c text ih => simp [ih]

@[simp] theorem offset_afterText (p : Position) (text : List Char) :
    (p.afterText text).offset = p.offset + byteLength text := by
  induction text generalizing p with
  | nil => rfl
  | cons c text ih => simp [ih, Nat.add_assoc]

theorem line_afterText (p : Position) (text : List Char) :
    (p.afterText text).line = p.line + text.count '\n' := by
  induction text generalizing p with
  | nil => rfl
  | cons c text ih =>
    rw [afterText_cons, ih, line_after, List.count_cons]
    by_cases hc : c = '\n'
    · simp [hc]
      omega
    · simp [hc]

/-- Columns count on from the start only while no line feed is passed. -/
theorem column_afterText (p : Position) (text : List Char) :
    (p.afterText text).column =
      if '\n' ∈ text then 1 + (lastLine text).length else p.column + text.length := by
  induction text generalizing p with
  | nil => rfl
  | cons c text ih =>
    rw [afterText_cons, ih, column_after]
    by_cases hr : '\n' ∈ text
    · simp [hr, lastLine]
    · by_cases hc : c = '\n'
      · simp [hr, hc, lastLine]
      · simp [hr, hc, Ne.symm hc]
        omega

/-- Moving over a text from the start of a source leads behind it. -/
theorem afterText_first (file : String) (text : List Char) :
    (first file).afterText text = behind file text := by
  refine Position.ext ?_ ?_ ?_ ?_
  · simp [behind, first]
  · simp [line_afterText, behind, first]
  · rw [column_afterText]
    by_cases hm : '\n' ∈ text
    · simp [hm, behind]
    · simp [hm, behind, first, lastLine_of_notMem hm]
  · simp [behind, first]

end Position

/-- A stretch of source, from its first character to just past its last. -/
structure Span where
  start : Position
  stop : Position
deriving DecidableEq, Repr, Inhabited

end LexicalScoping
