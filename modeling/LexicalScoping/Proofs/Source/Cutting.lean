import LexicalScoping.Proofs.Source.Lines
import Mathlib.Algebra.GroupWithZero.Nat
import Mathlib.Tactic.SplitIfs

/-!
# Places found by their offset

A text is cut after each line feed in one way only, and that is how `pieces` cuts it. Any byte
offset, also one inside a character, is found in the piece that it lies in: as many pieces are
before it as there are line feeds in the bytes before the offset (`exists_cutInto_lineAt?`). A line
feed is one byte, and no other character has that byte in its encoding, so counting bytes counts
characters (`count_bytesOf`). All inductions are along the cut.
-/
namespace LexicalScoping

/-- The text in UTF-8. -/
def bytesOf (text : List Char) : List UInt8 := text.flatMap String.utf8EncodeChar

/-- The byte of a line feed. -/
def lineFeed : UInt8 := 10

/-- How many line feeds are among the first bytes of the text. -/
def lineFeedsBefore (text : List Char) (offset : Nat) : Nat :=
  ((bytesOf text).take offset).count lineFeed

/-- The text is cut after each line feed, and nowhere else. -/
inductive CutInto : List Char → List (List Char) → Prop
  | nil : CutInto [] []
  | last {line : List Char} : line ≠ [] → '\n' ∉ line → CutInto line [line]
  | line {line rest : List Char} {parts : List (List Char)} : '\n' ∉ line → CutInto rest parts →
    CutInto (line ++ '\n' :: rest) ((line ++ ['\n']) :: parts)

theorem bytesOf_append (front back : List Char) :
    bytesOf (front ++ back) = bytesOf front ++ bytesOf back := List.flatMap_append

@[simp] theorem length_bytesOf (text : List Char) : (bytesOf text).length = byteLength text := by
  induction text with
  | nil => rfl
  | cons c text ih =>
    rw [bytesOf, List.flatMap_cons, List.length_append, String.length_utf8EncodeChar,
      byteLength_cons]
    exact congrArg (c.utf8Size + ·) ih

/-- The byte of a line feed is in the encoding of no other character. -/
theorem count_utf8EncodeChar (c : Char) :
    (String.utf8EncodeChar c).count lineFeed = if c = '\n' then 1 else 0 := by
  have hvalue : c = '\n' ↔ c.val.toNat = 10 := by
    rw [Char.ext_iff, ← UInt32.toNat_inj]
    rfl
  have hbyte : ∀ n, UInt8.ofNat n = lineFeed ↔ n % 256 = 10 := by
    intro n
    rw [← UInt8.toNat_inj, UInt8.toNat_ofNat']
    rfl
  simp only [hvalue, String.utf8EncodeChar]
  split_ifs <;> simp only [List.count_cons, List.count_nil, beq_iff_eq, hbyte] <;>
    split_ifs <;> omega

theorem count_bytesOf (text : List Char) : (bytesOf text).count lineFeed = text.count '\n' := by
  induction text with
  | nil => rfl
  | cons c text ih =>
    rw [bytesOf, List.flatMap_cons, List.count_append, count_utf8EncodeChar, List.count_cons]
    have hrest : (List.flatMap String.utf8EncodeChar text).count lineFeed = text.count '\n' := ih
    simp only [hrest, beq_iff_eq]
    omega

section LineFeeds

variable {line : List Char} (h : '\n' ∉ line) {offset : Nat}
include h

theorem lineFeedsBefore_of_notMem : lineFeedsBefore line offset = 0 := by
  have hle : lineFeedsBefore line offset ≤ (bytesOf line).count lineFeed :=
    (List.take_sublist offset (bytesOf line)).count_le lineFeed
  rw [count_bytesOf, List.count_eq_zero.2 h] at hle
  exact Nat.le_zero.1 hle

/-- On the first line there is no line feed before the offset, not even at the end of the line. -/
theorem lineFeedsBefore_of_lt (rest : List Char) (hlt : offset < byteLength (line ++ ['\n'])) :
    lineFeedsBefore (line ++ '\n' :: rest) offset = 0 := by
  have hsize : '\n'.utf8Size = 1 := rfl
  have hle : offset ≤ (bytesOf line).length := by
    simp only [byteLength_append, byteLength_cons, byteLength_nil, hsize] at hlt
    rw [length_bytesOf]
    omega
  have hfirst : lineFeedsBefore line offset = 0 := lineFeedsBefore_of_notMem h
  rw [lineFeedsBefore] at hfirst ⊢
  rw [bytesOf_append, List.take_append_of_le_length hle, hfirst]

/-- Behind the first line there is one line feed more than on what follows the line. -/
theorem lineFeedsBefore_of_le (rest : List Char) (hle : byteLength (line ++ ['\n']) ≤ offset) :
    lineFeedsBefore (line ++ '\n' :: rest) offset =
      lineFeedsBefore rest (offset - byteLength (line ++ ['\n'])) + 1 := by
  have hsplit : line ++ '\n' :: rest = (line ++ ['\n']) ++ rest := by simp
  have hcount : (bytesOf (line ++ ['\n'])).count lineFeed = 1 := by
    simp [count_bytesOf, List.count_eq_zero.2 h]
  rw [lineFeedsBefore, lineFeedsBefore, hsplit, bytesOf_append, List.take_append, List.count_append,
    List.take_of_length_le (by rwa [length_bytesOf]), hcount, length_bytesOf, Nat.add_comm]

end LineFeeds

theorem pieces_of_notMem {line : List Char} (hne : line ≠ []) (h : '\n' ∉ line) :
    pieces line = [line] := by
  obtain ⟨c, rest, rfl⟩ := List.exists_cons_of_ne_nil hne
  induction rest generalizing c with
  | nil =>
    rw [List.mem_singleton] at h
    rw [pieces, if_neg (Ne.symm h)]
    rfl
  | cons d rest ih =>
    rw [List.mem_cons, not_or] at h
    rw [pieces, if_neg (Ne.symm h.1), ih d (List.cons_ne_nil d rest) h.2]

theorem cutInto_pieces (text : List Char) : CutInto text (pieces text) := by
  by_cases h : '\n' ∈ text
  · obtain ⟨line, rest, htext, hline⟩ := List.eq_append_cons_of_mem h
    have hshorter : rest.length < text.length := by
      rw [htext, List.length_append, List.length_cons]
      omega
    rw [htext, pieces_append_newline hline]
    exact .line hline (cutInto_pieces rest)
  · by_cases hne : text = []
    · rw [hne]
      exact .nil
    · rw [pieces_of_notMem hne h]
      exact .last hne h
termination_by text.length

namespace CutInto

variable {text : List Char} {parts : List (List Char)}

/-- There is only one way to cut a text. -/
theorem eq_pieces (h : CutInto text parts) : parts = pieces text := by
  induction h with
  | nil => rfl
  | last hne hline => exact (pieces_of_notMem hne hline).symm
  | line hline _ ih => rw [pieces_append_newline hline, ih]

theorem eq_nil_iff (h : CutInto text parts) : parts = [] ↔ text = [] := by
  cases h with
  | nil => simp
  | last hne _ => simp [hne]
  | line => simp

/-- An offset in the text is found in the part that it lies in. -/
theorem placeInPieces_of_lt (h : CutInto text parts) (number : Nat) {offset : Nat}
    (hlt : offset < byteLength text) :
    ∃ line inside, placeInPieces number offset parts =
        ⟨number + lineFeedsBefore text offset, line, inside⟩ ∧
      parts[lineFeedsBefore text offset]? = some line ∧ inside < byteLength line ∧
      ((parts.take (lineFeedsBefore text offset)).map byteLength).sum + inside = offset := by
  induction h generalizing number offset with
  | nil => exact absurd hlt (Nat.not_lt_zero offset)
  | @last line _ hline =>
    rw [lineFeedsBefore_of_notMem hline]
    exact ⟨line, offset, placeInPieces_cons_of_lt number [] hlt, rfl, hlt, by simp⟩
  | @line line rest parts hline hrest ih =>
    by_cases hfirst : offset < byteLength (line ++ ['\n'])
    · rw [lineFeedsBefore_of_lt hline rest hfirst]
      exact ⟨_, offset, placeInPieces_cons_of_lt number parts hfirst, rfl, hfirst, by simp⟩
    · have hle : byteLength (line ++ ['\n']) ≤ offset := Nat.le_of_not_lt hfirst
      have htotal : byteLength (line ++ '\n' :: rest) =
          byteLength (line ++ ['\n']) + byteLength rest := by simp [Nat.add_assoc]
      have hlt' : offset - byteLength (line ++ ['\n']) < byteLength rest := by omega
      have hothers : parts ≠ [] := by
        rw [Ne, hrest.eq_nil_iff]
        rintro rfl
        exact absurd hlt' (Nat.not_lt_zero _)
      obtain ⟨found, inside, hplace, hpart, hinside, hsum⟩ := ih (number + 1) hlt'
      rw [lineFeedsBefore_of_le hline rest hle, placeInPieces_cons_of_le number hothers hle, hplace]
      refine ⟨found, inside, ?_, hpart, hinside, ?_⟩
      · rw [Nat.add_right_comm, Nat.add_assoc]
      · rw [List.take_succ_cons, List.map_cons, List.sum_cons]
        omega

/-- The offset behind the text is found at the end of the last part. -/
theorem placeInPieces_byteLength (h : CutInto text parts) (number : Nat) :
    placeInPieces number (byteLength text) parts =
      ⟨number + (parts.length - 1), parts.getLast?.getD [],
        byteLength (parts.getLast?.getD [])⟩ := by
  induction h generalizing number with
  | nil => rfl
  | last => simp [placeInPieces]
  | @line line rest parts _ hrest ih =>
    have htotal : byteLength (line ++ '\n' :: rest) =
        byteLength (line ++ ['\n']) + byteLength rest := by simp [Nat.add_assoc]
    rw [htotal]
    by_cases hothers : parts = []
    · obtain rfl := hrest.eq_nil_iff.1 hothers
      subst hothers
      simp [placeInPieces]
    · obtain ⟨next, others, rfl⟩ := List.exists_cons_of_ne_nil hothers
      rw [placeInPieces_cons_of_le number hothers (Nat.le_add_right _ _), Nat.add_sub_cancel_left,
        ih, List.getLast?_cons_cons]
      simp only [LinePlace.mk.injEq, and_self, and_true, List.length_cons]
      omega

end CutInto

/-- A text is cut after each line feed in exactly one way. An offset has a line unless it is beyond
the text. In the text the line's number is one more than the line feeds in the bytes before the
offset, the line is the part of that number, the offset lies in it, and the parts before it take up
all bytes up to it. The offset just past the text is at the end of the last part, also when a line
feed ends that part; a text without any parts has one empty line. -/
theorem exists_cutInto_lineAt? (text : List Char) (offset : Nat) :
    ∃ parts, (∀ other, CutInto text other ↔ other = parts) ∧
      (lineAt? text offset = none ↔ byteLength text < offset) ∧
      (offset < byteLength text → ∃ line inside,
        lineAt? text offset = some ⟨1 + lineFeedsBefore text offset, line, inside⟩ ∧
          parts[lineFeedsBefore text offset]? = some line ∧ inside < byteLength line ∧
          ((parts.take (lineFeedsBefore text offset)).map byteLength).sum + inside = offset) ∧
      (offset = byteLength text → lineAt? text offset =
        some ⟨max parts.length 1, parts.getLast?.getD [],
          byteLength (parts.getLast?.getD [])⟩) := by
  have hcut := cutInto_pieces text
  have hunique : ∀ other, CutInto text other ↔ other = pieces text :=
    fun other => ⟨CutInto.eq_pieces, fun heq => heq ▸ hcut⟩
  refine ⟨pieces text, hunique, ?_, fun hlt => ?_, fun heq => ?_⟩
  · rw [lineAt?_eq]
    split
    · simp [*]
    · simp [*]
  · obtain ⟨line, inside, hplace, hrest⟩ := hcut.placeInPieces_of_lt 1 hlt
    rw [lineAt?_eq, if_neg (Nat.lt_asymm hlt), hplace]
    exact ⟨line, inside, rfl, hrest⟩
  · have hnumber : 1 + ((pieces text).length - 1) = max (pieces text).length 1 := by omega
    rw [heq, lineAt?_eq, if_neg (Nat.lt_irrefl _), hcut.placeInPieces_byteLength, hnumber]

/-- Two lines that are both ended by a line feed, with a character of two bytes on the first. -/
def endedText : List Char := ['é', '\n', 'a', 'b', '\n']

/-- An offset inside the first character is on the first line, one behind the line feed on the
second, and so is the offset just past the text. -/
theorem lineAt?_endedText :
    (∃ line inside, lineAt? endedText 1 = some ⟨1, line, inside⟩ ∧ 0 + inside = 1 ∧
      inside < byteLength line) ∧
    (∃ line inside, lineAt? endedText 4 = some ⟨2, line, inside⟩ ∧ 3 + inside = 4 ∧
      inside < byteLength line) ∧
    lineAt? endedText 6 = some ⟨2, ['a', 'b', '\n'], 3⟩ := by
  have hparts : pieces endedText = [['é', '\n'], ['a', 'b', '\n']] := by decide
  obtain ⟨parts, hcut, -, hfirst, -⟩ := exists_cutInto_lineAt? endedText 1
  obtain ⟨parts', hcut', -, hsecond, -⟩ := exists_cutInto_lineAt? endedText 4
  obtain ⟨parts'', hcut'', -, -, hend⟩ := exists_cutInto_lineAt? endedText 6
  obtain rfl := (hcut _).1 (cutInto_pieces endedText)
  obtain rfl := (hcut' _).1 (cutInto_pieces endedText)
  obtain rfl := (hcut'' _).1 (cutInto_pieces endedText)
  obtain ⟨line, inside, hplace, -, hinside, hsum⟩ := hfirst (by decide)
  obtain ⟨line', inside', hplace', -, hinside', hsum'⟩ := hsecond (by decide)
  rw [hparts] at hsum hsum'
  refine ⟨⟨line, inside, hplace, hsum, hinside⟩, ⟨line', inside', hplace', hsum', hinside'⟩, ?_⟩
  rw [hend (by decide), hparts]
  rfl

end LexicalScoping
