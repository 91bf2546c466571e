import LexicalScoping.Proofs.Diagnostic.Seen
import LexicalScoping.Proofs.Source.Lines

/-!
# The caret stands under the character

What is shown for a diagnostic ends in the source line and a pointer. The line loses its indentation
and the blanks at its end, and the caret is placed by counting characters from where the indentation
ends. A diagnostic stands at a character that is no blank, so neither end of the line that is lost
reaches it, and the caret of the pointer stands under it.
-/
namespace LexicalScoping

namespace Text

theorem isPrefix_trimBlankEnd (text : List Char) : trimBlankEnd text <+: text := by
  rw [trimBlankEnd, ← List.reverse_suffix, List.reverse_reverse]
  exact List.dropWhile_suffix isBlank

/-- What is before a character that is no blank stays, and so does the character. -/
theorem trimBlankEnd_append_cons (front : List Char) {c : Char} (hc : isBlank c = false)
    (back : List Char) :
    trimBlankEnd (front ++ c :: back) = front ++ c :: trimBlankEnd back := by
  have hreverse : (front ++ c :: back).reverse = back.reverse ++ c :: front.reverse := by simp
  unfold trimBlankEnd
  rw [hreverse, List.dropWhile_append, List.dropWhile_cons_of_neg (by simp [hc])]
  split
  · next hempty => simp [List.isEmpty_iff.1 hempty]
  · simp

/-- The line feed that ends a line is lost. -/
theorem newline_notMem_trimBlankEnd {line : List Char} (h : '\n' ∉ line.dropLast) :
    '\n' ∉ trimBlankEnd line := by
  rcases List.eq_nil_or_concat line with rfl | ⟨front, last, rfl⟩
  · simp [trimBlankEnd]
  · rw [List.concat_eq_append, List.dropLast_concat] at h
    rw [List.concat_eq_append]
    by_cases hlast : last = '\n'
    · have htrim : trimBlankEnd (front ++ [last]) = trimBlankEnd front := by
        have hblank : isBlank last := by rw [hlast]; decide
        simp [trimBlankEnd, hblank]
      rw [htrim]
      exact fun hmem => h ((isPrefix_trimBlankEnd front).subset hmem)
    · intro hmem
      have hwhole := (isPrefix_trimBlankEnd (front ++ [last])).subset hmem
      simp [h, Ne.symm hlast] at hwhole

end Text

/-- Indentation is blank. -/
theorem isIndent_eq_false {c : Char} (h : Text.isBlank c = false) : isIndent c = false := by
  cases hindent : isIndent c with
  | false => rfl
  | true =>
    have hcases : c = ' ' ∨ c = '\t' := by simpa [isIndent] using hindent
    rcases hcases with rfl | rfl <;> exact absurd h (by decide)

/-- Spaces and tabs take one byte each, so the bytes of an indentation are its characters. -/
theorem byteLength_takeWhile_isIndent (text : List Char) :
    byteLength (text.takeWhile isIndent) = (text.takeWhile isIndent).length := by
  induction text with
  | nil => rfl
  | cons c text ih =>
    by_cases hc : isIndent c
    · have hcases : c = ' ' ∨ c = '\t' := by simpa [isIndent] using hc
      have hsize : c.utf8Size = 1 := by rcases hcases with rfl | rfl <;> rfl
      rw [List.takeWhile_cons_of_pos hc, byteLength_cons, List.length_cons, ih, hsize,
        Nat.add_comm]
    · rw [List.takeWhile_cons_of_neg hc]
      rfl

theorem takeWhile_isIndent_append {c : Char} (hc : isIndent c = false) (front back : List Char) :
    (front ++ c :: back).takeWhile isIndent = front.takeWhile isIndent := by
  rw [List.takeWhile_append, List.takeWhile_cons_of_neg (by simp [hc]), List.append_nil]
  split
  · next hall =>
    have hwhole : front.takeWhile isIndent <+: front := List.takeWhile_prefix isIndent
    exact (hwhole.eq_of_length hall).symm
  · rfl

theorem dropWhile_isIndent_append {c : Char} (hc : isIndent c = false) (front back : List Char) :
    (front ++ c :: back).dropWhile isIndent = front.dropWhile isIndent ++ c :: back := by
  rw [List.dropWhile_append, List.dropWhile_cons_of_neg (by simp [hc])]
  split
  · next hempty => rw [List.isEmpty_iff.1 hempty, List.nil_append]
  · rfl

namespace LinePlace

namespace Parts

variable {place : LinePlace} {front tail : List Char} {c : Char} (h : place.Parts front c tail)
  (hc : Text.isBlank c = false)
include h hc

/-- Neither end of the line that is lost reaches a character that is no blank. -/
theorem shownText_eq :
    place.shownText = front.dropWhile isIndent ++ c :: Text.trimBlankEnd tail := by
  rw [shownText, h.text, dropWhile_isIndent_append (isIndent_eq_false hc),
    Text.trimBlankEnd_append_cons _ hc]

/-- The caret stands behind what is shown before the character. -/
theorem caretWidth_eq : place.caretWidth = (front.dropWhile isIndent).length + 1 := by
  have hsplit : (front.takeWhile isIndent).length + (front.dropWhile isIndent).length =
      front.length := by
    rw [← List.length_append, List.takeWhile_append_dropWhile]
  rw [caretWidth, h.text, h.offset, takeWhile_isIndent_append (isIndent_eq_false hc),
    byteLength_takeWhile_isIndent, charsBefore?_byteLength, Option.getD_some]
  omega

theorem getElem?_shownText : place.shownText[place.caretWidth - 1]? = some c := by
  rw [h.caretWidth_eq hc, h.shownText_eq hc, Nat.add_sub_cancel]
  simp

/-- What is shown of a line is on one line. -/
theorem newline_notMem_shownText (hfront : '\n' ∉ front) (htail : '\n' ∉ (c :: tail).dropLast) :
    '\n' ∉ place.shownText := by
  rw [shownText, h.text, dropWhile_isIndent_append (isIndent_eq_false hc)]
  refine Text.newline_notMem_trimBlankEnd ?_
  rw [List.dropLast_append_of_ne_nil (List.cons_ne_nil c tail), List.mem_append, not_or]
  exact ⟨fun hmem => hfront ((List.dropWhile_suffix isIndent).subset hmem), htail⟩

end Parts

/-- The line as it is shown behind its number. -/
def row (place : LinePlace) : List Char :=
  (toString place.number).toList ++ " | ".toList ++ place.shownText

theorem newline_notMem_row {place : LinePlace} (h : '\n' ∉ place.shownText) :
    '\n' ∉ place.row := by
  have hnumber : '\n' ∉ Nat.toDigits 10 place.number := fun hmem =>
    absurd (Nat.isDigit_of_mem_toDigits (by decide) (by decide) hmem) (by decide)
  simp [row, hnumber, h]

/-- What is before a pointer, and alone on the first line of an excerpt. -/
def bar (place : LinePlace) : List Char :=
  List.replicate ((toString place.number).length + 1) ' ' ++ ['|']

theorem toList_excerpt (place : LinePlace) : place.excerpt.toList =
    place.bar ++ '\n' :: (place.row ++ '\n' ::
      (place.bar ++ ' ' :: (pointer place.caretWidth ++ ['\n']))) := by
  let spaces := String.ofList (List.replicate ((toString place.number).length + 1) ' ')
  have hexcerpt : place.excerpt = spaces ++ "|" ++ "\n" ++ toString place.number ++ " | " ++
      String.ofList place.shownText ++ "\n" ++ (spaces ++ "|") ++ " " ++
      String.ofList (pointer place.caretWidth) ++ "\n" := rfl
  rw [hexcerpt]
  simp [spaces, bar, row]

end LinePlace

/-- The text ends in the row and a pointer of one line, whose only caret stands under the character
in the row. -/
def CaretUnder (shown : String) (row : List Char) (c : Char) : Prop :=
  ∃ above dashes : List Char,
    shown.toList = above ++ '\n' :: row ++ '\n' :: dashes ++ ['^', '\n'] ∧
      '\n' ∉ row ∧ '\n' ∉ dashes ∧ '^' ∉ dashes ∧ row[dashes.length]? = some c

/-- An excerpt puts its caret as far to the right as the character stands in the row. -/
theorem LinePlace.caretUnder_excerpt {place : LinePlace} (hline : '\n' ∉ place.shownText) {c : Char}
    (hc : place.shownText[place.caretWidth - 1]? = some c) (above : String) :
    CaretUnder (above ++ place.excerpt) place.row c := by
  let dashes := place.bar ++ ' ' :: List.replicate (place.caretWidth - 1) '-'
  have hplain : ∀ d ∈ dashes, d = ' ' ∨ d = '|' ∨ d = '-' := by
    simp only [dashes, bar, List.mem_append, List.mem_cons, List.mem_replicate]
    grind
  have hlength : dashes.length =
      (toString place.number).toList.length + " | ".toList.length + (place.caretWidth - 1) := by
    have hbar : " | ".length = 3 := rfl
    simp only [dashes, bar, List.length_append, List.length_cons, List.length_nil,
      List.length_replicate, String.length_toList]
    omega
  refine ⟨above.toList ++ place.bar, dashes, ?_, newline_notMem_row hline, ?_, ?_, ?_⟩
  · rw [String.toList_append, toList_excerpt]
    simp [pointer, dashes]
  · exact fun hmem => absurd (hplain _ hmem) (by decide)
  · exact fun hmem => absurd (hplain _ hmem) (by decide)
  · rw [hlength, row, ← List.length_append, List.getElem?_append_right (Nat.le_add_right _ _),
      Nat.add_sub_cancel_left]
    exact hc

/-- All that is wrong with a source is reported at the place behind some text that starts the
source, with the line and the column of that place. If the source goes on there, the line found for
the offset has the number of the place, and in what is shown the caret stands under the next
character of the source. -/
theorem caretUnder_of_mem_diagnostics {source : String} {file : Option String} {d : Diagnostic}
    (h : d ∈ (analyse source file).diagnostics) :
    ∃ before rest, source.toList = before ++ rest ∧
      d.position = .behind (file.getD unnamedFile) before ∧
      d.position.offset ≤ byteLength source.toList ∧
      (d.position.offset < byteLength source.toList → ∃ c after line, rest = c :: after ∧
        lineAt? source.toList d.position.offset = some line ∧
        line.number = d.position.line ∧
        0 < line.caretWidth ∧ line.shownText[line.caretWidth - 1]? = some c ∧
        CaretUnder (d.shown source) line.row c) := by
  obtain ⟨before, rest, hsource, hplace, hseen⟩ := seenIn_of_mem_diagnostics h
  have hoffset : d.position.offset = byteLength before := by rw [hplace]; rfl
  refine ⟨before, rest, hsource, hplace, ?_, fun hlt => ?_⟩
  · rw [hoffset, hsource, byteLength_append]
    omega
  · cases hrest : rest with
    | nil =>
      rw [hoffset, hsource, hrest, List.append_nil] at hlt
      omega
    | cons c after =>
      rw [hrest] at hsource hseen
      have hc : Text.isBlank c = false := hseen c rfl
      obtain ⟨line, tail, hline, hnumber, hparts, htail⟩ := exists_lineAt? before c after
      rw [← hsource, ← hoffset] at hline
      have hline' : line.number = d.position.line := by rw [hnumber, hplace]; rfl
      have hshown := hparts.getElem?_shownText hc
      have hsingle := hparts.newline_notMem_shownText hc (newline_notMem_lastLine before) htail
      refine ⟨c, after, line, rfl, hline, hline', Nat.succ_pos _, hshown, ?_⟩
      rw [Diagnostic.shown, hline]
      exact LinePlace.caretUnder_excerpt hsingle hshown _

/-- A string literal over two lines, and a character behind it that begins nothing. -/
def strayText : String := "\"é\n\t\" @"

/-- The caret stands under the character, on the second line, behind the end of the literal. -/
theorem caretUnder_strayText :
    (⟨.unrecognisedToken "@", ⟨7, 2, 4, unnamedFile⟩⟩ : Diagnostic) ∈
        (analyse strayText none).diagnostics ∧
      CaretUnder (Diagnostic.shown ⟨.unrecognisedToken "@", ⟨7, 2, 4, unnamedFile⟩⟩ strayText)
        "2 | \" @".toList '@' := by
  have hmem : (⟨.unrecognisedToken "@", ⟨7, 2, 4, unnamedFile⟩⟩ : Diagnostic) ∈
      (analyse strayText none).diagnostics := by
    have hd : (analyse strayText none).diagnostics =
        [⟨.unrecognisedToken "@", ⟨7, 2, 4, unnamedFile⟩⟩] := by decide +kernel
    rw [hd]
    exact List.mem_singleton_self _
  have hlength : byteLength strayText.toList = 8 := by decide +kernel
  have hline : lineAt? strayText.toList 7 = some ⟨2, ['\t', '"', ' ', '@'], 3⟩ := by
    decide +kernel
  obtain ⟨_, _, -, -, -, hbelow⟩ := caretUnder_of_mem_diagnostics hmem
  obtain ⟨c, _, line, -, hline', -, -, hshown, hcaret⟩ := hbelow (by rw [hlength]; decide)
  rw [hline] at hline'
  cases hline'
  obtain rfl : c = '@' := by
    have hshown' : some '@' = some c := hshown
    exact (Option.some.inj hshown').symm
  exact ⟨hmem, hcaret⟩

end LexicalScoping
