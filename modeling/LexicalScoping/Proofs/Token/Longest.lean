import LexicalScoping.Token.Lexeme
import Mathlib.Data.List.TakeWhile

/-!
# The first pattern that fits takes the longest text

A pattern stands for a set of texts, given by `Pattern.Matches` without regard to how the lexer
looks for them. The lexer takes the longest text of the pattern at the start of the source
(`lexeme?_eq_some_iff`). Patterns that begin with the same character stand in the table so that the
earlier one takes more, so the first pattern that fits takes more than every other one
(`first?_eq_some_iff`).
-/
namespace LexicalScoping

/-- What can stand between the quotes of a string literal: no quote, unless it is behind a
backslash, and no backslash without a character behind it. -/
inductive StringBody : List Char → Prop
  | nil : StringBody []
  | plain {c : Char} {body : List Char} : c ≠ '"' → c ≠ '\\' → StringBody body →
    StringBody (c :: body)
  | escaped (c : Char) {body : List Char} : StringBody body → StringBody ('\\' :: c :: body)

namespace Pattern

/-- The texts that a pattern stands for. -/
def Matches : Pattern → List Char → Prop
  | word, text => ∃ c rest, text = c :: rest ∧ isWordStart c ∧ ∀ d ∈ rest, isWordPart d
  | number, text => ∃ whole, whole ≠ [] ∧ (∀ d ∈ whole, d.isDigit) ∧ (text = whole ∨
    ∃ places, places ≠ [] ∧ (∀ d ∈ places, d.isDigit) ∧ text = whole ++ '.' :: places)
  | blank, text => text ≠ [] ∧ ∀ c ∈ text, Text.isBlank c
  | string, text => ∃ body, StringBody body ∧ text = '"' :: (body ++ ['"'])
  | openQuote, text => text = ['"']
  | comment, text => ∃ words, '\n' ∉ words ∧ text = '/' :: '/' :: words
  | mark row, text => text = row.spelling.toList

/-- The text is the longest one at the start of the source that the pattern stands for. -/
structure Longest (p : Pattern) (source text : List Char) : Prop where
  isPrefix : text <+: source
  fits : p.Matches text
  length_le : ∀ other, other <+: source → p.Matches other → other.length ≤ text.length

end Pattern

/-- A text that is all of a class is within the run of the class at the start. -/
theorem length_le_takeWhile {p : Char → Bool} {text source : List Char} (h : text <+: source)
    (hall : ∀ c ∈ text, p c) : text.length ≤ (source.takeWhile p).length := by
  obtain ⟨rest, rfl⟩ := h
  rw [List.takeWhile_append_of_pos hall, List.length_append]
  omega

theorem ne_nil_of_length_le {short long : List Char} (hne : short ≠ [])
    (hle : short.length ≤ long.length) : long ≠ [] := by
  have hpos := List.length_pos_iff.2 hne
  exact List.length_pos_iff.1 (by omega)

/-- What closes a string literal is a body and a quote. -/
theorem closedString?_eq_some {source text : List Char} (h : closedString? source = some text) :
    ∃ body, StringBody body ∧ text = body ++ ['"'] := by
  fun_induction closedString? source generalizing text with
  | case1 => cases h
  | case2 rest => cases h; exact ⟨[], .nil, rfl⟩
  | case3 => cases h
  | case4 d rest _ ih =>
    obtain ⟨inner, hinner, rfl⟩ := Option.map_eq_some_iff.1 h
    obtain ⟨body, hbody, rfl⟩ := ih hinner
    exact ⟨'\\' :: d :: body, .escaped d hbody, rfl⟩
  | case5 c rest hquote hbackslash ih =>
    obtain ⟨inner, hinner, rfl⟩ := Option.map_eq_some_iff.1 h
    obtain ⟨body, hbody, rfl⟩ := ih hinner
    exact ⟨c :: body, .plain hquote hbackslash hbody, rfl⟩

theorem closedString?_quote (rest : List Char) : closedString? ('"' :: rest) = some ['"'] := by
  rw [closedString?.eq_def]
  rfl

theorem closedString?_escaped (c : Char) (rest : List Char) :
    closedString? ('\\' :: c :: rest) = (closedString? rest).map ('\\' :: c :: ·) := by
  rw [closedString?.eq_def]
  rfl

theorem closedString?_plain {c : Char} (hquote : c ≠ '"') (hbackslash : c ≠ '\\')
    (rest : List Char) : closedString? (c :: rest) = (closedString? rest).map (c :: ·) := by
  rw [closedString?.eq_def]
  simp [hquote, hbackslash]

/-- A body with a quote behind it is closed there, whatever follows. -/
theorem closedString?_of_body {body : List Char} (h : StringBody body) (rest : List Char) :
    closedString? (body ++ '"' :: rest) = some (body ++ ['"']) := by
  induction h with
  | nil => exact closedString?_quote rest
  | plain hquote hbackslash _ ih =>
    rw [List.cons_append, closedString?_plain hquote hbackslash, ih]
    rfl
  | escaped c _ ih =>
    rw [List.cons_append, List.cons_append, closedString?_escaped, ih]
    rfl

namespace Pattern

theorem matches_of_lexeme? {p : Pattern} {source text : List Char}
    (h : p.lexeme? source = some text) : p.Matches text := by
  cases p with
  | word =>
    cases source with
    | nil => cases h
    | cons c rest =>
      simp only [lexeme?] at h
      split at h
      · next hc =>
        cases h
        exact ⟨c, _, rfl, hc, fun d hd => List.mem_takeWhile_imp hd⟩
      · cases h
  | number =>
    obtain ⟨whole, hwhole, rfl⟩ := Option.map_eq_some_iff.1 h
    obtain ⟨rfl, hne⟩ := nonempty?_eq_some hwhole
    refine ⟨_, hne, fun d hd => List.mem_takeWhile_imp hd, ?_⟩
    generalize source.drop (source.takeWhile Char.isDigit).length = rest
    unfold pointAndPlaces
    split
    · next rest' =>
      split
      · exact .inl (List.append_nil _)
      · next hplaces =>
        exact .inr ⟨_, hplaces, fun d hd => List.mem_takeWhile_imp hd, rfl⟩
    · exact .inl (List.append_nil _)
  | blank =>
    obtain ⟨rfl, hne⟩ := nonempty?_eq_some h
    exact ⟨hne, fun c hc => List.mem_takeWhile_imp hc⟩
  | string =>
    simp only [lexeme?] at h
    split at h
    · obtain ⟨inner, hinner, rfl⟩ := Option.map_eq_some_iff.1 h
      obtain ⟨body, hbody, rfl⟩ := closedString?_eq_some hinner
      exact ⟨body, hbody, rfl⟩
    · cases h
  | openQuote =>
    simp only [lexeme?] at h
    split at h <;> cases h
    rfl
  | comment =>
    simp only [lexeme?] at h
    split at h <;> cases h
    refine ⟨_, fun hmem => ?_, rfl⟩
    simpa using List.mem_takeWhile_imp hmem
  | mark row =>
    simp only [lexeme?] at h
    split at h <;> cases h
    rfl

theorem length_le_pointAndPlaces {places : List Char} (hne : places ≠ [])
    (hdigits : ∀ d ∈ places, d.isDigit) (rest : List Char) :
    places.length + 1 ≤ (pointAndPlaces ('.' :: (places ++ rest))).length := by
  have hle : places.length ≤ ((places ++ rest).takeWhile Char.isDigit).length :=
    length_le_takeWhile (List.prefix_append places rest) hdigits
  have hrun : (places ++ rest).takeWhile Char.isDigit ≠ [] :=
    ne_nil_of_length_le hne hle
  have hpoint : pointAndPlaces ('.' :: (places ++ rest)) =
      '.' :: (places ++ rest).takeWhile Char.isDigit := by
    rw [pointAndPlaces]
    split
    · contradiction
    · rfl
  rw [hpoint, List.length_cons]
  omega

/-- If a pattern stands for a text at the start of the source, it takes one that is no shorter. -/
theorem exists_lexeme?_of_matches {p : Pattern} {source other : List Char}
    (hstarts : other <+: source) (hfits : p.Matches other) :
    ∃ text, p.lexeme? source = some text ∧ other.length ≤ text.length := by
  obtain ⟨rest, rfl⟩ := hstarts
  cases p with
  | word =>
    obtain ⟨c, tail, rfl, hc, htail⟩ := hfits
    have hle := length_le_takeWhile (List.prefix_append tail rest) htail
    refine ⟨c :: (tail ++ rest).takeWhile isWordPart, if_pos hc, ?_⟩
    rw [List.length_cons, List.length_cons]
    omega
  | number =>
    obtain ⟨whole, hne, hwhole, hother⟩ := hfits
    rcases hother with rfl | ⟨places, hplaces, hdigits, rfl⟩
    · have hle := length_le_takeWhile (List.prefix_append other rest) hwhole
      refine ⟨_, congrArg (Option.map _) (if_neg (ne_nil_of_length_le hne hle)), ?_⟩
      rw [List.length_append]
      omega
    · have hrun : (whole ++ '.' :: places ++ rest).takeWhile Char.isDigit = whole := by
        rw [List.append_assoc, List.takeWhile_append_of_pos hwhole]
        simp
      have hdrop : (whole ++ '.' :: places ++ rest).drop whole.length =
          '.' :: (places ++ rest) := by simp
      have hle := length_le_pointAndPlaces hplaces hdigits rest
      refine ⟨whole ++ pointAndPlaces ('.' :: (places ++ rest)), ?_, ?_⟩
      · simp only [lexeme?, hrun, nonempty?, if_neg hne, Option.map_some, hdrop]
      · rw [List.length_append, List.length_append, List.length_cons]
        omega
  | blank =>
    obtain ⟨hne, hblank⟩ := hfits
    have hle := length_le_takeWhile (List.prefix_append other rest) hblank
    exact ⟨_, if_neg (ne_nil_of_length_le hne hle), hle⟩
  | string =>
    obtain ⟨body, hbody, rfl⟩ := hfits
    have hclosed := closedString?_of_body hbody rest
    exact ⟨'"' :: (body ++ ['"']), by simp [lexeme?, hclosed], Nat.le_refl _⟩
  | openQuote =>
    obtain rfl : other = ['"'] := hfits
    exact ⟨['"'], rfl, Nat.le_refl _⟩
  | comment =>
    obtain ⟨words, hwords, rfl⟩ := hfits
    have hline : ∀ c ∈ words, decide (c ≠ '\n') := by
      intro c hc
      have hne : c ≠ '\n' := fun he => hwords (he ▸ hc)
      exact decide_eq_true hne
    have hle := length_le_takeWhile (List.prefix_append words rest) hline
    refine ⟨'/' :: '/' :: (words ++ rest).takeWhile (· ≠ '\n'), rfl, ?_⟩
    rw [List.length_cons, List.length_cons, List.length_cons, List.length_cons]
    omega
  | mark row =>
    obtain rfl : other = row.spelling.toList := hfits
    exact ⟨row.spelling.toList, by simp [lexeme?], Nat.le_refl _⟩

namespace Longest

variable {p : Pattern} {source text : List Char}

theorem unique (h : p.Longest source text) {other : List Char} (hother : p.Longest source other) :
    text = other := by
  have hle := h.length_le other hother.isPrefix hother.fits
  have hge := hother.length_le text h.isPrefix h.fits
  exact (List.prefix_of_prefix_length_le h.isPrefix hother.isPrefix hge).eq_of_length_le hle

end Longest

/-- A pattern takes the longest text that it stands for. -/
theorem lexeme?_eq_some_iff {p : Pattern} {source text : List Char} :
    p.lexeme? source = some text ↔ p.Longest source text := by
  have hlongest : ∀ {text}, p.lexeme? source = some text → p.Longest source text := by
    intro text h
    refine ⟨isPrefix_of_lexeme? h, matches_of_lexeme? h, fun other hstarts hfits => ?_⟩
    obtain ⟨text', h', hle⟩ := exists_lexeme?_of_matches hstarts hfits
    rw [h] at h'
    cases h'
    exact hle
  constructor
  · exact hlongest
  · intro h
    obtain ⟨text', h', -⟩ := exists_lexeme?_of_matches h.isPrefix h.fits
    rw [h', h.unique (hlongest h')]

/-- A pattern takes nothing if it stands for no text at the start of the source. -/
theorem lexeme?_eq_none_iff {p : Pattern} {source : List Char} :
    p.lexeme? source = none ↔ ∀ other, other <+: source → ¬ p.Matches other := by
  constructor
  · intro h other hstarts hfits
    obtain ⟨text, htext, -⟩ := exists_lexeme?_of_matches hstarts hfits
    rw [h] at htext
    contradiction
  · intro h
    cases hlexeme : p.lexeme? source with
    | none => rfl
    | some text => exact absurd (matches_of_lexeme? hlexeme) (h text (isPrefix_of_lexeme? hlexeme))

end Pattern

/-- What a character can begin. -/
inductive Lead
  | blank
  | letter
  | digit
  | quote
  | other
deriving DecidableEq, Repr

/-- What a character can begin, by its class. -/
def Lead.of (c : Char) : Lead :=
  if Text.isBlank c then blank
  else if isWordStart c then letter
  else if c.isDigit then digit
  else if c = '"' then quote
  else other

theorem toNat_of_isWordStart {c : Char} (h : isWordStart c) :
    65 ≤ c.toNat ∧ c.toNat ≤ 122 := by
  change (decide (c.val ≥ 65 ∧ c.val ≤ 90) || (c.val ≥ 97 && c.val ≤ 122) || c = '_') = true at h
  simp only [Bool.or_eq_true, Bool.and_eq_true, decide_eq_true_eq, UInt32.le_iff_toNat_le,
    ge_iff_le] at h
  rcases h with (⟨hlow, hhigh⟩ | ⟨hlow, hhigh⟩) | rfl
  · exact ⟨hlow, Nat.le_trans hhigh (by decide)⟩
  · exact ⟨Nat.le_trans (by decide) hlow, hhigh⟩
  · decide

theorem toNat_of_isDigit {c : Char} (h : c.isDigit) : 48 ≤ c.toNat ∧ c.toNat ≤ 57 := by
  simp only [Char.isDigit, Bool.and_eq_true, decide_eq_true_eq, UInt32.le_iff_toNat_le,
    ge_iff_le] at h
  exact h

/-- No character of ASCII that is seen is blank. -/
theorem isBlank_eq_false {c : Char} (hlow : 33 ≤ c.toNat) (hhigh : c.toNat ≤ 126) :
    Text.isBlank c = false := by
  have htab : ¬ c.toNat < 9 := by omega
  have hfeeds : ¬ c.toNat ≤ 13 := by omega
  have hspace : ¬ c.toNat < 32 := by omega
  have hspace' : ¬ c.toNat ≤ 32 := by omega
  have hnext : c.toNat < 133 := by omega
  simp [Text.isBlank, Text.blankRanges, Text.inRanges, htab, hfeeds, hspace, hspace', hnext]

theorem isBlank_eq_false_of_lead {c : Char} (h : Lead.of c ≠ .blank) : Text.isBlank c = false := by
  unfold Lead.of at h
  split at h
  · contradiction
  · next hblank => simpa using hblank

namespace Pattern

/-- What the texts of a pattern begin with. -/
def lead : Pattern → Lead
  | word => .letter
  | number => .digit
  | blank => .blank
  | string | openQuote => .quote
  | comment | mark _ => .other

theorem exists_cons_of_matches {p : Pattern} (hp : p ∈ table) {text : List Char}
    (h : p.Matches text) : ∃ c rest, text = c :: rest ∧ Lead.of c = p.lead := by
  cases p with
  | word =>
    obtain ⟨c, rest, rfl, hc, -⟩ := h
    obtain ⟨hlow, hhigh⟩ := toNat_of_isWordStart hc
    have hblank : Text.isBlank c = false := isBlank_eq_false (by omega) (by omega)
    exact ⟨c, rest, rfl, by simp [Lead.of, hblank, hc, lead]⟩
  | number =>
    obtain ⟨whole, hne, hwhole, htext⟩ := h
    obtain ⟨c, whole, rfl⟩ := List.exists_cons_of_ne_nil hne
    have hc := hwhole c List.mem_cons_self
    obtain ⟨hlow, hhigh⟩ := toNat_of_isDigit hc
    have hblank : Text.isBlank c = false := isBlank_eq_false (by omega) (by omega)
    have hword : isWordStart c = false := by
      cases hstart : isWordStart c with
      | false => rfl
      | true =>
        have hletter := toNat_of_isWordStart hstart
        omega
    have hlead : Lead.of c = .digit := by simp [Lead.of, hblank, hword, hc]
    rcases htext with rfl | ⟨places, -, -, rfl⟩
    · exact ⟨c, whole, rfl, hlead⟩
    · exact ⟨c, _, rfl, hlead⟩
  | blank =>
    obtain ⟨hne, hblank⟩ := h
    obtain ⟨c, rest, rfl⟩ := List.exists_cons_of_ne_nil hne
    exact ⟨c, rest, rfl, if_pos (hblank c List.mem_cons_self)⟩
  | string =>
    obtain ⟨body, -, rfl⟩ := h
    exact ⟨'"', _, rfl, by decide⟩
  | openQuote =>
    obtain rfl : text = ['"'] := h
    exact ⟨'"', [], rfl, by decide⟩
  | comment =>
    obtain ⟨words, -, rfl⟩ := h
    exact ⟨'/', _, rfl, by decide⟩
  | mark row =>
    have hmarks : ∀ mark ∈ Kind.marks,
        mark.spelling.toList.head?.all fun c => Lead.of c = .other := by decide
    obtain rfl : text = row.spelling.toList := h
    have hmark := mem_marks_of_mem_table hp
    obtain ⟨c, rest, htext⟩ := List.exists_cons_of_ne_nil (toList_ne_nil_of_mem_marks row hmark)
    have hlead := hmarks _ hmark
    rw [htext] at hlead
    exact ⟨c, rest, htext, of_decide_eq_true hlead⟩

theorem ne_nil_of_matches {p : Pattern} (hp : p ∈ table) {text : List Char} (h : p.Matches text) :
    text ≠ [] := by
  obtain ⟨c, rest, rfl, -⟩ := exists_cons_of_matches hp h
  exact List.cons_ne_nil c rest

/-- The earlier pattern takes more than the later one, if both begin with the same character. -/
def Yields (earlier later : Pattern) : Prop :=
  ∀ {text other}, earlier.Matches text → later.Matches other → text.head? = other.head? →
    other.length < text.length

/-- Why one pattern may stand before another in the table. Mostly they begin with different
characters; a closed string literal is longer than a quote, a comment is longer than a slash, and a
mark is longer than the marks that it begins with. -/
def precedes : Pattern → Pattern → Bool
  | string, openQuote => true
  | comment, mark row => row.spelling.toList.head? = some '/' → row.spelling.toList.length = 1
  | mark row, mark later =>
    row.spelling.toList.head? = later.spelling.toList.head? →
      later.spelling.toList.length < row.spelling.toList.length
  | earlier, later => earlier.lead ≠ later.lead

theorem pairwise_precedes_table : table.Pairwise fun p q => p.precedes q := by
  decide

theorem yields_of_lead_ne {p q : Pattern} (hp : p ∈ table) (hq : q ∈ table)
    (h : p.lead ≠ q.lead) : Yields p q := by
  intro text other htext hother hhead
  obtain ⟨c, rest, rfl, hc⟩ := exists_cons_of_matches hp htext
  obtain ⟨d, rest', rfl, hd⟩ := exists_cons_of_matches hq hother
  cases hhead
  exact absurd (hc.symm.trans hd) h

theorem yields_of_precedes {p q : Pattern} (hp : p ∈ table) (hq : q ∈ table)
    (h : p.precedes q) : Yields p q := by
  unfold precedes at h
  split at h
  · intro text other htext hother hhead
    obtain ⟨body, -, rfl⟩ := htext
    obtain rfl : other = ['"'] := hother
    simp
  · intro text other htext hother hhead
    obtain ⟨words, -, rfl⟩ := htext
    obtain rfl := hother
    have hlength := of_decide_eq_true h hhead.symm
    rw [hlength]
    simp
  · intro text other htext hother hhead
    obtain rfl := htext
    obtain rfl := hother
    exact of_decide_eq_true h hhead
  · exact yields_of_lead_ne hp hq (by simpa using h)

/-- The first pattern that fits takes the longest text that it stands for, and more than every other
pattern stands for. -/
theorem first?_eq_some_iff {source text : List Char} {p : Pattern} :
    first? source = some (p, text) ↔ p ∈ table ∧ p.Longest source text ∧
      ∀ q ∈ table, q ≠ p → ∀ other, other <+: source → q.Matches other →
        other.length < text.length := by
  have hfirst : ∀ {p text}, first? source = some (p, text) → p ∈ table ∧ p.Longest source text ∧
      ∀ q ∈ table, q ≠ p → ∀ other, other <+: source → q.Matches other →
        other.length < text.length := by
    intro p text h
    obtain ⟨earlier, p', later, htable, htakes, hnone⟩ := List.findSome?_eq_some_iff.1 h
    obtain ⟨text', hlexeme, hanswer⟩ := Option.map_eq_some_iff.1 htakes
    cases hanswer
    have hp : p ∈ table := by
      rw [htable]
      exact List.mem_append_right _ List.mem_cons_self
    have hlongest := lexeme?_eq_some_iff.1 hlexeme
    refine ⟨hp, hlongest, fun q hq hne other hstarts hfits => ?_⟩
    have hqs := hq
    rw [htable, List.mem_append, List.mem_cons] at hqs
    rcases hqs with hearlier | rfl | hlater
    · have hlexeme' : q.lexeme? source = none := by simpa using hnone q hearlier
      exact absurd hfits (lexeme?_eq_none_iff.1 hlexeme' other hstarts)
    · contradiction
    · have hpairwise := pairwise_precedes_table
      rw [htable, List.pairwise_append, List.pairwise_cons] at hpairwise
      have hprecedes := hpairwise.2.1.1 q hlater
      have hhead : text.head? = other.head? := by
        obtain ⟨c, rest, rfl, -⟩ := exists_cons_of_matches hp hlongest.fits
        obtain ⟨d, rest', rfl, -⟩ := exists_cons_of_matches hq hfits
        obtain ⟨back, hback⟩ := hlongest.isPrefix
        obtain ⟨back', hback'⟩ := hstarts
        rw [← hback'] at hback
        exact congrArg some (List.cons.inj hback).1
      exact yields_of_precedes hp hq hprecedes hlongest.fits hfits hhead
  constructor
  · exact hfirst
  · rintro ⟨hp, hlongest, hmore⟩
    obtain ⟨p', text', hanswer⟩ : ∃ p' text', first? source = some (p', text') := by
      cases hanswer : first? source with
      | some answer => exact ⟨answer.1, answer.2, rfl⟩
      | none =>
        have hnone := List.findSome?_eq_none_iff.1 hanswer p hp
        rw [lexeme?_eq_some_iff.2 hlongest] at hnone
        contradiction
    obtain ⟨hp', hlongest', hmore'⟩ := hfirst hanswer
    by_cases he : p' = p
    · subst he
      rw [hanswer, hlongest'.unique hlongest]
    · have hlt := hmore p' hp' he text' hlongest'.isPrefix hlongest'.fits
      have hgt := hmore' p hp (Ne.symm he) text hlongest.isPrefix hlongest.fits
      omega

theorem first?_eq_none_iff {source : List Char} :
    first? source = none ↔ ∀ p ∈ table, ∀ other, other <+: source → ¬ p.Matches other := by
  unfold first?
  rw [List.findSome?_eq_none_iff]
  simp [lexeme?_eq_none_iff]

end Pattern
end LexicalScoping
