import LexicalScoping.Proofs.Source.Lines
import LexicalScoping.Proofs.Token.Munch

/-!
# Sources one below the other

A source with another one below it, behind a line feed, is read into the tokens of both, those of
the lower one moved down (`tokenize_below`). The only lexemes with a line feed in them are blanks,
which leave no token, and string literals, which end at their quote; so what the lexer has
recognised of the upper source stays as it is (`first?_of_newline`, `Reached.joined`). The place
where the lexer starts matters for the places of what it finds and for nothing else
(`tokensFrom_shift`).
-/
namespace LexicalScoping

/-- The place so many bytes and lines further on, in the same column. -/
def Position.shift (bytes lines : Nat) (p : Position) : Position :=
  { p with offset := p.offset + bytes, line := p.line + lines }

def Span.shift (bytes lines : Nat) (span : Span) : Span :=
  ⟨span.start.shift bytes lines, span.stop.shift bytes lines⟩

def Token.shift (bytes lines : Nat) (token : Token) : Token :=
  { token with span := token.span.shift bytes lines }

def Diagnostic.shift (bytes lines : Nat) (d : Diagnostic) : Diagnostic :=
  { d with position := d.position.shift bytes lines }

section Shift

variable (bytes lines : Nat)

@[simp] theorem Position.after_shift (p : Position) (c : Char) :
    (p.shift bytes lines).after c = (p.after c).shift bytes lines := by
  unfold after shift
  split
  · ext
    · exact Nat.add_right_comm p.offset bytes c.utf8Size
    · exact Nat.add_right_comm p.line lines 1
    · rfl
    · rfl
  · ext
    · exact Nat.add_right_comm p.offset bytes c.utf8Size
    · rfl
    · rfl
    · rfl

@[simp] theorem Position.afterText_shift (p : Position) (text : List Char) :
    (p.shift bytes lines).afterText text = (p.afterText text).shift bytes lines := by
  induction text generalizing p with
  | nil => rfl
  | cons c text ih => simp [ih]

/-- The place behind a line is where a source below it starts. -/
theorem Position.shift_first (file : String) (text : List Char) :
    (first file).shift (byteLength text + 1) (1 + text.count '\n') =
      behind file (text ++ ['\n']) := by
  have hsize : '\n'.utf8Size = 1 := rfl
  ext
  · simp [shift, first, behind, hsize]
  · simp [shift, first, behind, Nat.add_comm]
  · simp [shift, first, behind, lastLine_append_newline, lastLine]
  · rfl

/-- Where the lexer starts does not matter for what it finds, only for where that is. -/
theorem tokensFrom_shift (place : Position) (source : List Char) :
    tokensFrom (place.shift bytes lines) source =
      ((tokensFrom place source).map (List.map (Token.shift bytes lines))).mapError
        (Diagnostic.shift bytes lines) := by
  fun_induction tokensFrom place source with
  | case1 place =>
    rw [tokensFrom]
    rfl
  | case2 place c rest hfirst =>
    rw [tokensFrom_cons, hfirst]
    rfl
  | case3 place c rest p text hfirst cause hread =>
    rw [tokensFrom_cons, hfirst]
    simp only [hread]
    rfl
  | case4 place c rest p text hfirst written next hread ih =>
    have hwritten : text = written := (Pattern.written_of_first? hfirst).symm
    rw [tokensFrom_cons, hfirst]
    simp only [hread, Position.afterText_shift]
    rw [hwritten]
    exact ih
  | case5 place c rest p text hfirst written next kind literal hread ih =>
    have hwritten : text = written := (Pattern.written_of_first? hfirst).symm
    rw [tokensFrom_cons, hfirst]
    simp only [hread, Position.afterText_shift]
    rw [hwritten, ih]
    cases tokensFrom next ((c :: rest).drop written.length) with
    | ok others => rfl
    | error d => rfl

end Shift

/-- A text that starts a source of two parts starts the first, or goes on into the second. -/
theorem prefix_append_cons_cases {text upper lower : List Char} {c : Char}
    (h : text <+: upper ++ c :: lower) : text <+: upper ∨ upper ++ [c] <+: text := by
  have hupper : upper ++ [c] <+: upper ++ c :: lower := ⟨lower, by simp⟩
  by_cases hle : text.length ≤ upper.length
  · exact .inl (List.prefix_of_prefix_length_le h (List.prefix_append upper _) hle)
  · refine .inr (List.prefix_of_prefix_length_le hupper h ?_)
    rw [List.length_append, List.length_singleton]
    omega

namespace Pattern

/-- Only blanks and string literals can have a line feed in them. -/
theorem newline_notMem_of_matches {p : Pattern} (hp : p ∈ table) (hblank : p ≠ .blank)
    (hstring : p ≠ .string) {text : List Char} (h : p.Matches text) : '\n' ∉ text := by
  cases p with
  | blank => contradiction
  | string => contradiction
  | word =>
    obtain ⟨c, rest, rfl, hc, hrest⟩ := h
    rw [List.mem_cons, not_or]
    constructor
    · rintro rfl
      exact absurd hc (by decide)
    · exact fun hmem => absurd (hrest _ hmem) (by decide)
  | number =>
    obtain ⟨whole, -, hwhole, htext⟩ := h
    have hno : '\n' ∉ whole := fun hmem => absurd (hwhole _ hmem) (by decide)
    rcases htext with rfl | ⟨places, -, hplaces, rfl⟩
    · exact hno
    · have hno' : '\n' ∉ places := fun hmem => absurd (hplaces _ hmem) (by decide)
      simp [hno, hno']
  | openQuote =>
    obtain rfl : text = ['"'] := h
    decide
  | comment =>
    obtain ⟨words, hwords, rfl⟩ := h
    simp [hwords]
  | mark row =>
    have hmarks : ∀ mark ∈ Kind.marks, '\n' ∉ mark.spelling.toList := by decide
    obtain rfl : text = row.spelling.toList := h
    exact hmarks row (mem_marks_of_mem_table hp)

/-- A string literal ends at its quote, whatever is behind. -/
theorem string_unique {source text other : List Char} (htext : text <+: source)
    (hfits : Pattern.string.Matches text) (hother : other <+: source)
    (hfits' : Pattern.string.Matches other) : text = other := by
  have htakes : ∀ {text}, text <+: source → Pattern.string.Matches text →
      Pattern.string.lexeme? source = some text := by
    rintro _ ⟨rest, rfl⟩ ⟨body, hbody, rfl⟩
    simp [lexeme?, closedString?_of_body hbody rest]
  have heq := (htakes htext hfits).symm.trans (htakes hother hfits')
  exact Option.some.inj heq

/-- Blanks with something else behind them are taken as they are, for nothing else begins with a
blank. -/
theorem first?_of_blanks {blanks rest : List Char} (hne : blanks ≠ [])
    (hblanks : ∀ c ∈ blanks, Text.isBlank c) (hrest : ∀ c ∈ rest.head?, Text.isBlank c = false) :
    first? (blanks ++ rest) = some (.blank, blanks) := by
  have hrun : (blanks ++ rest).takeWhile Text.isBlank = blanks := by
    rw [List.takeWhile_append_of_pos hblanks]
    cases rest with
    | nil => simp
    | cons c rest => simp [hrest c rfl]
  have hlongest : Pattern.blank.Longest (blanks ++ rest) blanks :=
    lexeme?_eq_some_iff.1 (by rw [lexeme?, hrun, nonempty?, if_neg hne])
  refine first?_eq_some_iff.2 ⟨by decide, hlongest, fun q hq hother other hstarts hfits => ?_⟩
  obtain ⟨c, tail, rfl, hlead⟩ := exists_cons_of_matches hq hfits
  obtain ⟨d, blanks, rfl⟩ := List.exists_cons_of_ne_nil hne
  obtain rfl : c = d := (List.cons_prefix_cons.1 hstarts).1
  have hc : Lead.of c = .blank := if_pos (hblanks c List.mem_cons_self)
  rw [hc] at hlead
  cases q with
  | blank => contradiction
  | _ => cases hlead

/-- A lexeme is found again above a line feed, unless blanks go on into the line feed. Only a run of
blanks or a string literal could lie across it. -/
theorem first?_of_newline {text rest : List Char} {p : Pattern}
    (h : first? (text ++ rest) = some (p, text)) (hquote : p ≠ .openQuote)
    (hblank : p = .blank → rest ≠ []) (below : List Char) :
    first? (text ++ rest ++ '\n' :: below) = some (p, text) := by
  obtain ⟨hp, hlongest, hmore⟩ := first?_eq_some_iff.1 h
  have hstarts : text <+: text ++ rest ++ '\n' :: below :=
    hlongest.isPrefix.trans (List.prefix_append _ _)
  have hacross : ∀ q ∈ table, ∀ other, other <+: text ++ rest ++ '\n' :: below →
      q.Matches other → other <+: text ++ rest ∨ q = p ∧ other = text := by
    intro q hq other hother hfits
    rcases prefix_append_cons_cases hother with hupper | hover
    · exact .inl hupper
    · right
      have hnewline : '\n' ∈ other := hover.subset (by simp)
      have hwhole : text ++ rest <+: other := (List.prefix_append _ _).trans hover
      have hne : text ++ rest ≠ [] :=
        List.append_ne_nil_of_left_ne_nil (ne_nil_of_matches hp hlongest.fits) rest
      by_cases hqb : q = .blank
      · subst hqb
        have hblanks : Pattern.blank.Matches (text ++ rest) :=
          ⟨hne, fun c hc => hfits.2 c (hwhole.subset hc)⟩
        by_cases hpb : p = .blank
        · subst hpb
          have hle := hlongest.length_le _ (List.prefix_refl _) hblanks
          have hrest := List.length_pos_iff.2 (hblank rfl)
          rw [List.length_append] at hle
          omega
        · have hlt := hmore .blank hq (Ne.symm hpb) _ (List.prefix_refl _) hblanks
          rw [List.length_append] at hlt
          omega
      · by_cases hqs : q = .string
        · subst hqs
          obtain ⟨body, -, rfl⟩ := id hfits
          obtain ⟨c, tail, htext⟩ := List.exists_cons_of_ne_nil (ne_nil_of_matches hp hlongest.fits)
          obtain rfl : c = '"' := by
            rw [htext] at hwhole
            exact (List.cons_prefix_cons.1 hwhole).1
          have hsource : text <+: '"' :: (tail ++ rest ++ '\n' :: below) := by
            rw [htext]
            exact ⟨rest ++ '\n' :: below, by simp⟩
          obtain rfl := eq_string_of_matches_quote hp hquote hsource hlongest.fits
          exact ⟨rfl, (string_unique hstarts hlongest.fits hother hfits).symm⟩
        · exact absurd hnewline (newline_notMem_of_matches hq hqb hqs hfits)
  refine first?_eq_some_iff.2 ⟨hp, ⟨hstarts, hlongest.fits, fun other hother hfits => ?_⟩,
    fun q hq hne other hother hfits => ?_⟩
  · rcases hacross p hp other hother hfits with hupper | ⟨-, rfl⟩
    · exact hlongest.length_le other hupper hfits
    · exact Nat.le_refl _
  · rcases hacross q hq other hother hfits with hupper | ⟨heq, -⟩
    · exact hmore q hq hne other hupper hfits
    · exact absurd heq hne

end Pattern

/-- What starts no lexeme and is no quote starts none above a line feed either. -/
theorem StartsNoLexeme.of_newline {c : Char} {after : List Char} (h : StartsNoLexeme (c :: after))
    (hquote : c ≠ '"') (below : List Char) : StartsNoLexeme (c :: after ++ '\n' :: below) := by
  intro p hp hne text hstarts hfits
  rcases prefix_append_cons_cases hstarts with hupper | hover
  · exact h p hp hne text hupper hfits
  · have hnewline : '\n' ∈ text := hover.subset (by simp)
    have hfirst : [c] <+: text := .trans ⟨after ++ ['\n'], rfl⟩ hover
    by_cases hblank : p = .blank
    · subst hblank
      have hc : Text.isBlank c := hfits.2 c (hfirst.subset List.mem_cons_self)
      exact h .blank hp hne [c] ⟨after, rfl⟩ ⟨List.cons_ne_nil c [], by simpa using hc⟩
    · by_cases hstring : p = .string
      · subst hstring
        obtain ⟨body, -, rfl⟩ := hfits
        exact hquote (List.cons_prefix_cons.1 hfirst).1
      · exact absurd hnewline (Pattern.newline_notMem_of_matches hp hblank hstring hfits)

/-- The lexer passes over blanks, whether or not more of them follow. -/
theorem tokensFrom_blanks {blanks : List Char} (h : ∀ c ∈ blanks, Text.isBlank c)
    (place : Position) (rest : List Char) :
    tokensFrom place (blanks ++ rest) = tokensFrom (place.afterText blanks) rest := by
  have hends : ∀ {blanks back : List Char} (place : Position), (∀ c ∈ blanks, Text.isBlank c) →
      (∀ c ∈ back.head?, Text.isBlank c = false) →
      tokensFrom place (blanks ++ back) = tokensFrom (place.afterText blanks) back := by
    intro blanks back place hblanks hback
    by_cases hne : blanks = []
    · rw [hne]
      rfl
    · rw [tokensFrom_append (Pattern.first?_of_blanks hne hblanks hback) nofun]
      cases tokensFrom (place.afterText blanks) back <;> rfl
  have hrun : ∀ c ∈ rest.takeWhile Text.isBlank, Text.isBlank c :=
    fun c hc => List.mem_takeWhile_imp hc
  have hback : ∀ c ∈ (rest.dropWhile Text.isBlank).head?, Text.isBlank c = false := by
    intro c hc
    have hstops := List.head?_dropWhile_not Text.isBlank rest
    rw [Option.mem_def.1 hc] at hstops
    simpa using hstops
  have hall : ∀ c ∈ blanks ++ rest.takeWhile Text.isBlank, Text.isBlank c :=
    List.forall_mem_append.2 ⟨h, hrun⟩
  calc tokensFrom place (blanks ++ rest)
      = tokensFrom place
          (blanks ++ rest.takeWhile Text.isBlank ++ rest.dropWhile Text.isBlank) := by
        rw [List.append_assoc, List.takeWhile_append_dropWhile]
    _ = tokensFrom (place.afterText (blanks ++ rest.takeWhile Text.isBlank))
          (rest.dropWhile Text.isBlank) := hends place hall hback
    _ = tokensFrom (place.afterText blanks)
          (rest.takeWhile Text.isBlank ++ rest.dropWhile Text.isBlank) := by
        rw [Position.afterText_append, hends _ hrun hback]
    _ = tokensFrom (place.afterText blanks) rest := by rw [List.takeWhile_append_dropWhile]

/-- The lexer comes to the same places above a line feed, but for blanks at the end of the source,
which it takes together with the line feed. -/
theorem Reached.joined {file : String} {source before rest : List Char} {tokens : List Token}
    (h : Reached file source before tokens rest) (below : List Char) :
    ∃ left blanks, before = left ++ blanks ∧ (∀ c ∈ blanks, Text.isBlank c) ∧
      (rest ≠ [] → blanks = []) ∧
      Reached file (source ++ '\n' :: below) left tokens (blanks ++ (rest ++ '\n' :: below)) := by
  induction h with
  | start => exact ⟨[], [], rfl, by simp, fun _ => rfl, .start⟩
  | @step before text rest tokens p _ hfirst hread ih =>
    obtain ⟨hp, hlongest, -⟩ := Pattern.first?_eq_some_iff.1 hfirst
    have hne : text ++ rest ≠ [] :=
      List.append_ne_nil_of_left_ne_nil (Pattern.ne_nil_of_matches hp hlongest.fits) rest
    obtain ⟨left, blanks, rfl, -, hnone, hreached⟩ := ih
    obtain rfl := hnone hne
    rw [List.append_nil, List.nil_append, List.append_assoc] at *
    by_cases hlast : p = .blank ∧ rest = []
    · obtain ⟨rfl, rfl⟩ := hlast
      have hskip : (Pattern.blank.read text).tokens text (.behind file left)
          (.behind file (left ++ text)) = [] := rfl
      rw [hskip, List.append_nil]
      exact ⟨left, text, rfl, hlongest.fits.2, fun hrest => absurd rfl hrest, hreached⟩
    · have hquote : p ≠ .openQuote := by
        rintro rfl
        exact hread _ rfl
      have hagain := Pattern.first?_of_newline hfirst hquote (fun hblank hrest =>
        hlast ⟨hblank, hrest⟩) below
      rw [List.append_assoc] at hagain
      exact ⟨left ++ text, [], by simp, by simp, fun _ => rfl, .step hreached hagain hread⟩

/-- The tokens of a source come before those of what is below it. -/
theorem tokensFrom_joined {file : String} {source : List Char} {tokens : List Token}
    (h : Reached file source source tokens []) (below : List Char) :
    tokensFrom (.behind file []) (source ++ '\n' :: below) =
      (tokensFrom (.behind file (source ++ ['\n'])) below).map (tokens ++ ·) := by
  obtain ⟨left, blanks, hsource, hblanks, -, hreached⟩ := h.joined below
  have hall : ∀ c ∈ blanks ++ ['\n'], Text.isBlank c := by
    rw [List.forall_mem_append, List.forall_mem_singleton]
    exact ⟨hblanks, by decide⟩
  have hrest : blanks ++ ([] ++ '\n' :: below) = blanks ++ ['\n'] ++ below := by simp
  rw [hreached.tokensFrom_eq, hrest, tokensFrom_blanks hall, Position.afterText_behind,
    ← List.append_assoc, ← hsource]

/-- A source that has been read is read again above others, which are read as they are alone, but
moved down below it: by its bytes and its lines, with the line feed between. Whatever the lexer does
not recognise in the upper source, it does not recognise there with others below. -/
theorem tokenize_below (upper lower : String) (file : Option String) :
    (∀ tokens, tokenize upper file = .ok tokens → ∃ proper last, tokens = proper ++ [last] ∧
      (∀ token ∈ proper, token.kind ≠ .endOfInput) ∧ last.kind = .endOfInput ∧
      (∀ others, tokenize lower file = .ok others →
        tokenize (upper ++ "\n" ++ lower) file = .ok (proper ++ others.map
          (Token.shift (byteLength upper.toList + 1) (1 + upper.toList.count '\n')))) ∧
      ∀ d, tokenize lower file = .error d →
        tokenize (upper ++ "\n" ++ lower) file = .error
          (d.shift (byteLength upper.toList + 1) (1 + upper.toList.count '\n'))) ∧
    ∀ text place, tokenize upper file = .error ⟨.unrecognisedToken text, place⟩ →
      tokenize (upper ++ "\n" ++ lower) file = .error ⟨.unrecognisedToken text, place⟩ := by
  have hjoined : (upper ++ "\n" ++ lower).toList = upper.toList ++ '\n' :: lower.toList := by
    simp
  have hstart : Reached (file.getD unnamedFile) upper.toList [] [] upper.toList := .start
  constructor
  · intro tokens hupper
    obtain ⟨proper, rfl, hreached⟩ := exists_reached_of_tokenize hupper
    obtain ⟨proper', htokens, hlaid⟩ := exists_laid_of_tokenize hupper
    obtain ⟨rfl, -⟩ := List.append_inj' htokens rfl
    have heq : tokenize (upper ++ "\n" ++ lower) file = (((tokenize lower file).map (List.map
        (Token.shift (byteLength upper.toList + 1) (1 + upper.toList.count '\n')))).mapError
        (Diagnostic.shift (byteLength upper.toList + 1) (1 + upper.toList.count '\n'))).map
        (proper ++ ·) := by
      unfold tokenize
      rw [hjoined, ← tokensFrom_shift, Position.shift_first]
      exact tokensFrom_joined hreached lower.toList
    refine ⟨proper, _, rfl, hlaid.kind_ne_endOfInput, rfl, fun others hlower => ?_,
      fun d hlower => ?_⟩
    · rw [heq, hlower]
      rfl
    · rw [heq, hlower]
      rfl
  · intro text place hupper
    obtain ⟨before, tokens, c, after, hreached, hno, hd⟩ :=
      exists_reached_of_tokenize_eq_error hupper
    have hquote : c ≠ '"' := by
      rintro rfl
      cases hd
    obtain ⟨left, blanks, rfl, -, hnone, hagain⟩ := hreached.joined lower.toList
    obtain rfl := hnone (List.cons_ne_nil c after)
    rw [← hjoined] at hagain
    rw [List.append_nil] at hd
    rw [hagain.tokenize_eq_error (hno.of_newline hquote lower.toList), hd]

/-- A string literal over two lines with a character of two bytes, and a blank behind it. -/
def tallText : String := "\"é\n\" "

/-- Below it a name is moved down by seven bytes and two lines, and so is what is wrong there; and a
character that is not recognised is reported where it stands, whatever is below. -/
theorem tokenize_below_tallText : ∃ string name ends,
    tokenize (tallText ++ "\n" ++ " b") none = .ok [string, name, ends] ∧
      string.span = ⟨⟨0, 1, 1, unnamedFile⟩, ⟨5, 2, 2, unnamedFile⟩⟩ ∧
      name.span = ⟨⟨8, 3, 2, unnamedFile⟩, ⟨9, 3, 3, unnamedFile⟩⟩ ∧
      tokenize (tallText ++ "\n" ++ "b@") none =
        .error ⟨.unrecognisedToken "@", ⟨8, 3, 2, unnamedFile⟩⟩ ∧
      tokenize ("a&" ++ "\n" ++ "& b") none =
        .error ⟨.unrecognisedToken "&", ⟨1, 1, 2, unnamedFile⟩⟩ := by
  obtain ⟨string, ends, htall, hstring⟩ : ∃ string ends,
      tokenize tallText none = .ok [string, ends] ∧
        string.span = ⟨⟨0, 1, 1, unnamedFile⟩, ⟨5, 2, 2, unnamedFile⟩⟩ := by
    have htokens : tokenize tallText none = .ok
        [⟨.string, "\"é\n\"", some (.string "é\n"),
            ⟨⟨0, 1, 1, unnamedFile⟩, ⟨5, 2, 2, unnamedFile⟩⟩⟩,
          .endAt ⟨6, 2, 3, unnamedFile⟩] := by decide +kernel
    exact ⟨_, _, htokens, rfl⟩
  obtain ⟨name, ends', hlower, hname⟩ : ∃ name ends',
      tokenize " b" none = .ok [name, ends'] ∧
        name.span = ⟨⟨1, 1, 2, unnamedFile⟩, ⟨2, 1, 3, unnamedFile⟩⟩ := by
    have htokens : tokenize " b" none = .ok
        [⟨.identifier, "b", none, ⟨⟨1, 1, 2, unnamedFile⟩, ⟨2, 1, 3, unnamedFile⟩⟩⟩,
          .endAt ⟨2, 1, 3, unnamedFile⟩] := by decide +kernel
    exact ⟨_, _, htokens, rfl⟩
  have hwrong : tokenize "b@" none =
      .error ⟨.unrecognisedToken "@", ⟨1, 1, 2, unnamedFile⟩⟩ := by decide +kernel
  have hlone : tokenize "a&" none =
      .error ⟨.unrecognisedToken "&", ⟨1, 1, 2, unnamedFile⟩⟩ := by decide +kernel
  obtain ⟨proper, last, htokens, -, -, hok, -⟩ := (tokenize_below tallText " b" none).1 _ htall
  obtain ⟨-, -, -, -, -, -, herror⟩ := (tokenize_below tallText "b@" none).1 _ htall
  have hproper : proper = [string] := by
    have hinit := congrArg List.dropLast htokens
    simpa using hinit.symm
  subst hproper
  refine ⟨string, _, _, hok _ hlower, hstring, ?_, herror _ hwrong,
    (tokenize_below "a&" "& b" none).2 _ _ hlone⟩
  show name.span.shift _ _ = _
  rw [hname]
  decide

end LexicalScoping
