import LexicalScoping.Proofs.Grammar.Faithful
import LexicalScoping.Proofs.Scope.Blame
import LexicalScoping.Proofs.Token.Layout

/-!
# Diagnostics in the order of the text

The walk over a program comes to the tokens that it can blame in the order in which they stand in
the text. The target of an assignment is the one token that it comes to late, after the value, and
assignments are never blamed. `StandsIn` says of the pieces of a program that their blamable tokens
are found in a spelling in this order; with the tokens of a source fitting the spelling of the
program, what is reported stands at tokens of the source, one after the other.
-/
namespace LexicalScoping

namespace Sign

/-- The token that the tree keeps there. -/
def kept? : Sign → Option Token
  | kept token => some token
  | _ => none

/-- What a tree keeps of its tokens is some of them, in order. -/
theorem sublist_of_fits {signs : List Sign} {tokens : List Token}
    (h : List.Forall₂ Fits signs tokens) : (signs.filterMap kept?).Sublist tokens := by
  induction h with
  | nil => exact .slnil
  | @cons sign token signs tokens hf _ ih =>
    cases sign with
    | kept same =>
      obtain rfl : token = same := hf.2
      exact ih.cons_cons token
    | ofKind kind => exact ih.cons token
    | literal value span => exact ih.cons token

end Sign

/-- The token that a mention can be blamed at. -/
def Mention.blamable? : Mention → Option Token
  | .assigns _ => none
  | m => some m.token

/-- The token that can be blamed at the site. -/
def Site.blamable? (site : Site) : Option Token :=
  match site.subject with
  | .mentions mention _ => mention.blamable?
  | subject => some subject.token

/-- What is wrong at a site is at the token that can be blamed there. -/
theorem Site.blamable?_of_diagnostic? {site : Site} {d : Diagnostic}
    (h : site.diagnostic? = some d) :
    ∃ token, site.blamable? = some token ∧ d = token.diagnostic d.cause := by
  obtain ⟨cause, hcause, rfl⟩ := Option.map_eq_some_iff.1 h
  refine ⟨site.subject.token, ?_, rfl⟩
  obtain ⟨subject, before, around⟩ := site
  cases subject with
  | mentions mention role =>
    cases mention with
    | assigns target => simp [declarationCause?, keywordCause?] at hcause
    | _ => rfl
  | _ => rfl

/-- What is wrong at sites is at different ones of the tokens that can be blamed there. -/
theorem exists_blamed (sites : List Site) : ∃ blamed,
    blamed.Sublist (sites.filterMap Site.blamable?) ∧
      List.Forall₂ (fun token d => d = Token.diagnostic token d.cause) blamed
        (sites.filterMap Site.diagnostic?) := by
  induction sites with
  | nil => exact ⟨[], .slnil, .nil⟩
  | cons site sites ih =>
    obtain ⟨blamed, hblamed, hmatch⟩ := ih
    cases hd : site.diagnostic? with
    | none =>
      refine ⟨blamed, ?_, by rwa [List.filterMap_cons_none hd]⟩
      exact hblamed.trans ((List.sublist_cons_self site sites).filterMap _)
    | some d =>
      obtain ⟨token, htoken, hat⟩ := Site.blamable?_of_diagnostic? hd
      refine ⟨token :: blamed, ?_, ?_⟩
      · rw [List.filterMap_cons_some htoken]
        exact hblamed.cons_cons token
      · rw [List.filterMap_cons_some hd]
        exact .cons hat hmatch

/-- A diagnostic starts where the token that is blamed does. -/
theorem offsets_eq_of_blamed {blamed : List Token} {list : List Diagnostic}
    (h : List.Forall₂ (fun token d => d = Token.diagnostic token d.cause) blamed list) :
    list.map (·.position.offset) = blamed.map (·.span.start.offset) := by
  induction h with
  | nil => rfl
  | @cons token d _ _ hd _ ih =>
    have hstart : d.position = token.span.start := by rw [hd]; rfl
    rw [List.map_cons, List.map_cons, ih, hstart]

namespace Piece

mutual

/-- The tokens of a piece that can be blamed, in the order in which the walk comes to them. -/
def blamable : Piece → List Token
  | .declares name value => name :: value.filterMap Mention.blamable?
  | .provides _ => []
  | .mentions list => list.filterMap Mention.blamable?
  | .breaks keyword => [keyword]
  | .continues keyword => [keyword]
  | .returns keyword none => [keyword]
  | .returns keyword (some value) => keyword :: value.filterMap Mention.blamable?
  | .within _ body => blamableIn body

def blamableIn : List Piece → List Token
  | [] => []
  | piece :: rest => piece.blamable ++ blamableIn rest

end

theorem blamableIn_append (front back : List Piece) :
    blamableIn (front ++ back) = blamableIn front ++ blamableIn back := by
  induction front with
  | nil => rfl
  | cons piece front ih => simp [blamableIn, ih]

theorem filterMap_mentionSites (role : Role) (before : List Piece) (around : List Layer)
    (list : List Mention) : (mentionSites role before around list).filterMap
      Site.blamable? = list.filterMap Mention.blamable? := by
  rw [mentionSites, List.filterMap_map]
  rfl

mutual

/-- What can be blamed at the sites of a piece does not depend on what is around them. -/
theorem filterMap_sites (before : List Piece) (around : List Layer) : ∀ piece : Piece,
    (piece.sites before around).filterMap Site.blamable? = piece.blamable
  | .declares name value => by
    rw [sites, List.filterMap_cons, filterMap_mentionSites]
    rfl
  | .provides _ => rfl
  | .mentions list => filterMap_mentionSites .evaluated before around list
  | .breaks _ => rfl
  | .continues _ => rfl
  | .returns _ none => rfl
  | .returns keyword (some value) => by
    rw [sites, List.filterMap_cons, filterMap_mentionSites]
    rfl
  | .within construct body => filterMap_sitesIn [] (⟨construct, before⟩ :: around) body

theorem filterMap_sitesIn (before : List Piece) (around : List Layer) : ∀ list : List Piece,
    (sitesIn before around list).filterMap Site.blamable? = blamableIn list
  | [] => rfl
  | piece :: rest => by
    rw [sitesIn, List.filterMap_append, filterMap_sites before around piece,
      filterMap_sitesIn (before ++ [piece]) around rest, blamableIn]

end

/-- The blamable tokens of the pieces are kept in the spelling, in this order. -/
def StandsIn (pieces : List Piece) (signs : List Sign) : Prop :=
  (blamableIn pieces).Sublist (signs.filterMap Sign.kept?)

namespace StandsIn

variable {front back : List Piece} {signs more : List Sign}

theorem nil (signs : List Sign) : StandsIn [] signs := List.nil_sublist _

theorem append (hf : StandsIn front signs) (hb : StandsIn back more) :
    StandsIn (front ++ back) (signs ++ more) := by
  unfold StandsIn at *
  rw [blamableIn_append, List.filterMap_append]
  exact hf.append hb

/-- The tree may keep more than what can be blamed. -/
theorem skip (sign : Sign) (h : StandsIn front signs) : StandsIn front (sign :: signs) :=
  h.trans ((List.sublist_cons_self sign signs).filterMap _)

theorem before (h : StandsIn front signs) (more : List Sign) : StandsIn front (signs ++ more) :=
  h.trans ((List.sublist_append_left signs more).filterMap _)

theorem within (construct : Construct) (h : StandsIn front signs) :
    StandsIn [.within construct front] signs := by
  simpa [StandsIn, blamableIn, blamable] using h

theorem provides (name : String) (h : StandsIn front signs) :
    StandsIn (.provides name :: front) signs := h

theorem breaks (keyword : Token) (signs : List Sign) :
    StandsIn [.breaks keyword] (.kept keyword :: signs) :=
  (List.nil_sublist _).cons_cons keyword

theorem continues (keyword : Token) (signs : List Sign) :
    StandsIn [.continues keyword] (.kept keyword :: signs) :=
  (List.nil_sublist _).cons_cons keyword

theorem mentions_nil (signs : List Sign) : StandsIn [.mentions []] signs := List.nil_sublist _

theorem mentions_append {list others : List Mention} (hf : StandsIn [.mentions list] signs)
    (hb : StandsIn [.mentions others] more) :
    StandsIn [.mentions (list ++ others)] (signs ++ more) := by
  simp only [StandsIn, blamableIn, blamable, List.append_nil, List.filterMap_append] at *
  exact hf.append hb

/-- A name is declared before its value is looked into. -/
theorem declares (name : Token) {value : List Mention} (h : StandsIn [.mentions value] signs) :
    StandsIn [.declares name value] (.kept name :: signs) :=
  h.cons_cons name

theorem returns (keyword : Token) {value : Option Expr}
    (h : StandsIn [.mentions (Expr.mentions? value)] signs) :
    StandsIn [.returns keyword (value.map Expr.mentions)] (.kept keyword :: signs) := by
  cases value with
  | none => exact (List.nil_sublist _).cons_cons keyword
  | some e => exact h.cons_cons keyword

/-- A name that is read, or a keyword. -/
theorem mention {m : Mention} {token : Token} (h : m.blamable? = some token) (signs : List Sign) :
    StandsIn [.mentions [m]] (.kept token :: signs) := by
  simp [StandsIn, blamableIn, blamable, h, Sign.kept?]

theorem parameters (names : List Token) : StandsIn (names.map fun name => .declares name [])
    (withCommas (names.map fun name => [.kept name])) := by
  induction names with
  | nil => exact nil _
  | cons name names ih =>
    have hname := (mentions_nil []).declares name
    cases names with
    | nil => exact hname
    | cons next names => exact hname.append (ih.skip (.ofKind .comma))

mutual

/-- What is mentioned in an expression stands there in this order, apart from assignments. Their
targets are mentioned last and stand first, but cannot be blamed. -/
theorem expression : ∀ e : Expr, StandsIn [.mentions e.mentions] e.spelling
  | .literal _ _ => mentions_nil _
  | .read target => mention rfl []
  | .assign target value _ => by
    have hassigned : blamableIn [.mentions (value.mentions ++ [.assigns target])] =
        blamableIn [.mentions value.mentions] := by
      simp [blamableIn, blamable, Mention.blamable?]
    have hvalue : StandsIn [.mentions value.mentions]
        (.kept target.name :: .ofKind .assignment :: value.spelling) :=
      ((expression value).skip _).skip _
    unfold StandsIn at hvalue ⊢
    rwa [Expr.mentions, hassigned]
  | .binary _ left _ right _ => (expression left).mentions_append ((expression right).skip _)
  | .unary _ operand _ => (expression operand).skip _
  | .grouping content _ => ((expression content).before _).skip _
  | .conditional condition thenBranch elseBranch _ =>
    (expression condition).mentions_append
      (((expression thenBranch).mentions_append ((expression elseBranch).skip _)).skip _)
  | .call callee arguments _ =>
    (expression callee).mentions_append (((expressions arguments).before _).skip _)
  | .get object _ _ => (expression object).before _
  | .set object _ value _ =>
    (expression object).mentions_append ((((expression value).skip _).skip _).skip _)
  | .superMethod _ _ _ _ => mention rfl _
  | .selfRef _ _ => mention rfl []

theorem expressions : ∀ list : List Expr,
    StandsIn [.mentions (Expr.mentionsAll list)] (withCommas (Expr.spellings list))
  | [] => mentions_nil _
  | [e] => by
    have he : StandsIn [.mentions (e.mentions ++ [])] (e.spelling ++ []) :=
      (expression e).mentions_append (mentions_nil [])
    rwa [List.append_nil e.spelling] at he
  | e :: next :: rest => (expression e).mentions_append ((expressions (next :: rest)).skip _)

end

theorem expression? (value : Option Expr) :
    StandsIn [.mentions (Expr.mentions? value)] (Expr.spelling? value) := by
  cases value with
  | none => exact mentions_nil _
  | some e => exact expression e

theorem afterMark (kind : Kind) (value : Option Expr) :
    StandsIn [.mentions (Expr.mentions? value)] (afterMark kind value) := by
  cases value with
  | none => exact mentions_nil _
  | some e => exact (expression e).skip _

theorem head (e : Expr) : StandsIn [.mentions e.mentions] (headSpelling e) :=
  ((expression e).before _).skip _

theorem letDecl (declaration : LetDecl) : StandsIn [declaration.piece] declaration.spelling :=
  (((afterMark .assignment declaration.value).before _).declares declaration.name).skip _

theorem forStart (start : Option ForStart) :
    StandsIn (ForStart.pieces start) (ForStart.spelling start) := by
  rcases start with _ | declaration | ⟨e, span⟩
  · exact nil _
  · exact letDecl declaration
  · exact (expression e).before _

theorem arm (value : Option Expr) :
    StandsIn [.mentions (Expr.mentions? value)] (armSpelling value) := by
  cases value with
  | none => exact mentions_nil _
  | some e => exact ((expression e).before _).skip _

theorem superclass (parent : Option Reference) :
    StandsIn [.mentions (superclassMentions parent)] (superclassSpelling parent) := by
  cases parent with
  | none => exact mentions_nil _
  | some target => exact (mention rfl []).skip _

theorem classDecl (name : Token) (parent : Option Reference) {methods : List Piece}
    (h : StandsIn methods signs) :
    StandsIn (classPieces name parent methods)
      (.kept name :: (superclassSpelling parent ++ signs)) := by
  have hname := (superclass parent).declares name
  cases parent with
  | none => exact hname.append ((h.provides selfName).within (.classBody false))
  | some target =>
    exact hname.append
      ((((h.provides selfName).within (.classBody true)).provides superName).within .inheritance)

mutual

/-- The blamable tokens of a statement stand there in the order in which the walk comes to them. -/
theorem statement : ∀ s : Stmt, StandsIn s.pieces s.spelling
  | .block body _ => (((statements body).before _).skip _).within .block
  | .letDecl declaration => letDecl declaration
  | .expression e _ => (expression e).before _
  | .print e _ => ((expression e).before _).skip _
  | .ifElse condition thenBody none _ =>
    ((head condition).append (statement thenBody)).skip _
  | .ifElse condition thenBody (some elseBody) _ =>
    ((head condition).append
      ((statement thenBody).append ((statement elseBody).skip _))).skip _
  | .whileLoop condition body _ => ((head condition).append ((statement body).within .loop)).skip _
  | .doWhile body condition _ =>
    (((statement body).within .loop).append (((head condition).before _).skip _)).skip _
  | .forLoop start condition increment body _ =>
    (((forStart start).append ((expression? condition).append
      (((expression? increment).append
        (((statement body).within .loop).skip _)).skip _))).skip _).skip _
  | .switch subject arms _ =>
    ((head subject).append ((((cases arms).before _).skip _).within .switch)).skip _
  | .breakLoop keyword => breaks keyword _
  | .continueLoop keyword => continues keyword _
  | .returnValue keyword value _ => ((expression? value).before _).returns keyword
  | .function f => (function .function f).skip _
  | .classDecl name parent list _ =>
    ((((methods list).before _).skip _).classDecl name parent).skip _

theorem statements : ∀ list : List Stmt, StandsIn (Stmt.piecesAll list) (Stmt.spellings list)
  | [] => nil _
  | s :: rest => (statement s).append (statements rest)

theorem cases : ∀ arms : List Case, StandsIn (Case.pieces arms) (Case.spellings arms)
  | [] => nil _
  | .mk value body _ :: rest =>
    (arm value).append (((statements body).within .block).append (cases rest))

theorem function (construct : Construct) : ∀ f : Function,
    StandsIn [.declares f.name [], .within construct f.pieces] f.spelling
  | .mk name names body _ => by
    have hbody := ((parameters names).before [.ofKind .closeParen]).append
      (((statements body).before [.ofKind .closeCurly]).skip (.ofKind .openCurly))
    exact ((mentions_nil []).declares name).append
      ((hbody.skip (.ofKind .openParen)).within construct)

/-- The name of a method is not declared, so it is not one of the tokens that can be blamed. -/
theorem methods : ∀ list : List Function,
    StandsIn (Function.methodPieces list) (Function.spellings list)
  | [] => nil _
  | f :: rest => by
    have hf : StandsIn [.within (.method f.name) f.pieces] f.spelling :=
      (List.sublist_cons_self f.name _).trans (function (.method f.name) f)
    exact hf.append (methods rest)

end

end StandsIn
end Piece

/-- The tokens of a source start one behind the other. -/
theorem start_pairwise_of_tokenize {source : String} {file : Option String} {tokens : List Token}
    (h : tokenize source file = .ok tokens) :
    (tokens.filter fun token => token.kind ≠ .endOfInput).Pairwise fun first second =>
      first.span.start.offset < second.span.start.offset := by
  obtain ⟨proper, rfl, hlaid⟩ := exists_laid_of_tokenize h
  have hproper : (proper ++ [Token.endAt (.behind (file.getD unnamedFile) source.toList)]).filter
      (fun token => token.kind ≠ .endOfInput) = proper := by
    rw [List.filter_append, List.filter_eq_self.2 (by simpa using hlaid.kind_ne_endOfInput)]
    simp [Token.endAt]
  rw [hproper]
  refine hlaid.pairwise.imp_of_mem fun hfirst _ hle => ?_
  exact Nat.lt_of_lt_of_le (hlaid.liesIn _ hfirst).start_lt_stop hle

/-- What a parsed program keeps of its tokens is some of them, in order. An end of input that was
put behind them is none of those that are kept. -/
theorem Program.kept_sublist_of_parse {tokens : List Token} {program : Program}
    (h : Program.parse tokens = .ok program) :
    ((Stmt.spellings program.statements).filterMap Sign.kept?).Sublist
      (tokens.filter fun token => token.kind ≠ .endOfInput) := by
  obtain ⟨s, -, hreads⟩ := readsStmts_of_parse h
  obtain ⟨ends, hends, hat⟩ := ParseState.exists_at_ofTokens tokens
  have hfits := ((hreads.spans (tokens ++ ends) 0 hat).2).forall₂
  have hsublist := Sign.sublist_of_fits hfits
  have hproper : ∀ token ∈ (Stmt.spellings program.statements).filterMap Sign.kept?,
      token.kind ≠ .endOfInput := fun token hmem =>
    forall_ne_endOfInput_of_fits hfits token (hsublist.subset hmem)
  have hfilter := (hsublist.trans ((List.take_sublist _ _).trans (List.drop_sublist 0 _))).filter
    fun token => token.kind ≠ .endOfInput
  have hnone : ends.filter (fun token => token.kind ≠ .endOfInput) = [] :=
    List.filter_eq_nil_iff.2 (by simpa using hends)
  rw [List.filter_eq_self.2 (by simpa using hproper), List.filter_append, hnone,
    List.append_nil] at hfilter
  exact hfilter

/-- Diagnostics come in the order of the text, each about a token of its own: they stand at some of
the tokens of the source, in their order, and so their offsets increase. -/
theorem diagnostics_pairwise_of_tokenize {source : String} {file : Option String}
    {tokens : List Token} {program : Program} (ht : tokenize source file = .ok tokens)
    (hp : Program.parse tokens = .ok program) :
    (resolve program.statements).diagnostics.Pairwise
        (fun first second => first.position.offset < second.position.offset) ∧
      ∃ blamed, blamed.Sublist tokens ∧ blamed.Nodup ∧
        List.Forall₂ (fun token d => d = Token.diagnostic token d.cause) blamed
          (resolve program.statements).diagnostics := by
  obtain ⟨blamed, hblamed, hmatch⟩ := exists_blamed (Stmt.sites program.statements)
  rw [← diagnostics_resolve] at hmatch
  rw [Stmt.sites, Piece.filterMap_sitesIn] at hblamed
  have hkept := hblamed.trans (Piece.StandsIn.statements program.statements)
  have hproper := hkept.trans (Program.kept_sublist_of_parse hp)
  have hascend : blamed.Pairwise fun first second =>
      first.span.start.offset < second.span.start.offset :=
    (start_pairwise_of_tokenize ht).sublist hproper
  refine ⟨?_, blamed, hproper.trans List.filter_sublist, ?_, hmatch⟩
  · have hoffsets : ((resolve program.statements).diagnostics.map (·.position.offset)).Pairwise
        (· < ·) := by
      rw [offsets_eq_of_blamed hmatch]
      exact List.pairwise_map.2 hascend
    exact List.pairwise_map.1 hoffsets
  · exact hascend.imp fun hlt he => by simp [he] at hlt

/-- Three errors: `a` is declared twice, the second time with `self`, and there is no loop. -/
def threeErrors : String := "\x7b let a; let a = self; \x7d break;"

theorem diagnostics_pairwise_threeErrors : ∃ tokens program,
    tokenize threeErrors none = .ok tokens ∧ Program.parse tokens = .ok program ∧
      (resolve program.statements).diagnostics.map (·.position.offset) = [13, 17, 25] ∧
      (resolve program.statements).diagnostics.Pairwise
        (fun first second => first.position.offset < second.position.offset) := by
  obtain ⟨tokens, program, ht, hp, hoffsets⟩ : ∃ tokens program,
      tokenize threeErrors none = .ok tokens ∧ Program.parse tokens = .ok program ∧
        (resolve program.statements).diagnostics.map (·.position.offset) = [13, 17, 25] :=
    ⟨_, _, eq_ok_get (by decide +kernel), eq_ok_get (by decide +kernel), by decide +kernel⟩
  exact ⟨tokens, program, ht, hp, hoffsets, (diagnostics_pairwise_of_tokenize ht hp).1⟩

end LexicalScoping
