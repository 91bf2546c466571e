import LexicalScoping.Proofs.Grammar.AlikeRules
import LexicalScoping.Proofs.Scope.AlikeWalk
import LexicalScoping.Proofs.Token.Layout
import Mathlib.Data.Set.Function
import Mathlib.Logic.Equiv.Basic

/-!
# Layout, literals and the choice of names do not matter

Two sources that are read into tokens of the same kinds, with names that a one-to-one renaming takes
to each other, are parsed and resolved alike. Tokens at the same place of the two lists correspond.
-/
namespace LexicalScoping

/-- The tokens stand at the same place of the two lists. -/
def Counterparts (tokens tokens' : List Token) (t t' : Token) : Prop :=
  ∃ i : Nat, tokens[i]? = some t ∧ tokens'[i]? = some t'

/-- The tokens have one kind, and if they are names, the second is what the first is renamed to. -/
def Token.SameUnder (rename : String → String) (t t' : Token) : Prop :=
  t.kind = t'.kind ∧ (t.kind = .identifier → t'.text = rename t.text)

instance (rename : String → String) (t t' : Token) : Decidable (t.SameUnder rename t') :=
  inferInstanceAs (Decidable (_ ∧ (_ → _)))

/-- The names that must be kept apart: those of the tokens, and that of initializers. -/
def namesOf (tokens : List Token) : Set String :=
  insert initializerName {x | ∃ t ∈ tokens, t.kind = .identifier ∧ t.text = x}

namespace Counterparts

variable {tokens tokens' : List Token} {t t' : Token}

theorem of_forall₂ {P : Token → Token → Prop} (hall : List.Forall₂ P tokens tokens')
    (h : Counterparts tokens tokens' t t') : P t t' := by
  obtain ⟨i, ht, ht'⟩ := h
  obtain ⟨hi, rfl⟩ := List.getElem?_eq_some_iff.1 ht
  obtain ⟨hi', rfl⟩ := List.getElem?_eq_some_iff.1 ht'
  exact (List.forall₂_iff_get.1 hall).2 i hi hi'

theorem forall₂ (hlength : tokens.length = tokens'.length) :
    List.Forall₂ (Counterparts tokens tokens') tokens tokens' := by
  refine List.forall₂_iff_get.2 ⟨hlength, fun i hi hi' => ⟨i, ?_, ?_⟩⟩
  · exact List.getElem?_eq_getElem hi
  · exact List.getElem?_eq_getElem hi'

theorem mem (h : Counterparts tokens tokens' t t') : t ∈ tokens ∧ t' ∈ tokens' := by
  obtain ⟨i, ht, ht'⟩ := h
  exact ⟨List.mem_of_getElem? ht, List.mem_of_getElem? ht'⟩

end Counterparts

/-- What a name is renamed to. The names of the receiver and of the superclass, which are no names
of tokens, stay as they are. -/
def RenamedTo (rename : String → String) (names : Set String) (x x' : String) : Prop :=
  (x = x' ∧ (x = selfName ∨ x = superName)) ∨
    (x ∈ names ∧ x' = rename x ∧ (x ≠ selfName ∧ x ≠ superName) ∧
      (x' ≠ selfName ∧ x' ≠ superName))

theorem RenamedTo.unique {rename : String → String} {names : Set String}
    (hinj : Set.InjOn rename names) {x x' y y' : String} (hx : RenamedTo rename names x x')
    (hy : RenamedTo rename names y y') : x = y ↔ x' = y' := by
  rcases hx with ⟨rfl, hx⟩ | ⟨hx, rfl, hxs, hxs'⟩ <;>
    rcases hy with ⟨rfl, hy⟩ | ⟨hy, rfl, hys, hys'⟩
  · exact Iff.rfl
  · grind
  · grind
  · exact (hinj.eq_iff hx hy).symm

/-- No token that is a name has the name of the receiver or of the superclass. -/
theorem Token.IsRead.ne_selfName_superName {t : Token} (h : t.IsRead)
    (hname : t.kind = .identifier) : t.text ≠ selfName ∧ t.text ≠ superName := by
  have hlookup := h.lookup_reserved hname
  constructor
  · intro hself
    rw [hself] at hlookup
    exact absurd hlookup (by decide)
  · intro hsuper
    rw [hsuper] at hlookup
    exact absurd hlookup (by decide)

section Renamed

variable {tokens tokens' : List Token} (hread : ∀ t ∈ tokens, t.IsRead)
  (hread' : ∀ t ∈ tokens', t.IsRead) {rename : String → String}
  (hsame : List.Forall₂ (Token.SameUnder rename) tokens tokens')
include hread hread' hsame

theorem correspondence_counterparts : Correspondence (Counterparts tokens tokens') := by
  refine ⟨fun ht => (ht.of_forall₂ hsame).1, fun {t t'} ht => ?_⟩
  have hliteral := (hread t ht.mem.1).plain_literal
  have hliteral' := (hread' t' ht.mem.2).plain_literal
  rw [hliteral, hliteral', (ht.of_forall₂ hsame).1]

theorem renaming_counterparts (hinj : Set.InjOn rename (namesOf tokens))
    (hinit : rename initializerName = initializerName) :
    Renaming (Counterparts tokens tokens') (RenamedTo rename (namesOf tokens)) where
  unique := RenamedTo.unique hinj
  text := by
    rintro t t' ⟨ht, hname⟩
    obtain ⟨hkind, htext⟩ := ht.of_forall₂ hsame
    have hmem : t.text ∈ namesOf tokens := .inr ⟨t, ht.mem.1, hname, rfl⟩
    have hne := (hread t ht.mem.1).ne_selfName_superName hname
    have hne' := (hread' t' ht.mem.2).ne_selfName_superName (hkind ▸ hname)
    exact .inr ⟨hmem, htext hname, hne, hne'⟩
  selfName := .inl ⟨rfl, .inl rfl⟩
  superName := .inl ⟨rfl, .inr rfl⟩
  initializerName := .inr ⟨.inl rfl, hinit.symm, by decide, by decide⟩

end Renamed

/-- Both token lists are read into programs of one shape with the same numbers, which get the same
bindings and the same kinds of diagnostics at counterparts, or both are refused with one kind of
diagnostic at counterparts. -/
def AnalysesAlike (tokens tokens' : List Token) : Prop :=
  match Program.parse tokens, Program.parse tokens' with
  | .ok program, .ok program' =>
    List.Forall₂ (Stmt.Alike (Counterparts tokens tokens')) program.statements
        program'.statements ∧
      program.idCount = program'.idCount ∧
      (resolve program.statements).bindings = (resolve program'.statements).bindings ∧
      List.Forall₂ (Diagnostic.Alike (Counterparts tokens tokens'))
        (resolve program.statements).diagnostics (resolve program'.statements).diagnostics
  | .error d, .error d' => d.Alike (Counterparts tokens tokens') d'
  | _, _ => False

/-- Sources of which the tokens have the same kinds, and names that a renaming takes to each other,
are parsed and resolved alike. The renaming has to keep the names apart and to leave that of
initializers alone. The texts of literals, blanks, comments and the file's name do not matter. -/
theorem analysesAlike_of_sameUnder {source source' : String} {file file' : Option String}
    {tokens tokens' : List Token} (h : tokenize source file = .ok tokens)
    (h' : tokenize source' file' = .ok tokens') {rename : String → String}
    (hsame : List.Forall₂ (Token.SameUnder rename) tokens tokens')
    (hinj : Set.InjOn rename (namesOf tokens))
    (hinit : rename initializerName = initializerName) : AnalysesAlike tokens tokens' := by
  have hread := isRead_of_tokensFrom h
  have hread' := isRead_of_tokensFrom h'
  have hR := correspondence_counterparts hread hread' hsame
  have hN := renaming_counterparts hread hread' hsame hinj hinit
  have hfrom : tokensFrom (.behind (file.getD unnamedFile) []) source.toList = .ok tokens := h
  obtain ⟨proper, htokens, -⟩ := exists_laid_of_tokensFrom hfrom
  have hlast : tokens.getLast? =
      some (Token.endAt (.behind (file.getD unnamedFile) source.toList)) := by
    rw [htokens]
    exact List.getLast?_concat
  have hreadings := Program.parse_alike hR (Counterparts.forall₂ hsame.length_eq) hlast rfl
  unfold AnalysesAlike
  generalize Program.parse tokens = answer at hreadings
  generalize Program.parse tokens' = answer' at hreadings
  cases hreadings with
  | ok hstatements hcount =>
    obtain ⟨hbindings, hdiagnostics⟩ := resolve_alike hN hstatements
    exact ⟨hstatements, hcount, hbindings, hdiagnostics⟩
  | error hd => exact hd

/-- A block in which a variable is read in its own initial value. -/
def denseText : String := "\x7blet b=\"\"+b;\x7d"

/-- The same with another name, another string, and blanks and a comment in between. -/
def airyText : String := "\x7b let c =\n\"é\"+c;\x7d//b"

/-- Both are parsed, under different file names, and resolved alike: the variable is found in the
block, and it is reported that it is read in its own initial value. -/
theorem analysesAlike_denseText_airyText : ∃ tokens tokens' program program',
    tokenize denseText none = .ok tokens ∧ tokenize airyText (some "airy") = .ok tokens' ∧
      AnalysesAlike tokens tokens' ∧
      Program.parse tokens = .ok program ∧ Program.parse tokens' = .ok program' ∧
      (resolve program.statements).bindings.entries = [(0, 0)] ∧
      (resolve program'.statements).bindings.entries = [(0, 0)] ∧
      (resolve program.statements).diagnostics =
        [⟨.readInOwnInitializer "b", ⟨10, 1, 11, unnamedFile⟩⟩] ∧
      (resolve program'.statements).diagnostics =
        [⟨.readInOwnInitializer "c", ⟨15, 2, 5, "airy"⟩⟩] := by
  obtain ⟨tokens, tokens', program, program', h, h', hlength, hsame, hparse, hparse', hentries, hd,
      hd'⟩ : ∃ tokens tokens' program program',
      tokenize denseText none = .ok tokens ∧ tokenize airyText (some "airy") = .ok tokens' ∧
        tokens.length = tokens'.length ∧
        (∀ pair ∈ tokens.zip tokens', pair.1.SameUnder (Equiv.swap "b" "c") pair.2) ∧
        Program.parse tokens = .ok program ∧ Program.parse tokens' = .ok program' ∧
        (resolve program.statements).bindings.entries = [(0, 0)] ∧
        (resolve program.statements).diagnostics =
          [⟨.readInOwnInitializer "b", ⟨10, 1, 11, unnamedFile⟩⟩] ∧
        (resolve program'.statements).diagnostics =
          [⟨.readInOwnInitializer "c", ⟨15, 2, 5, "airy"⟩⟩] :=
    ⟨_, _, _, _, eq_ok_get (by decide +kernel), eq_ok_get (by decide +kernel), by decide +kernel,
      by decide +kernel, eq_ok_get (by decide +kernel), eq_ok_get (by decide +kernel),
      by decide +kernel, by decide +kernel, by decide +kernel⟩
  have hkinds : List.Forall₂ (Token.SameUnder (Equiv.swap "b" "c")) tokens tokens' :=
    List.forall₂_iff_zip.2 ⟨hlength, fun hmem => hsame _ hmem⟩
  have hinj : Set.InjOn (Equiv.swap "b" "c") (namesOf tokens) := (Equiv.injective _).injOn
  have halike := analysesAlike_of_sameUnder h h' hkinds hinj (by decide)
  have hbindings : (resolve program.statements).bindings =
      (resolve program'.statements).bindings := by
    have hparts := halike
    rw [AnalysesAlike, hparse, hparse'] at hparts
    exact hparts.2.2.1
  exact ⟨tokens, tokens', program, program', h, h', halike, hparse, hparse', hentries,
    hbindings ▸ hentries, hd, hd'⟩

end LexicalScoping
