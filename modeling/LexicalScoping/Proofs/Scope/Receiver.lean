import LexicalScoping.Proofs.Grammar.AlikeRules
import LexicalScoping.Proofs.Scope.Bound
import LexicalScoping.Proofs.Scope.Order
import LexicalScoping.Proofs.Scope.Renamed

/-!
# What `self` and `super` reach

A class provides `self` in a scope of its own and, if it has a superclass, `super` in one around
that. Both are reserved words, and every position that declares a name asks for a token that is a
name, so nothing else in a program that comes from a source can hold either of them (`Guarded`).
Between those scopes and a mention there are then only scopes without the two names. That is kept
when pieces are passed and when constructs are entered, and it fixes how far out the two are found
(`Receives`).
-/
namespace LexicalScoping

/-- The token's text is neither `self` nor `super`. -/
def Token.Ordinary (t : Token) : Prop := t.text ≠ selfName ∧ t.text ≠ superName

/-- A construct that a class puts around its methods. -/
def Construct.isForClass : Construct → Bool
  | inheritance => true
  | classBody _ => true
  | _ => false

/-- Nothing but classes provides names, each `self` and, around it, `super` if there is a
superclass; and no other name is either of these. -/
inductive Piece.Guarded : Piece → Prop
  | declares {name : Token} (value : List Mention) : name.Ordinary → Guarded (.declares name value)
  | mentions (list : List Mention) : Guarded (.mentions list)
  | breaks (keyword : Token) : Guarded (.breaks keyword)
  | continues (keyword : Token) : Guarded (.continues keyword)
  | returns (keyword : Token) (value : Option (List Mention)) : Guarded (.returns keyword value)
  | within {construct : Construct} {body : List Piece} : construct.isForClass = false →
    (∀ piece ∈ body, Guarded piece) → Guarded (.within construct body)
  | plainClass {methods : List Piece} : (∀ piece ∈ methods, Guarded piece) →
    Guarded (.within (.classBody false) (.provides selfName :: methods))
  | subclass {methods : List Piece} : (∀ piece ∈ methods, Guarded piece) →
    Guarded (.within .inheritance
      [.provides superName, .within (.classBody true) (.provides selfName :: methods)])

namespace Piece

theorem exists_of_mem_heldIn {name : String} {list : List Piece} (h : name ∈ heldIn list) :
    ∃ piece ∈ list, name ∈ piece.held := by
  induction list with
  | nil => cases h
  | cons piece rest ih =>
    rcases List.mem_append.1 h with h | h
    · exact ⟨piece, List.mem_cons_self, h⟩
    · obtain ⟨other, hother, hname⟩ := ih h
      exact ⟨other, List.mem_cons_of_mem _ hother, hname⟩

/-- The names that guarded pieces put into the scope that they are in are neither `self` nor
`super`. -/
theorem Guarded.ne_of_mem_held {piece : Piece} (h : piece.Guarded) {name : String}
    (hname : name ∈ piece.held) : name ≠ selfName ∧ name ≠ superName := by
  induction h with
  | declares value hordinary =>
    obtain rfl := List.mem_singleton.1 hname
    exact hordinary
  | mentions | breaks | continues | returns => cases hname
  | @within construct body _ _ ih =>
    rw [held] at hname
    split at hname
    · cases hname
    · obtain ⟨piece, hpiece, hheld⟩ := exists_of_mem_heldIn hname
      exact ih piece hpiece hheld
  | plainClass | subclass => cases hname

end Piece

namespace Sight

theorem distance?_cons_of_notMem {names : List String} {name : String} (h : name ∉ names)
    (scopes : List (List String)) :
    distance? (names :: scopes) name = (distance? scopes name).map (· + 1) := by
  rw [distance?, List.findIdx?_cons, if_neg (by simpa using h)]
  rfl

theorem distance?_cons_of_mem {names : List String} {name : String} (h : name ∈ names)
    (scopes : List (List String)) : distance? (names :: scopes) name = some 0 := by
  rw [distance?, List.findIdx?_cons, if_pos (by simpa using h)]

/-- Other names do not matter. -/
theorem distance?_extend_of_notMem {names : List String} {name : String} (h : name ∉ names)
    (scopes : List (List String)) :
    distance? (extend names scopes) name = distance? scopes name := by
  cases scopes with
  | nil => rfl
  | cons own outer => simp [distance?, extend, List.findIdx?_cons, h]

end Sight

namespace Site

/-- The innermost class around. -/
def classAround? (around : List Layer) : Option Construct :=
  (around.map Layer.construct).find? Construct.isClass

/-- How many scopes there are inside the innermost class around. -/
def selfDistance (around : List Layer) : Nat :=
  ((around.map Layer.construct).takeWhile (!·.isClass)).countP Construct.opensScope

section Cons

variable {construct : Construct} (before : List Piece) (around : List Layer)

theorem classAround?_cons_of_isClass (h : construct.isClass) :
    classAround? (⟨construct, before⟩ :: around) = some construct := by
  rw [classAround?, List.map_cons, List.find?_cons_of_pos h]

theorem classAround?_cons_of_not_isClass (h : construct.isClass = false) :
    classAround? (⟨construct, before⟩ :: around) = classAround? around := by
  rw [classAround?, List.map_cons, List.find?_cons_of_neg (by simp [h])]
  rfl

theorem selfDistance_cons_of_isClass (h : construct.isClass) :
    selfDistance (⟨construct, before⟩ :: around) = 0 := by
  rw [selfDistance, List.map_cons, List.takeWhile_cons_of_neg (by simp [h])]
  rfl

theorem selfDistance_cons_of_not_isClass (h : construct.isClass = false) :
    selfDistance (⟨construct, before⟩ :: around) =
      selfDistance around + if construct.opensScope then 1 else 0 := by
  rw [selfDistance, List.map_cons, List.takeWhile_cons_of_pos (by simp [h]), List.countP_cons]
  rfl

end Cons

/-- In a class `self` is found in the scope of the class, and in one with a superclass `super` is
found in the scope around that. -/
structure Receives (before : List Piece) (around : List Layer) : Prop where
  self : (classAround? around).isSome →
    Sight.distance? (scopes before around) selfName = some (selfDistance around)
  super : classAround? around = some (.classBody true) →
    Sight.distance? (scopes before around) superName = some (selfDistance around + 1)

namespace Receives

variable {before : List Piece} {around : List Layer}

theorem top : Receives [] [] := ⟨nofun, nofun⟩

/-- Passing a piece that does not hold the names. -/
theorem behind (h : Receives before around) {piece : Piece} (hpiece : piece.Guarded) :
    Receives (before ++ [piece]) around := by
  have hheld : ∀ name ∈ Piece.heldIn [piece], name ≠ selfName ∧ name ≠ superName := by
    intro name hname
    rw [Piece.heldIn, Piece.heldIn, List.append_nil] at hname
    exact hpiece.ne_of_mem_held hname
  constructor
  · rw [scopes_append, Sight.distance?_extend_of_notMem fun hmem => (hheld _ hmem).1 rfl]
    exact h.self
  · rw [scopes_append, Sight.distance?_extend_of_notMem fun hmem => (hheld _ hmem).2 rfl]
    exact h.super

/-- Entering a construct that is none of a class. -/
theorem inside (h : Receives before around) {construct : Construct}
    (hconstruct : construct.isForClass = false) :
    Receives [] (⟨construct, before⟩ :: around) := by
  have hclass : construct.isClass = false := by
    cases construct with
    | classBody => cases hconstruct
    | _ => rfl
  have hfound (name : String) : Sight.distance? (scopes [] (⟨construct, before⟩ :: around)) name =
      (Sight.distance? (scopes before around) name).map
        (· + if construct.opensScope then 1 else 0) := by
    rw [scopes, Piece.heldIn]
    split
    · exact Sight.distance?_cons_of_notMem List.not_mem_nil _
    · rw [Sight.extend_nil]
      exact Option.map_id'.symm
  constructor
  · rw [classAround?_cons_of_not_isClass _ _ hclass, selfDistance_cons_of_not_isClass _ _ hclass,
      hfound]
    intro hsome
    rw [h.self hsome]
    rfl
  · rw [classAround?_cons_of_not_isClass _ _ hclass, selfDistance_cons_of_not_isClass _ _ hclass,
      hfound, Nat.add_right_comm]
    intro hsubclass
    rw [h.super hsubclass]
    rfl

/-- Entering a class, behind its `self`. -/
theorem classBody (before : List Piece) (around : List Layer) :
    Receives [.provides selfName] (⟨.classBody false, before⟩ :: around) where
  self _ := by
    rw [selfDistance_cons_of_isClass _ _ rfl]
    exact Sight.distance?_cons_of_mem List.mem_cons_self _
  super h := by
    rw [classAround?_cons_of_isClass _ _ rfl] at h
    cases h

/-- Entering a class with a superclass, behind its `super` and its `self`. -/
theorem subclass (before : List Piece) (around : List Layer) :
    Receives [.provides selfName] (⟨.classBody true, [.provides superName]⟩ ::
      ⟨.inheritance, before⟩ :: around) where
  self _ := by
    rw [selfDistance_cons_of_isClass _ _ rfl]
    exact Sight.distance?_cons_of_mem List.mem_cons_self _
  super _ := by
    have hself : superName ∉ [selfName] := by decide
    rw [selfDistance_cons_of_isClass _ _ rfl]
    exact (Sight.distance?_cons_of_notMem hself _).trans
      (congrArg _ (Sight.distance?_cons_of_mem List.mem_cons_self _))

end Receives

/-- The names that are declared at the site, or around it meanwhile. -/
def declaring (site : Site) : List Token :=
  match site.subject with
  | .declares name => [name]
  | .mentions _ (.initial name) => [name]
  | _ => []

/-- At the site `self` and `super` are found where they should be, and nothing that is being
declared there can be mistaken for them. -/
structure Guarded (site : Site) : Prop where
  receives : Receives site.before site.around
  ordinary : ∀ name ∈ site.declaring, name.Ordinary

/-- What is being declared meanwhile does not change how far out the two are found. -/
theorem Guarded.distance?_visible {site : Site} (h : site.Guarded) {name : String}
    (hname : name = selfName ∨ name = superName) :
    Sight.distance? site.visible name =
      Sight.distance? (scopes site.before site.around) name := by
  obtain ⟨subject, before, around⟩ := site
  have hother : ∀ other ∈ declaring ⟨subject, before, around⟩, name ≠ other.text := by
    rintro other hother rfl
    obtain ⟨hself, hsuper⟩ := h.ordinary other hother
    exact hname.elim hself hsuper
  cases subject with
  | mentions m role =>
    cases role with
    | initial other =>
      have hne : name ≠ other.text := hother other List.mem_cons_self
      exact Sight.distance?_extend_of_notMem (by simpa [Role.declared] using hne) _
    | evaluated | returned =>
      exact congrArg (Sight.distance? · name) (Sight.extend_nil _)
  | declares | breaks | continues | returns => rfl

/-- A site where nothing is being declared. -/
theorem guarded_of_declaring_eq_nil {site : Site} (h : Receives site.before site.around)
    (hnil : site.declaring = []) : site.Guarded :=
  ⟨h, by simp [hnil]⟩

theorem guarded_of_mem_mentionSites {role : Role} {before : List Piece} {around : List Layer}
    (h : Receives before around) {list : List Mention}
    (hrole : ∀ name, role = .initial name → name.Ordinary) :
    ∀ site ∈ mentionSites role before around list, site.Guarded := by
  intro site hsite
  obtain ⟨m, -, rfl⟩ := List.mem_map.1 hsite
  refine ⟨h, fun name hname => ?_⟩
  cases role with
  | initial other =>
    obtain rfl := List.mem_singleton.1 hname
    exact hrole name rfl
  | evaluated | returned => cases hname

/-- Going through pieces one after the other. -/
theorem guarded_of_mem_sitesIn {list : List Piece} (hlist : ∀ piece ∈ list, piece.Guarded)
    (hsites : ∀ piece ∈ list, ∀ before around, Receives before around →
      ∀ site ∈ piece.sites before around, site.Guarded)
    {before : List Piece} {around : List Layer} (h : Receives before around) :
    ∀ site ∈ Piece.sitesIn before around list, site.Guarded := by
  induction list generalizing before with
  | nil => simp [Piece.sitesIn]
  | cons piece rest ih =>
    intro site hsite
    rcases List.mem_append.1 hsite with hsite | hsite
    · exact hsites piece List.mem_cons_self before around h site hsite
    · exact ih (fun other hother => hlist other (List.mem_cons_of_mem _ hother))
        (fun other hother => hsites other (List.mem_cons_of_mem _ hother))
        (h.behind (hlist piece List.mem_cons_self)) site hsite

theorem guarded_of_mem_sites {piece : Piece} (hpiece : piece.Guarded) {before : List Piece}
    {around : List Layer} (h : Receives before around) :
    ∀ site ∈ piece.sites before around, site.Guarded := by
  induction hpiece generalizing before around with
  | @declares name value hordinary =>
    intro site hsite
    rcases List.mem_cons.1 hsite with rfl | hsite
    · exact ⟨h, by simpa [declaring] using hordinary⟩
    · refine guarded_of_mem_mentionSites h ?_ site hsite
      rintro other ⟨⟩
      exact hordinary
  | mentions list => exact guarded_of_mem_mentionSites h (by simp)
  | breaks keyword | continues keyword =>
    intro site hsite
    obtain rfl := List.mem_singleton.1 hsite
    exact guarded_of_declaring_eq_nil h rfl
  | returns keyword value =>
    intro site hsite
    cases value with
    | none =>
      obtain rfl := List.mem_singleton.1 hsite
      exact guarded_of_declaring_eq_nil h rfl
    | some value =>
      rcases List.mem_cons.1 hsite with rfl | hsite
      · exact guarded_of_declaring_eq_nil h rfl
      · exact guarded_of_mem_mentionSites h (by simp) site hsite
  | within hconstruct hbody ih =>
    exact guarded_of_mem_sitesIn hbody (fun piece hpiece _ _ => ih piece hpiece)
      (h.inside hconstruct)
  | plainClass hmethods ih =>
    exact guarded_of_mem_sitesIn hmethods (fun piece hpiece _ _ => ih piece hpiece)
      (.classBody before around)
  | subclass hmethods ih =>
    intro site hsite
    simp only [Piece.sites, Piece.sitesIn, List.nil_append, List.append_nil] at hsite
    exact guarded_of_mem_sitesIn hmethods (fun piece hpiece _ _ => ih piece hpiece)
      (.subclass before around) site hsite

end Site

theorem classPieces_guarded {name : Token} (hname : name.Ordinary) (parent : Option Reference)
    {methods : List Piece} (hmethods : ∀ piece ∈ methods, piece.Guarded) :
    ∀ piece ∈ classPieces name parent methods, piece.Guarded := by
  cases parent with
  | none => exact List.forall_mem_cons.2 ⟨.declares _ hname,
      List.forall_mem_singleton.2 (.plainClass hmethods)⟩
  | some parent => exact List.forall_mem_cons.2 ⟨.declares _ hname,
      List.forall_mem_singleton.2 (.subclass hmethods)⟩

section Parsed

variable {R : Token → Token → Prop}

/-- All names that correspond to some are ordinary. -/
def OrdinaryNames (R : Token → Token → Prop) : Prop :=
  ∀ t t', Token.NamesAlike R t t' → t.Ordinary

theorem ForStart.guarded (hR : OrdinaryNames R) {start start' : Option ForStart}
    (h : Option.Rel (ForStart.Alike R) start start') :
    ∀ piece ∈ ForStart.pieces start, piece.Guarded := by
  cases h with
  | none => exact nofun
  | some h =>
    cases h with
    | declare h => exact List.forall_mem_singleton.2 (.declares _ (hR _ _ h.name))
    | evaluate h => exact List.forall_mem_singleton.2 (.mentions _)

theorem parameters_guarded (hR : OrdinaryNames R) {names names' : List Token}
    (h : List.Forall₂ (Token.NamesAlike R) names names') :
    ∀ piece ∈ names.map (fun name => .declares name []), Piece.Guarded piece := by
  induction h with
  | nil => exact nofun
  | cons hname _ ih => exact List.forall_mem_cons.2 ⟨.declares _ (hR _ _ hname), ih⟩

mutual

/-- If all names are ordinary, nothing but classes provides the reserved ones. -/
theorem Stmt.guarded (hR : OrdinaryNames R) {s s' : Stmt} :
    s.Alike R s' → ∀ piece ∈ s.pieces, piece.Guarded
  | .block hbody => List.forall_mem_singleton.2 (.within rfl (Stmt.guardedAll hR hbody))
  | .letDecl h => List.forall_mem_singleton.2 (.declares _ (hR _ _ h.name))
  | .expression _ => List.forall_mem_singleton.2 (.mentions _)
  | .print _ => List.forall_mem_singleton.2 (.mentions _)
  | .ifElse _ hthen .none => List.forall_mem_cons.2 ⟨.mentions _, Stmt.guarded hR hthen⟩
  | .ifElse _ hthen (.some helse) =>
    List.forall_mem_cons.2 ⟨.mentions _,
      List.forall_mem_append.2 ⟨Stmt.guarded hR hthen, Stmt.guarded hR helse⟩⟩
  | .whileLoop _ hbody => List.forall_mem_cons.2 ⟨.mentions _,
      List.forall_mem_singleton.2 (.within rfl (Stmt.guarded hR hbody))⟩
  | .doWhile hbody _ => List.forall_mem_cons.2 ⟨.within rfl (Stmt.guarded hR hbody),
      List.forall_mem_singleton.2 (.mentions _)⟩
  | .forLoop hstart _ _ hbody =>
    List.forall_mem_append.2 ⟨ForStart.guarded hR hstart, List.forall_mem_cons.2 ⟨.mentions _,
      List.forall_mem_cons.2 ⟨.mentions _,
        List.forall_mem_singleton.2 (.within rfl (Stmt.guarded hR hbody))⟩⟩⟩
  | .switch _ harms => List.forall_mem_cons.2 ⟨.mentions _,
      List.forall_mem_singleton.2 (.within rfl (Case.guardedAll hR harms))⟩
  | .breakLoop _ => List.forall_mem_singleton.2 (.breaks _)
  | .continueLoop _ => List.forall_mem_singleton.2 (.continues _)
  | .returnValue _ _ => List.forall_mem_singleton.2 (.returns _ _)
  | .function (.mk hname hparameters hbody) => List.forall_mem_cons.2 ⟨.declares _ (hR _ _ hname),
      List.forall_mem_singleton.2 (.within rfl (List.forall_mem_append.2
        ⟨parameters_guarded hR hparameters, Stmt.guardedAll hR hbody⟩))⟩
  | .classDecl hname _ hmethods =>
    classPieces_guarded (hR _ _ hname) _ (Function.guardedAll hR hmethods)

theorem Stmt.guardedAll (hR : OrdinaryNames R) {list list' : List Stmt} :
    List.Forall₂ (Stmt.Alike R) list list' → ∀ piece ∈ Stmt.piecesAll list, piece.Guarded
  | .nil => nofun
  | .cons hs hrest => List.forall_mem_append.2 ⟨Stmt.guarded hR hs, Stmt.guardedAll hR hrest⟩

theorem Case.guardedAll (hR : OrdinaryNames R) {arms arms' : List Case} :
    List.Forall₂ (Case.Alike R) arms arms' → ∀ piece ∈ Case.pieces arms, piece.Guarded
  | .nil => nofun
  | .cons (.mk _ hbody) hrest => List.forall_mem_cons.2 ⟨.mentions _,
      List.forall_mem_cons.2 ⟨.within rfl (Stmt.guardedAll hR hbody), Case.guardedAll hR hrest⟩⟩

theorem Function.guardedAll (hR : OrdinaryNames R) {list list' : List Function} :
    List.Forall₂ (Function.Alike R) list list' →
    ∀ piece ∈ Function.methodPieces list, piece.Guarded
  | .nil => nofun
  | .cons (.mk _ hparameters hbody) hrest => List.forall_mem_cons.2 ⟨.within rfl
      (List.forall_mem_append.2 ⟨parameters_guarded hR hparameters, Stmt.guardedAll hR hbody⟩),
      Function.guardedAll hR hrest⟩

end

end Parsed

/-- In a program that comes from a source only classes provide the reserved names. It is alike to
itself if each token corresponds to itself. -/
theorem Program.guarded_of_tokenize {source : String} {file : Option String} {tokens : List Token}
    {program : Program} (htokens : tokenize source file = .ok tokens)
    (hparse : Program.parse tokens = .ok program) :
    ∀ piece ∈ Stmt.piecesAll program.statements, piece.Guarded := by
  let R : Token → Token → Prop := fun t t' => t ∈ tokens ∧ t = t'
  have hR : Correspondence R := ⟨fun ⟨_, he⟩ => he ▸ rfl, fun ⟨_, he⟩ => he ▸ rfl⟩
  have hnames : OrdinaryNames R := fun t _ ⟨⟨ht, _⟩, hname⟩ =>
    (isRead_of_tokensFrom htokens t ht).ne_selfName_superName hname
  have hsame : List.Forall₂ R tokens tokens := List.forall₂_same.2 fun t ht => ⟨ht, rfl⟩
  have hreadings := Program.parse_alike hR hsame (getLast?_of_tokenize htokens) rfl
  rw [hparse] at hreadings
  cases hreadings with
  | ok hstatements _ => exact Stmt.guardedAll hnames hstatements

/-- Every mention of a program that comes from a source stands at a site. Unless it is never
reached, a `self` in a class is bound to the number of scopes between it and the scope that the
innermost class around it has for `self`, and a `super` for which that class has a superclass is
bound to one more. No name that the program declares is either of the two. -/
theorem get?_resolve_self_super {source : String} {file : Option String} {tokens : List Token}
    {program : Program} (htokens : tokenize source file = .ok tokens)
    (hparse : Program.parse tokens = .ok program) :
    (∀ m ∈ program.mentions, ∃ site ∈ Stmt.sites program.statements, ∃ role,
      site.subject = .mentions m role) ∧
    ∀ site ∈ Stmt.sites program.statements,
      (∀ name, site.subject = .declares name → name.text ≠ selfName ∧ name.text ≠ superName) ∧
      (¬ site.Unreached → ∀ id keyword role,
        (site.subject = .mentions (.selfRef id keyword) role → site.class?.isSome →
          (resolve program.statements).bindings.get? id =
            some (Site.selfDistance site.around)) ∧
        (site.subject = .mentions (.superRef id keyword) role →
          site.class? = some (.classBody true) →
          (resolve program.statements).bindings.get? id =
            some (Site.selfDistance site.around + 1))) := by
  have hguarded := Program.guarded_of_tokenize htokens hparse
  refine ⟨Piece.exists_site_of_mem [] [] _, fun site hsite => ?_⟩
  have hsound : site.Guarded :=
    Site.guarded_of_mem_sitesIn hguarded
      (fun piece hpiece _ _ => Site.guarded_of_mem_sites (hguarded piece hpiece)) .top site hsite
  refine ⟨fun name hname => hsound.ordinary name (by simp [Site.declaring, hname]), ?_⟩
  intro hreached id keyword role
  constructor
  · intro hsubject hclass
    have huse : site.use? = some ⟨id, selfName, false⟩ := by
      simp [Site.use?, hsubject, Mention.use, Site.exempts_eq_false hsubject hreached,
        (Site.inClass_eq_true_iff site).2 hclass]
    rw [Program.get?_resolve_of_mem_sites hparse hsite huse, if_neg nofun,
      hsound.distance?_visible (.inl rfl)]
    exact hsound.receives.self hclass
  · intro hsubject hclass
    have huse : site.use? = some ⟨id, superName, false⟩ := by
      simp [Site.use?, hsubject, Mention.use, Site.exempts_eq_false hsubject hreached]
    rw [Program.get?_resolve_of_mem_sites hparse hsite huse, if_neg nofun,
      hsound.distance?_visible (.inr rfl)]
    exact hsound.receives.super hclass

/-- A class in a method of a class. In its method there are a function and a block around the
mentions. -/
def nestedClassesText : String :=
  "class A \x7b m() \x7b class B < A \x7b n() \x7b fn f(a) \x7b \x7b self; super.n; \x7d \x7d" ++
    " \x7d \x7d \x7d \x7d"

theorem get?_resolve_nestedClassesText : ∃ tokens program,
    tokenize nestedClassesText none = .ok tokens ∧ Program.parse tokens = .ok program ∧
      (resolve program.statements).bindings.get? 1 = some 3 ∧
      (resolve program.statements).bindings.get? 2 = some 4 := by
  let keyword : Token :=
    ⟨.selfWord, "self", none, ⟨⟨48, 1, 49, unnamedFile⟩, ⟨52, 1, 53, unnamedFile⟩⟩⟩
  let keyword' : Token :=
    ⟨.superWord, "super", none, ⟨⟨54, 1, 55, unnamedFile⟩, ⟨59, 1, 60, unnamedFile⟩⟩⟩
  obtain ⟨tokens, program, htokens, hparse, ⟨site, hsite, hself, hclass, hdistance⟩,
      ⟨site', hsite', hsuper, hclass', hdistance'⟩⟩ : ∃ tokens program,
      tokenize nestedClassesText none = .ok tokens ∧ Program.parse tokens = .ok program ∧
        (∃ site ∈ Stmt.sites program.statements,
          site.subject = .mentions (.selfRef 1 keyword) .evaluated ∧
            site.class? = some (.classBody true) ∧ Site.selfDistance site.around = 3) ∧
        ∃ site' ∈ Stmt.sites program.statements,
          site'.subject = .mentions (.superRef 2 keyword') .evaluated ∧
            site'.class? = some (.classBody true) ∧ Site.selfDistance site'.around = 3 :=
    ⟨_, _, eq_ok_get (by decide +kernel), eq_ok_get (by decide +kernel), by decide +kernel,
      by decide +kernel⟩
  obtain ⟨-, hsites⟩ := get?_resolve_self_super htokens hparse
  have hreached : ¬ site.Unreached := by simp [Site.Unreached, hself, Subject.isReturned]
  have hreached' : ¬ site'.Unreached := by simp [Site.Unreached, hsuper, Subject.isReturned]
  obtain ⟨-, hbound⟩ := hsites site hsite
  obtain ⟨-, hbound'⟩ := hsites site' hsite'
  have hget := (hbound hreached 1 keyword .evaluated).1 hself (by rw [hclass]; rfl)
  have hget' := (hbound' hreached' 2 keyword' .evaluated).2 hsuper hclass'
  rw [hdistance] at hget
  rw [hdistance'] at hget'
  exact ⟨tokens, program, htokens, hparse, hget, hget'⟩

end LexicalScoping
