import LexicalScoping.Proofs.Scope.Blame
import LexicalScoping.Proofs.Scope.Exact
import LexicalScoping.Proofs.Scope.Listing

/-!
# What a site is bound to

A mention is bound by the scopes around its site (`Program.get?_resolve_of_mem_sites`). While a name
is being declared, its scope holds it already, so what its initial value mentions sees one name more
than what stands before.
-/
namespace LexicalScoping

/-- The name that is being declared meanwhile. -/
def Role.declared : Role → List String
  | .initial name => [name.text]
  | _ => []

namespace Site

/-- Some function or method is around. -/
def inFunction (around : List Layer) : Bool := around.any fun layer => layer.construct.isFunction

/-- Some class is around. -/
def inClass (around : List Layer) : Bool := around.any fun layer => layer.construct.isClass

theorem inFunction_cons (layer : Layer) (around : List Layer) :
    inFunction (layer :: around) = (inFunction around || layer.construct.isFunction) := by
  rw [inFunction, List.any_cons, Bool.or_comm]
  rfl

theorem inClass_cons (layer : Layer) (around : List Layer) :
    inClass (layer :: around) = (inClass around || layer.construct.isClass) := by
  rw [inClass, List.any_cons, Bool.or_comm]
  rfl

/-- Nothing is looked up in the value of a `return` that no function is around. -/
def exempts (around : List Layer) : Role → Bool
  | .returned => !inFunction around
  | _ => false

/-- The use that a mention is at its site. -/
def use? (site : Site) : Option Use :=
  match site.subject with
  | .mentions m role => some (m.use (inClass site.around) (exempts site.around role))
  | _ => none

theorem inFunction_eq_false_iff (site : Site) :
    inFunction site.around = false ↔ site.function? = none := by
  rw [inFunction, function?, constructs, List.find?_map, Option.map_eq_none_iff,
    List.find?_eq_none, List.any_eq_false]
  rfl

theorem inClass_eq_true_iff (site : Site) :
    inClass site.around = true ↔ site.class?.isSome := by
  rw [inClass, class?, constructs, List.find?_map, Option.isSome_map, List.find?_isSome,
    List.any_eq_true]
  rfl

/-- What the scopes around a mention hold there, innermost first. -/
def visible (site : Site) : List (List String) :=
  match site.subject with
  | .mentions _ role => Sight.extend role.declared (scopes site.before site.around)
  | _ => scopes site.before site.around

/-- In the outline of what stands behind the pieces, the use at the site is enclosed by the scopes
that are around the site and not around all of it. -/
def EnclosedIn (site : Site) (before : List Piece) (around : List Layer)
    (outline : List Outline) : Prop :=
  ∀ use, site.use? = some use → ∃ inner own, Outline.Encloses outline use inner own ∧
    site.visible = inner ++ Sight.extend own (scopes before around)

end Site

namespace Outline.Encloses

variable {list : List Outline} {use : Use} {scopes : List (List String)} {own : List String}

theorem append_right (h : Encloses list use scopes own) (back : List Outline) :
    Encloses (list ++ back) use scopes own := by
  cases h with
  | here before use after =>
    rw [List.append_assoc, List.cons_append]
    exact .here before use (after ++ back)
  | inside before after h =>
    rw [List.append_assoc, List.cons_append]
    exact .inside before (after ++ back) h

theorem append_left (h : Encloses list use scopes own) (front : List Outline) :
    Encloses (front ++ list) use scopes (declared front ++ own) := by
  cases h with
  | here before use after =>
    rw [← List.append_assoc, ← declared_append]
    exact .here (front ++ before) use after
  | inside before after h =>
    rw [← List.append_assoc, ← declared_append]
    exact .inside (front ++ before) after h

end Outline.Encloses

namespace Piece

theorem declared_mentionsOutline (inClass exempt : Bool) (list : List Mention) :
    Outline.declared (mentionsOutline inClass exempt list) = [] := by
  induction list with
  | nil => rfl
  | cons m list ih => exact ih

mutual

/-- What a piece declares in its outline it puts into the scope that it is directly in. -/
theorem declared_outline (inFunction inClass : Bool) : ∀ piece : Piece,
    Outline.declared (piece.outline inFunction inClass) = piece.held
  | .declares name value => by
    rw [outline, Outline.declared, declared_mentionsOutline]
    rfl
  | .provides _ => rfl
  | .mentions list => declared_mentionsOutline _ _ list
  | .breaks _ => rfl
  | .continues _ => rfl
  | .returns _ none => rfl
  | .returns _ (some value) => declared_mentionsOutline _ _ value
  | .within construct body => by
    rw [outline, held]
    split
    · rfl
    · exact declared_outlineIn _ _ body

theorem declared_outlineIn (inFunction inClass : Bool) : ∀ list : List Piece,
    Outline.declared (outlineIn inFunction inClass list) = heldIn list
  | [] => rfl
  | piece :: rest => by
    rw [outlineIn, Outline.declared_append, heldIn, declared_outline _ _ piece,
      declared_outlineIn _ _ rest]

end

end Piece

namespace Site.EnclosedIn

variable {site : Site} {before : List Piece} {around : List Layer} {outline : List Outline}

theorem append_right (h : site.EnclosedIn before around outline) (back : List Outline) :
    site.EnclosedIn before around (outline ++ back) := by
  intro use huse
  obtain ⟨inner, own, henc, hvisible⟩ := h use huse
  exact ⟨inner, own, henc.append_right back, hvisible⟩

/-- What stands before a site in its list counts to the list when that is the whole. -/
theorem append_left {piece : Piece} (h : site.EnclosedIn (before ++ [piece]) around outline)
    (inFunction inClass : Bool) :
    site.EnclosedIn before around (piece.outline inFunction inClass ++ outline) := by
  intro use huse
  obtain ⟨inner, own, henc, hvisible⟩ := h use huse
  refine ⟨inner, _, henc.append_left _, ?_⟩
  rw [hvisible, scopes_append, Piece.declared_outline, Sight.extend_append, Piece.heldIn,
    Piece.heldIn, List.append_nil]

/-- A construct that is a scope. -/
theorem scope {construct : Construct} (hscope : construct.opensScope)
    (h : site.EnclosedIn [] (⟨construct, before⟩ :: around) outline) :
    site.EnclosedIn before around [.scope outline] := by
  intro use huse
  obtain ⟨inner, own, henc, hvisible⟩ := h use huse
  refine ⟨inner ++ [own], [], .inside [] [] henc, ?_⟩
  rw [hvisible, scopes, if_pos hscope, Piece.heldIn, Sight.extend, Sight.extend_nil,
    List.append_assoc]
  rfl

/-- A construct that adds to the scope around it. -/
theorem spread {construct : Construct} (hscope : ¬ construct.opensScope)
    (h : site.EnclosedIn [] (⟨construct, before⟩ :: around) outline) :
    site.EnclosedIn before around outline := by
  intro use huse
  obtain ⟨inner, own, henc, hvisible⟩ := h use huse
  refine ⟨inner, own, henc, ?_⟩
  rw [hvisible, scopes, if_neg hscope, Piece.heldIn, Sight.extend_nil]

/-- Mentions that stand together see the name that is being declared meanwhile. -/
theorem mentions {role : Role} {list : List Mention}
    (hsite : site ∈ mentionSites role before around list) (front : List Outline)
    (hfront : Outline.declared front = role.declared) :
    site.EnclosedIn before around
      (front ++ mentionsOutline (inClass around) (exempts around role) list) := by
  obtain ⟨m, hm, rfl⟩ := List.mem_map.1 hsite
  rintro use ⟨⟩
  obtain ⟨earlier, later, rfl⟩ := List.append_of_mem hm
  refine ⟨[], role.declared, ?_, rfl⟩
  have hdeclared : Outline.declared (mentionsOutline (inClass around) (exempts around role)
      earlier) = [] := Piece.declared_mentionsOutline _ _ earlier
  have hhere := (Outline.Encloses.here (mentionsOutline (inClass around) (exempts around role)
    earlier) (m.use (inClass around) (exempts around role))
    (mentionsOutline (inClass around) (exempts around role) later)).append_left front
  rw [hdeclared, hfront, List.append_nil] at hhere
  rw [mentionsOutline_append]
  exact hhere

mutual

theorem of_mem_sites (before : List Piece) (around : List Layer) : ∀ piece : Piece,
    ∀ site ∈ piece.sites before around,
      site.EnclosedIn before around (piece.outline (inFunction around) (inClass around))
  | .declares name value, site, hsite => by
    rcases List.mem_cons.1 hsite with rfl | hsite
    · exact nofun
    · exact mentions hsite [.declares name.text] rfl
  | .provides _, _, hsite => nomatch hsite
  | .mentions list, site, hsite => mentions hsite [] rfl
  | .breaks _, site, hsite => by
    obtain rfl := List.mem_singleton.1 hsite
    exact nofun
  | .continues _, site, hsite => by
    obtain rfl := List.mem_singleton.1 hsite
    exact nofun
  | .returns _ none, site, hsite => by
    obtain rfl := List.mem_singleton.1 hsite
    exact nofun
  | .returns _ (some value), site, hsite => by
    rcases List.mem_cons.1 hsite with rfl | hsite
    · exact nofun
    · exact mentions hsite [] rfl
  | .within construct body, site, hsite => by
    have hbody := of_mem_sitesIn [] (⟨construct, before⟩ :: around) body site hsite
    rw [inFunction_cons, inClass_cons] at hbody
    rw [Piece.outline]
    split
    · next hscope => exact hbody.scope hscope
    · next hscope => exact hbody.spread hscope

theorem of_mem_sitesIn (before : List Piece) (around : List Layer) : ∀ list : List Piece,
    ∀ site ∈ Piece.sitesIn before around list,
      site.EnclosedIn before around (Piece.outlineIn (inFunction around) (inClass around) list)
  | [], _, hsite => nomatch hsite
  | piece :: rest, site, hsite => by
    rcases List.mem_append.1 hsite with hsite | hsite
    · exact (of_mem_sites before around piece site hsite).append_right _
    · exact (of_mem_sitesIn (before ++ [piece]) around rest site hsite).append_left _ _

end

end Site.EnclosedIn

/-- Only in what is never reached nothing is looked up. -/
theorem Site.exempts_eq_false {site : Site} {m : Mention} {role : Role}
    (hsubject : site.subject = .mentions m role) (hreached : ¬ site.Unreached) :
    exempts site.around role = false := by
  cases role with
  | evaluated => rfl
  | initial name => rfl
  | returned =>
    have hfunction : inFunction site.around ≠ false := fun hnone =>
      hreached ⟨by rw [hsubject]; rfl, (inFunction_eq_false_iff site).1 hnone⟩
    simpa [exempts] using hfunction

mutual

theorem Piece.exists_site (before : List Piece) (around : List Layer) : ∀ piece : Piece,
    ∀ m ∈ piece.allMentions, ∃ site ∈ piece.sites before around, ∃ role,
      site.subject = .mentions m role
  | .declares _ _, _, hm =>
    ⟨_, List.mem_cons_of_mem _ (List.mem_map_of_mem hm), _, rfl⟩
  | .provides _, _, hm => nomatch hm
  | .mentions _, _, hm => ⟨_, List.mem_map_of_mem hm, _, rfl⟩
  | .breaks _, _, hm => nomatch hm
  | .continues _, _, hm => nomatch hm
  | .returns _ none, _, hm => nomatch hm
  | .returns _ (some _), _, hm =>
    ⟨_, List.mem_cons_of_mem _ (List.mem_map_of_mem hm), _, rfl⟩
  | .within construct body, m, hm =>
    exists_site_of_mem [] (⟨construct, before⟩ :: around) body m hm

/-- Every mention stands at a site. -/
theorem Piece.exists_site_of_mem (before : List Piece) (around : List Layer) :
    ∀ list : List Piece, ∀ m ∈ Piece.allMentionsIn list,
      ∃ site ∈ Piece.sitesIn before around list, ∃ role, site.subject = .mentions m role
  | [], _, hm => nomatch hm
  | piece :: rest, m, hm => by
    rcases List.mem_append.1 hm with hm | hm
    · obtain ⟨site, hsite, hsubject⟩ := exists_site before around piece m hm
      exact ⟨site, List.mem_append_left _ hsite, hsubject⟩
    · obtain ⟨site, hsite, hsubject⟩ := exists_site_of_mem (before ++ [piece]) around rest m hm
      exact ⟨site, List.mem_append_right _ hsite, hsubject⟩

end

/-- A mention of a program that was read is bound to the distance of the innermost scope around it
that holds what it looks up, and to nothing if it is exempt or no scope does. -/
theorem Program.get?_resolve_of_mem_sites {tokens : List Token} {program : Program}
    (h : Program.parse tokens = .ok program) {site : Site}
    (hsite : site ∈ Stmt.sites program.statements) {use : Use} (huse : site.use? = some use) :
    (resolve program.statements).bindings.get? use.id =
      if use.exempt then none else Sight.distance? site.visible use.name := by
  obtain ⟨inner, own, henc, hvisible⟩ :=
    Site.EnclosedIn.of_mem_sitesIn [] [] (Stmt.piecesAll program.statements) site hsite use huse
  have houtline : program.outline =
      Piece.outlineIn false false (Stmt.piecesAll program.statements) :=
    Stmt.outlines_eq false false program.statements
  rw [Site.scopes, Sight.extend, List.append_nil] at hvisible
  rw [hvisible]
  exact get?_resolve_of_encloses h (houtline ▸ henc)

end LexicalScoping
