import LexicalScoping.Proofs.Scope.Lookup
import LexicalScoping.Proofs.Scope.Numbering
import Mathlib.Data.List.Permutation

/-!
# Bindings are exact

A reference of a program that was read is bound to the distance of the first scope around it that
holds its name, and to nothing if there is none or if it is exempt. Since no two references share a
number, no later look-up disturbs an earlier one.
-/
namespace LexicalScoping

/-- The scope at that distance is the first that holds the name. -/
def FirstHolding (scopes : List (List String)) (name : String) (distance : Nat) : Prop :=
  (∃ names, scopes[distance]? = some names ∧ name ∈ names) ∧
    ∀ nearer < distance, ∀ names, scopes[nearer]? = some names → name ∉ names

namespace Sight

theorem distance?_eq_some_iff {scopes : List (List String)} {name : String} {distance : Nat} :
    distance? scopes name = some distance ↔ FirstHolding scopes name distance := by
  unfold distance? FirstHolding
  rw [List.findIdx?_eq_some_iff_getElem]
  constructor
  · rintro ⟨hlt, hholds, hnone⟩
    refine ⟨⟨scopes[distance], List.getElem?_eq_getElem hlt, by simpa using hholds⟩, ?_⟩
    intro nearer hnearer names hnames
    obtain ⟨hlt', rfl⟩ := List.getElem?_eq_some_iff.1 hnames
    simpa using hnone nearer hnearer
  · rintro ⟨⟨names, hnames, hholds⟩, hnone⟩
    obtain ⟨hlt, rfl⟩ := List.getElem?_eq_some_iff.1 hnames
    refine ⟨hlt, by simpa using hholds, fun nearer hnearer => ?_⟩
    have hlt' : nearer < scopes.length := by omega
    simpa using hnone nearer hnearer scopes[nearer] (List.getElem?_eq_getElem hlt')

theorem distance?_eq_none_iff {scopes : List (List String)} {name : String} :
    distance? scopes name = none ↔ ∀ names ∈ scopes, name ∉ names := by
  unfold distance?
  rw [List.findIdx?_eq_none_iff]
  simp

theorem get?_bind_of_ne {use : Use} {id : Nat} (h : id ≠ use.id) (sight : Sight) :
    (sight.bind use).bindings.get? id = sight.bindings.get? id := by
  unfold bind
  split
  · rfl
  · split
    · simp [h]
    · rfl

mutual

theorem get?_look_of_notMem {id : Nat} (sight : Sight) :
    ∀ piece : Outline, id ∉ piece.allUses.map Use.id →
      (sight.look piece).bindings.get? id = sight.bindings.get? id
  | .declares _, _ => rfl
  | .uses use, h => get?_bind_of_ne (by simpa [Outline.allUses] using h) sight
  | .scope body, h => get?_lookAll_of_notMem ⟨[] :: sight.scopes, sight.bindings⟩ body h

/-- Looking up other references leaves the binding of a reference as it is. -/
theorem get?_lookAll_of_notMem {id : Nat} (sight : Sight) :
    ∀ list : List Outline, id ∉ (Outline.allUsesIn list).map Use.id →
      (sight.lookAll list).bindings.get? id = sight.bindings.get? id
  | [], _ => rfl
  | piece :: rest, h => by
    rw [Outline.allUsesIn, List.map_append, List.mem_append, not_or] at h
    rw [lookAll, get?_lookAll_of_notMem (sight.look piece) rest h.2,
      get?_look_of_notMem sight piece h.1]

end

/-- A use is bound by the scopes that enclose it inside the list and those open around the list, of
which the innermost also holds what the list has declared. -/
theorem get?_lookAll_of_encloses {list : List Outline} {use : Use} {scopes : List (List String)}
    {own : List String} (h : Outline.Encloses list use scopes own)
    (hdistinct : ((Outline.allUsesIn list).map Use.id).Nodup) (sight : Sight)
    (hfree : sight.bindings.get? use.id = none) :
    (sight.lookAll list).bindings.get? use.id =
      if use.exempt then none else distance? (scopes ++ extend own sight.scopes) use.name := by
  induction h generalizing sight with
  | here before use after =>
    rw [Outline.allUsesIn_append, Outline.allUsesIn, Outline.allUses, List.map_append,
      List.map_append, List.nodup_append] at hdistinct
    obtain ⟨-, hrest, hbefore⟩ := hdistinct
    have hafter : use.id ∉ (Outline.allUsesIn after).map Use.id := (List.nodup_cons.1 hrest).1
    have hbefore : use.id ∉ (Outline.allUsesIn before).map Use.id := fun hmem =>
      hbefore use.id hmem use.id (by simp) rfl
    have hkept : (sight.lookAll before).bindings.get? use.id = none := by
      rw [get?_lookAll_of_notMem _ _ hbefore, hfree]
    rw [lookAll_append, lookAll, get?_lookAll_of_notMem _ _ hafter, look, bind, List.nil_append,
      ← scopes_lookAll]
    by_cases hexempt : use.exempt
    · rw [if_pos hexempt, if_pos hexempt, hkept]
    · rw [if_neg hexempt, if_neg hexempt]
      cases hd : distance? (sight.lookAll before).scopes use.name with
      | none => exact hkept
      | some distance => simp
  | @inside before body after use scopes own henc ih =>
    have hmem : use.id ∈ (Outline.allUsesIn body).map Use.id :=
      List.mem_map_of_mem henc.mem_allUsesIn
    rw [Outline.allUsesIn_append, Outline.allUsesIn, Outline.allUses, List.map_append,
      List.map_append, List.nodup_append, List.nodup_append] at hdistinct
    obtain ⟨-, ⟨hbody, -, hafter⟩, hbefore⟩ := hdistinct
    have hafter : use.id ∉ (Outline.allUsesIn after).map Use.id := fun hother =>
      hafter use.id hmem use.id hother rfl
    have hbefore : use.id ∉ (Outline.allUsesIn before).map Use.id := fun hother =>
      hbefore use.id hother use.id (List.mem_append_left _ hmem) rfl
    have hkept : (sight.lookAll before).bindings.get? use.id = none := by
      rw [get?_lookAll_of_notMem _ _ hbefore, hfree]
    have hinner := ih hbody
      ⟨[] :: (sight.lookAll before).scopes, (sight.lookAll before).bindings⟩ hkept
    rw [lookAll_append, lookAll, get?_lookAll_of_notMem _ _ hafter, look, hinner, extend,
      List.nil_append, scopes_lookAll, List.append_assoc, List.singleton_append]

end Sight

/-- What a reference is bound to in a program that was read, by the scopes that enclose it. -/
theorem get?_resolve_of_encloses {tokens : List Token} {program : Program}
    (h : Program.parse tokens = .ok program) {use : Use} {scopes : List (List String)}
    {top : List String} (henc : Outline.Encloses program.outline use scopes top) :
    (resolve program.statements).bindings.get? use.id =
      if use.exempt then none else Sight.distance? scopes use.name := by
  have hagrees : (Walk.program #[] program.statements).Agrees
      (Sight.lookAll ⟨[], .empty⟩ program.outline) := by
    have hbegin : (Walk.begin #[]).Agrees ⟨[], .empty⟩ := ⟨rfl, .nil⟩
    exact (hbegin.log _).statements .topLevel program.statements
  have hdistinct : ((Outline.allUsesIn program.outline).map Use.id).Nodup :=
    (Program.ascends_of_parse h).pairwise.imp Nat.ne_of_lt
  have hget := Sight.get?_lookAll_of_encloses henc hdistinct ⟨[], .empty⟩ rfl
  rw [Sight.extend, List.append_nil, ← hagrees.bindings] at hget
  exact hget

/-- Every reference of a program that was read stands somewhere. Unless it is exempt, it is bound to
a distance exactly if the scope at that distance is the first around it that holds its name, and it
is unbound exactly if no scope around it does; an exempt reference is unbound. -/
theorem get?_resolve_iff_firstHolding {tokens : List Token} {program : Program}
    (h : Program.parse tokens = .ok program) {use : Use}
    (huse : use ∈ Outline.allUsesIn program.outline) :
    (∃ scopes top, Outline.Encloses program.outline use scopes top) ∧
      ∀ scopes top, Outline.Encloses program.outline use scopes top →
        (use.exempt → (resolve program.statements).bindings.get? use.id = none) ∧
        (¬ use.exempt →
          (∀ distance, (resolve program.statements).bindings.get? use.id = some distance ↔
            FirstHolding scopes use.name distance) ∧
          ((resolve program.statements).bindings.get? use.id = none ↔
            ∀ names ∈ scopes, use.name ∉ names)) := by
  refine ⟨Outline.exists_encloses _ huse, fun scopes top henc => ?_⟩
  rw [get?_resolve_of_encloses h henc]
  refine ⟨fun hexempt => if_pos hexempt, fun hlooked => ?_⟩
  rw [if_neg hlooked]
  exact ⟨fun distance => Sight.distance?_eq_some_iff, Sight.distance?_eq_none_iff⟩

/-- The text `{ let a; { a; } }`. -/
def nestedText : List Token :=
  [.bare .openCurly "\x7b", .bare .letWord "let", .bare .identifier "a", .bare .semicolon ";",
    .bare .openCurly "\x7b", .bare .identifier "a", .bare .semicolon ";", .bare .closeCurly "\x7d",
    .bare .closeCurly "\x7d", .bare .endOfInput "EOF"]

/-- There the use of `a` is bound one scope out. -/
theorem get?_resolve_nestedText : ∃ program, Program.parse nestedText = .ok program ∧
    ⟨0, "a", false⟩ ∈ Outline.allUsesIn program.outline ∧
      (resolve program.statements).bindings.get? 0 = some 1 := by
  obtain ⟨program, h, hscopes⟩ : ∃ program, Program.parse nestedText = .ok program ∧
      program.outline = [.scope [.declares "a", .scope [.uses ⟨0, "a", false⟩]]] :=
    ⟨_, by cbv, by rfl⟩
  have huse : ⟨0, "a", false⟩ ∈ Outline.allUsesIn program.outline := by
    rw [hscopes]
    decide
  have henc : Outline.Encloses program.outline ⟨0, "a", false⟩ [[], ["a"]] [] := by
    rw [hscopes]
    exact .inside [] [] (.inside [.declares "a"] [] (.here [] _ []))
  have hexact := (((get?_resolve_iff_firstHolding h huse).2 _ _ henc).2 (by decide)).1 1
  refine ⟨program, h, huse, hexact.2 ⟨⟨["a"], rfl, by decide⟩, ?_⟩⟩
  intro nearer hnearer names hnames
  obtain rfl : nearer = 0 := by omega
  cases hnames
  decide

end LexicalScoping
