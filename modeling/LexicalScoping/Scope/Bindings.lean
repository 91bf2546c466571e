/-!
# Bindings

The bindings of a program say how many scopes out each local reference finds its name. They are a
finite map from the numbers of references to distances, kept in order of the numbers, so that two
maps with the same entries are equal (`ext_get?`).
-/
namespace LexicalScoping

/-- The first entry decides about its own key. -/
theorem lookup_cons_eq_ite {α β : Type} [DecidableEq α] (a : α) (entry : α × β)
    (entries : List (α × β)) :
    (entry :: entries).lookup a = if a = entry.1 then some entry.2 else entries.lookup a := by
  obtain ⟨key, value⟩ := entry
  by_cases h : a = key
  · simp [h]
  · have hb : (a == key) = false := beq_eq_false_iff_ne.2 h
    simp [List.lookup_cons, hb, h]

/-- Distances by reference number, the largest number first. -/
structure Bindings where
  entries : List (Nat × Nat)
  sorted : entries.Pairwise (fun a b => b.1 < a.1)
deriving DecidableEq

namespace Bindings

def empty : Bindings := ⟨[], .nil⟩

instance : Inhabited Bindings := ⟨empty⟩

/-- Puts an entry in its place, instead of one with the same number. -/
def insertEntry (id distance : Nat) : List (Nat × Nat) → List (Nat × Nat)
  | [] => [(id, distance)]
  | entry :: rest =>
    if entry.1 < id then (id, distance) :: entry :: rest
    else if entry.1 = id then (id, distance) :: rest
    else entry :: insertEntry id distance rest

theorem mem_insertEntry {id distance : Nat} {entries : List (Nat × Nat)} {x : Nat × Nat}
    (h : x ∈ insertEntry id distance entries) : x = (id, distance) ∨ x ∈ entries := by
  induction entries with
  | nil => exact .inl (List.mem_singleton.1 h)
  | cons entry rest ih => grind [insertEntry]

theorem pairwise_insertEntry (id distance : Nat) {entries : List (Nat × Nat)}
    (h : entries.Pairwise (fun a b => b.1 < a.1)) :
    (insertEntry id distance entries).Pairwise (fun a b => b.1 < a.1) := by
  induction entries with
  | nil => exact List.pairwise_singleton _ _
  | cons entry rest ih =>
    obtain ⟨hentry, hrest⟩ := List.pairwise_cons.1 h
    unfold insertEntry
    split
    · next hlt =>
      refine List.pairwise_cons.2 ⟨fun x hx => ?_, h⟩
      rcases List.mem_cons.1 hx with rfl | hx
      · exact hlt
      · exact Nat.lt_trans (hentry x hx) hlt
    · split
      · next heq =>
        subst heq
        exact List.pairwise_cons.2 ⟨hentry, hrest⟩
      · refine List.pairwise_cons.2 ⟨fun x hx => ?_, ih hrest⟩
        rcases mem_insertEntry hx with rfl | hx
        · show id < entry.1
          omega
        · exact hentry x hx

/-- Records a distance, instead of one recorded before for the same number. -/
def insert (bindings : Bindings) (id distance : Nat) : Bindings :=
  ⟨insertEntry id distance bindings.entries, pairwise_insertEntry id distance bindings.sorted⟩

/-- The distance recorded for a number. -/
def get? (bindings : Bindings) (id : Nat) : Option Nat := bindings.entries.lookup id

def size (bindings : Bindings) : Nat := bindings.entries.length

def isEmpty (bindings : Bindings) : Bool := bindings.entries.isEmpty

/-- The entries in order of their numbers. -/
def toList (bindings : Bindings) : List (Nat × Nat) := bindings.entries.reverse

theorem lookup_insertEntry (id distance other : Nat) (entries : List (Nat × Nat)) :
    (insertEntry id distance entries).lookup other =
      if other = id then some distance else entries.lookup other := by
  induction entries with
  | nil => simp [insertEntry, lookup_cons_eq_ite]
  | cons entry rest ih =>
    unfold insertEntry
    split
    · rw [lookup_cons_eq_ite]
    · split
      · next heq => subst heq; grind [lookup_cons_eq_ite]
      · grind [lookup_cons_eq_ite]

/-- What is recorded is found; what was recorded for other numbers stays. -/
@[simp] theorem get?_insert (bindings : Bindings) (id distance other : Nat) :
    (bindings.insert id distance).get? other =
      if other = id then some distance else bindings.get? other :=
  lookup_insertEntry id distance other bindings.entries

@[simp] theorem get?_empty (id : Nat) : empty.get? id = none := rfl

theorem lookup_eq_some_iff_of_pairwise {entries : List (Nat × Nat)}
    (h : entries.Pairwise (fun a b => b.1 < a.1)) (id distance : Nat) :
    entries.lookup id = some distance ↔ (id, distance) ∈ entries := by
  induction entries with
  | nil => simp
  | cons entry rest ih =>
    obtain ⟨hentry, hrest⟩ := List.pairwise_cons.1 h
    obtain ⟨key, value⟩ := entry
    by_cases hk : id = key
    · subst hk
      rw [lookup_cons_eq_ite, if_pos rfl]
      constructor
      · rintro ⟨⟩
        exact List.mem_cons_self ..
      · intro hm
        rcases List.mem_cons.1 hm with he | hm
        · cases he; rfl
        · exact absurd (hentry _ hm) (Nat.lt_irrefl _)
    · rw [lookup_cons_eq_ite, if_neg hk, ih hrest]
      simp [hk]

/-- An entry is in the list exactly when it is found by its number. -/
theorem get?_eq_some_iff (bindings : Bindings) (id distance : Nat) :
    bindings.get? id = some distance ↔ (id, distance) ∈ bindings.entries :=
  lookup_eq_some_iff_of_pairwise bindings.sorted id distance

theorem eq_of_pairwise_of_mem_iff {as bs : List (Nat × Nat)}
    (ha : as.Pairwise (fun a b => b.1 < a.1)) (hb : bs.Pairwise (fun a b => b.1 < a.1))
    (h : ∀ x, x ∈ as ↔ x ∈ bs) : as = bs := by
  induction as generalizing bs with
  | nil =>
    cases bs with
    | nil => rfl
    | cons b bs => exact absurd ((h b).2 (List.mem_cons_self ..)) (List.not_mem_nil)
  | cons a as ih =>
    cases bs with
    | nil => exact absurd ((h a).1 (List.mem_cons_self ..)) (List.not_mem_nil)
    | cons b bs =>
      obtain ⟨ha₁, ha₂⟩ := List.pairwise_cons.1 ha
      obtain ⟨hb₁, hb₂⟩ := List.pairwise_cons.1 hb
      have hab : a = b := by
        rcases List.mem_cons.1 ((h a).1 (List.mem_cons_self ..)) with he | hm
        · exact he
        rcases List.mem_cons.1 ((h b).2 (List.mem_cons_self ..)) with he | hm'
        · exact he.symm
        exact absurd (Nat.lt_trans (hb₁ a hm) (ha₁ b hm')) (Nat.lt_irrefl _)
      subst hab
      refine congrArg (a :: ·) (ih ha₂ hb₂ fun x => ⟨fun hx => ?_, fun hx => ?_⟩)
      · rcases List.mem_cons.1 ((h x).1 (List.mem_cons_of_mem _ hx)) with he | hm
        · exact absurd (he ▸ ha₁ x hx) (Nat.lt_irrefl _)
        · exact hm
      · rcases List.mem_cons.1 ((h x).2 (List.mem_cons_of_mem _ hx)) with he | hm
        · exact absurd (he ▸ hb₁ x hx) (Nat.lt_irrefl _)
        · exact hm

/-- Bindings that answer alike for every number are equal. -/
theorem ext_get? {a b : Bindings} (h : ∀ id, a.get? id = b.get? id) : a = b := by
  obtain ⟨as, ha⟩ := a
  obtain ⟨bs, hb⟩ := b
  have he : as = bs := eq_of_pairwise_of_mem_iff ha hb fun ⟨id, distance⟩ => by
    rw [← lookup_eq_some_iff_of_pairwise ha, ← lookup_eq_some_iff_of_pairwise hb,
      show as.lookup id = bs.lookup id from h id]
  subst he
  rfl

end Bindings

/-- Where the value of a reference is found. -/
inductive Lookup
  /-- So many scopes out from the innermost. -/
  | inScope (distance : Nat)
  /-- In no scope of the program, by its name. -/
  | byName
deriving DecidableEq, Repr

/-- A reference without an entry is looked up by its name. -/
def Bindings.lookup (bindings : Bindings) (id : Nat) : Lookup :=
  match bindings.get? id with
  | some distance => .inScope distance
  | none => .byName

end LexicalScoping
