import LexicalScoping.Token.Basic
import Mathlib.Data.List.Infix

/-!
# Which scopes are open

Which scopes are open can be told from the order in which scopes were entered and left. A scope is
open if the steps since it was entered leave none that was open before them, and it is the innermost
as often as they have left as many as they entered. Leaving a scope when none is open does nothing.
-/
namespace LexicalScoping

/-- What can be done with the open scopes and the bindings. -/
inductive ScopeStep
  | enter
  | leave
  | declare (name : Token)
  | define (name : String)
  | resolve (id : Nat) (name : String)
  | insert (id distance : Nat)
deriving DecidableEq, Repr

/-- The step neither declares nor defines a name. -/
def ScopeStep.NamesNothing : ScopeStep → Prop
  | declare _ | define _ => False
  | _ => True

/-- Steps in the order in which they were made. -/
abbrev History : Type := List ScopeStep

namespace History

/-- The steps leave no scope that was open before them. -/
def Keeps (steps : History) : Prop :=
  ∀ front, front <+: steps → front.count .leave ≤ front.count .enter

instance (steps : History) : Decidable (Keeps steps) :=
  decidable_of_iff (∀ front ∈ steps.inits, front.count .leave ≤ front.count .enter)
    (by simp [Keeps])

/-- The steps leave as many scopes as they enter. -/
def Balanced (steps : History) : Prop := steps.count .enter = steps.count .leave

instance (steps : History) : Decidable (Balanced steps) :=
  inferInstanceAs (Decidable (_ = _))

/-- What was done since each scope was entered that no later step has left, the latest such scope
first. -/
def opened : History → List History
  | [] => []
  | .enter :: since => if Keeps since then opened since ++ [since] else opened since
  | _ :: since => opened since

/-- The step was made while the scope that was innermost before the steps was innermost. -/
def Made (steps : History) (step : ScopeStep) : Prop :=
  ∃ front, front ++ [step] <+: steps ∧ Balanced front

theorem count_concat_enter (steps : History) :
    (steps ++ [ScopeStep.enter]).count .enter = steps.count .enter + 1 ∧
      (steps ++ [ScopeStep.enter]).count .leave = steps.count .leave := by
  simp

theorem count_concat_leave (steps : History) :
    (steps ++ [ScopeStep.leave]).count .enter = steps.count .enter ∧
      (steps ++ [ScopeStep.leave]).count .leave = steps.count .leave + 1 := by
  simp

/-- Other steps are not counted. -/
theorem count_concat_of_ne (steps : History) {step : ScopeStep} (henter : step ≠ .enter)
    (hleave : step ≠ .leave) :
    (steps ++ [step]).count .enter = steps.count .enter ∧
      (steps ++ [step]).count .leave = steps.count .leave := by
  simp [henter, hleave]

theorem keeps_concat (steps : History) (step : ScopeStep) :
    Keeps (steps ++ [step]) ↔ Keeps steps ∧
      (steps ++ [step]).count .leave ≤ (steps ++ [step]).count .enter := by
  unfold Keeps
  simp only [List.prefix_concat_iff]
  constructor
  · intro h
    exact ⟨fun front hfront => h front (.inr hfront), h _ (.inl rfl)⟩
  · rintro ⟨h, hlast⟩ front (rfl | hfront)
    · exact hlast
    · exact h front hfront

theorem made_concat (steps : History) (step other : ScopeStep) :
    Made (steps ++ [step]) other ↔ Made steps other ∨ other = step ∧ Balanced steps := by
  unfold Made
  simp only [List.prefix_concat_iff]
  constructor
  · rintro ⟨front, hlast | hfront, hbalanced⟩
    · obtain ⟨rfl, hstep⟩ := List.append_inj' hlast rfl
      exact .inr ⟨List.singleton_inj.1 hstep, hbalanced⟩
    · exact .inl ⟨front, hfront, hbalanced⟩
  · rintro (⟨front, hfront, hbalanced⟩ | ⟨rfl, hbalanced⟩)
    · exact ⟨front, .inr hfront, hbalanced⟩
    · exact ⟨steps, .inl rfl, hbalanced⟩

/-- A later step cuts off the scopes that it leaves, and opens one if it enters one. -/
theorem opened_concat (history : History) (step : ScopeStep) :
    opened (history ++ [step]) = (if step = .enter then [[]] else []) ++
      ((opened history).map (· ++ [step])).filter fun since => Keeps since := by
  induction history with
  | nil => cases step <;> simp [opened, Keeps]
  | cons first since ih =>
    cases first with
    | enter =>
      simp only [List.cons_append, opened, ih]
      have hkeeps := keeps_concat since step
      by_cases hsince : Keeps since
      · by_cases hboth : Keeps (since ++ [step]) <;> simp [hsince, hboth]
      · have hboth : ¬ Keeps (since ++ [step]) := fun h => hsince (hkeeps.1 h).1
        simp [hsince, hboth]
    | _ => exact ih

theorem Keeps.count_le {steps : History} (h : Keeps steps) :
    steps.count .leave ≤ steps.count .enter := h steps List.prefix_rfl

theorem Keeps.concat {steps : History} (h : Keeps steps) {step : ScopeStep}
    (hstep : step ≠ .leave) : Keeps (steps ++ [step]) := by
  refine (keeps_concat steps step).2 ⟨h, ?_⟩
  calc (steps ++ [step]).count .leave = steps.count .leave := by simp [List.count_append, hstep]
    _ ≤ steps.count .enter := h.count_le
    _ ≤ (steps ++ [step]).count .enter := by simp [List.count_append]

theorem keeps_of_mem_opened {history since : History} (h : since ∈ opened history) :
    Keeps since := by
  induction history with
  | nil => cases h
  | cons first steps ih =>
    cases first with
    | enter =>
      rw [opened] at h
      split at h
      · next hkeeps =>
        rcases List.mem_append.1 h with hmem | hmem
        · exact ih hmem
        · obtain rfl := List.mem_singleton.1 hmem
          exact hkeeps
      · exact ih h
    | _ => exact ih h

theorem filter_keeps_concat (history : History) (step : ScopeStep) (hstep : step ≠ .leave) :
    ((opened history).map (· ++ [step])).filter (fun since => Keeps since) =
      (opened history).map (· ++ [step]) := by
  refine List.filter_eq_self.2 fun since hsince => ?_
  obtain ⟨since, hmem, rfl⟩ := List.mem_map.1 hsince
  exact decide_eq_true ((keeps_of_mem_opened hmem).concat hstep)

theorem opened_concat_enter (history : History) :
    opened (history ++ [.enter]) = [] :: (opened history).map (· ++ [.enter]) := by
  rw [opened_concat, filter_keeps_concat history .enter nofun, if_pos rfl, List.singleton_append]

theorem opened_concat_of_ne (history : History) (step : ScopeStep) (henter : step ≠ .enter)
    (hleave : step ≠ .leave) :
    opened (history ++ [step]) = (opened history).map (· ++ [step]) := by
  rw [opened_concat, filter_keeps_concat history step hleave, if_neg henter, List.nil_append]

/-- Each scope is the innermost again once those entered since are left. -/
def Rising (scopes : List History) : Prop :=
  ∀ i (since : History), scopes[i]? = some since → since.count .enter = since.count .leave + i

/-- Leaving closes the scope in which as many were left as entered. -/
theorem opened_concat_leave {history : History} (h : Rising (opened history)) :
    opened (history ++ [.leave]) = (opened history).tail.map (· ++ [.leave]) := by
  rw [opened_concat, if_neg (by decide), List.nil_append]
  have hkeeps := @keeps_of_mem_opened history
  generalize opened history = scopes at h hkeeps
  cases scopes with
  | nil => rfl
  | cons innermost outer =>
    have hinnermost : ¬ Keeps (innermost ++ [.leave]) := by
      intro hboth
      have hcount := h 0 innermost rfl
      have hle := hboth.count_le
      obtain ⟨henters, hleaves⟩ := count_concat_leave innermost
      omega
    have houter : ∀ since ∈ outer.map (· ++ [.leave]), decide (Keeps since) := by
      intro since hsince
      obtain ⟨since, hmem, rfl⟩ := List.mem_map.1 hsince
      obtain ⟨i, hi⟩ := List.mem_iff_getElem?.1 hmem
      have hcount := h (i + 1) since hi
      have hsince := hkeeps (List.mem_cons_of_mem _ hmem)
      obtain ⟨henters, hleaves⟩ := count_concat_leave since
      exact decide_eq_true ((keeps_concat since .leave).2 ⟨hsince, by omega⟩)
    rw [List.map_cons, List.filter_cons_of_neg (by simpa using hinnermost),
      List.filter_eq_self.2 houter, List.tail_cons]

/-- The scope that is `i` scopes out has seen `i` scopes entered that were not left. -/
theorem rising_opened (history : History) : Rising (opened history) := by
  induction history using List.reverseRecOn with
  | nil => simp [Rising, opened]
  | append_singleton history step ih =>
    intro i since hsince
    by_cases henter : step = .enter
    · subst henter
      rw [opened_concat_enter] at hsince
      cases i with
      | zero =>
        cases hsince
        rfl
      | succ i =>
        rw [List.getElem?_cons_succ, List.getElem?_map] at hsince
        obtain ⟨before, hbefore, rfl⟩ := Option.map_eq_some_iff.1 hsince
        have hcount := ih i before hbefore
        obtain ⟨henters, hleaves⟩ := count_concat_enter before
        omega
    · by_cases hleave : step = .leave
      · subst hleave
        rw [opened_concat_leave ih, List.getElem?_map] at hsince
        obtain ⟨before, hbefore, rfl⟩ := Option.map_eq_some_iff.1 hsince
        rw [List.getElem?_tail] at hbefore
        have hcount := ih (i + 1) before hbefore
        obtain ⟨henters, hleaves⟩ := count_concat_leave before
        omega
      · rw [opened_concat_of_ne history step henter hleave, List.getElem?_map] at hsince
        obtain ⟨before, hbefore, rfl⟩ := Option.map_eq_some_iff.1 hsince
        have hcount := ih i before hbefore
        obtain ⟨henters, hleaves⟩ := count_concat_of_ne before henter hleave
        omega

theorem Rising.balanced {since : History} {outer : List History} (h : Rising (since :: outer)) :
    Balanced since := h 0 since rfl

theorem Rising.not_balanced {since : History} {outer : List History}
    (h : Rising (since :: outer)) : ∀ other ∈ outer, ¬ Balanced other := by
  intro other hother hbalanced
  obtain ⟨i, hi⟩ := List.mem_iff_getElem?.1 hother
  have hcount := h (i + 1) other hi
  unfold Balanced at hbalanced
  omega

end History
end LexicalScoping
