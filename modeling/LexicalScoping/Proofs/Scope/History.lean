import LexicalScoping.Proofs.Scope.Opened
import LexicalScoping.Scope.Stack
import Mathlib.Data.List.Forall2

/-!
# Scopes and bindings by their history

What the open scopes hold and what is bound can be told from the steps that were made: a scope says
of a name what was done with it while the scope was innermost, a reference finds the first scope in
which its name was declared or defined, and a number is bound to what was recorded for it last.
`explains_run` says this of all steps in any order, also of those that are rejected or do nothing.
-/
namespace LexicalScoping

/-- The open scopes and the bindings. -/
structure Tracked where
  scopes : Scopes
  bindings : Bindings
deriving DecidableEq

namespace Tracked

/-- No scope is open, and nothing is recorded. -/
def empty : Tracked := ⟨.empty, .empty⟩

/-- Makes a step. -/
def step (now : Tracked) : ScopeStep → Tracked
  | .enter => { now with scopes := now.scopes.enter }
  | .leave => { now with scopes := now.scopes.leave }
  | .declare name => { now with scopes := (now.scopes.tryDeclare name).2 }
  | .define name => { now with scopes := now.scopes.define name }
  | .resolve id name =>
    { now with bindings := (now.scopes.resolveReference id name now.bindings).2 }
  | .insert id distance => { now with bindings := now.bindings.insert id distance }

end Tracked

namespace History

/-- Makes the steps, from no open scope and no bindings on. -/
def run (history : History) : Tracked := history.foldl Tracked.step .empty

/-- The name was defined while the scope was innermost. -/
def Defines (since : History) (name : String) : Prop := Made since (.define name)

/-- The name was declared, or its declaration was rejected, while the scope was innermost. -/
def Declares (since : History) (name : String) : Prop :=
  ∃ token : Token, token.text = name ∧ Made since (.declare token)

/-- The name was declared or defined while the scope was innermost. -/
def Names (since : History) (name : String) : Prop := Declares since name ∨ Defines since name

/-- The frame says of every name what was done while the scope was innermost. -/
structure Tells (frame : Frame) (since : History) : Prop where
  defined_iff : ∀ name, frame.state? name = some .defined ↔ Defines since name
  declared_iff : ∀ name,
    frame.state? name = some .declared ↔ Declares since name ∧ ¬ Defines since name
  none_iff : ∀ name, frame.state? name = none ↔ ¬ Names since name

/-- That many scopes out is the first in which the name was declared or defined. -/
def FirstNaming (scopes : List History) (name : String) (distance : Nat) : Prop :=
  (∃ since, scopes[distance]? = some since ∧ Names since name) ∧
    ∀ nearer < distance, ∀ since, scopes[nearer]? = some since → ¬ Names since name

/-- The step, made after the others, records the distance for the number. -/
def Records (before : History) (step : ScopeStep) (id distance : Nat) : Prop :=
  step = .insert id distance ∨
    ∃ name, step = .resolve id name ∧ FirstNaming (opened before) name distance

/-- The last distance that was recorded for the number. -/
def LastRecorded (history : History) (id distance : Nat) : Prop :=
  ∃ before step after, history = before ++ step :: after ∧ Records before step id distance ∧
    ∀ front later back, after = front ++ later :: back → ∀ other,
      ¬ Records (before ++ step :: front) later id other

theorem run_concat (history : History) (step : ScopeStep) :
    run (history ++ [step]) = (run history).step step := by
  simp [run]

theorem defines_concat (since : History) (step : ScopeStep) (name : String) :
    Defines (since ++ [step]) name ↔
      Defines since name ∨ .define name = step ∧ Balanced since := made_concat since step _

theorem declares_concat (since : History) (step : ScopeStep) (name : String) :
    Declares (since ++ [step]) name ↔ Declares since name ∨
      (∃ token : Token, token.text = name ∧ .declare token = step) ∧ Balanced since := by
  unfold Declares
  simp only [made_concat]
  constructor
  · rintro ⟨token, htext, hmade | ⟨hstep, hbalanced⟩⟩
    · exact .inl ⟨token, htext, hmade⟩
    · exact .inr ⟨⟨token, htext, hstep⟩, hbalanced⟩
  · rintro (⟨token, htext, hmade⟩ | ⟨⟨token, htext, hstep⟩, hbalanced⟩)
    · exact ⟨token, htext, .inl hmade⟩
    · exact ⟨token, htext, .inr ⟨hstep, hbalanced⟩⟩

namespace Tells

variable {frame : Frame} {since : History}

theorem holds_iff (h : Tells frame since) (name : String) :
    frame.holds name ↔ Names since name := by
  rw [Frame.holds, Option.isSome_iff_ne_none, ne_eq, h.none_iff, not_not]

/-- A name that is neither declared nor defined in the frame is not in it. -/
theorem of_iffs (hdefined : ∀ name, frame.state? name = some .defined ↔ Defines since name)
    (hdeclared : ∀ name,
      frame.state? name = some .declared ↔ Declares since name ∧ ¬ Defines since name) :
    Tells frame since := by
  refine ⟨hdefined, hdeclared, fun name => ?_⟩
  have hnone : frame.state? name = none ↔
      frame.state? name ≠ some .declared ∧ frame.state? name ≠ some .defined := by
    cases frame.state? name with
    | none => simp
    | some state => cases state <;> simp
  rw [hnone, Names, ne_eq, ne_eq, hdefined, hdeclared]
  tauto

/-- What is not declared or defined while the scope is innermost tells nothing of it. -/
theorem concat (h : Tells frame since) {step : ScopeStep}
    (hstep : Balanced since → step.NamesNothing) : Tells frame (since ++ [step]) := by
  have hdefines : ∀ name, Defines (since ++ [step]) name ↔ Defines since name := by
    intro name
    rw [defines_concat, or_iff_left]
    rintro ⟨rfl, hbalanced⟩
    exact hstep hbalanced
  have hdeclares : ∀ name, Declares (since ++ [step]) name ↔ Declares since name := by
    intro name
    rw [declares_concat, or_iff_left]
    rintro ⟨⟨token, -, rfl⟩, hbalanced⟩
    exact hstep hbalanced
  apply of_iffs
  · simpa only [hdefines] using h.defined_iff
  · simpa only [hdefines, hdeclares] using h.declared_iff

theorem defines_declare (since : History) (token : Token) (name : String) :
    Defines (since ++ [.declare token]) name ↔ Defines since name := by
  simp [defines_concat]

theorem declares_declare (hbalanced : Balanced since) (token : Token) (name : String) :
    Declares (since ++ [.declare token]) name ↔ Declares since name ∨ name = token.text := by
  simp [declares_concat, hbalanced, eq_comm]

/-- A name that the scope does not hold is declared in it. -/
theorem declare (h : Tells frame since) (hbalanced : Balanced since) {token : Token}
    (hnew : ¬ frame.holds token.text) :
    Tells (frame.set token.text .declared) (since ++ [.declare token]) := by
  rw [h.holds_iff, Names, not_or] at hnew
  have hdeclares := declares_declare hbalanced token
  apply of_iffs
  · intro name
    by_cases he : name = token.text <;> simp [defines_declare, he, hnew.2, h.defined_iff]
  · intro name
    by_cases he : name = token.text <;>
      simp [defines_declare, hdeclares, he, hnew.2, h.declared_iff]

/-- A name that the scope holds stays as it is, also if it is defined already. -/
theorem redeclare (h : Tells frame since) (hbalanced : Balanced since) {token : Token}
    (hold : frame.holds token.text) : Tells frame (since ++ [.declare token]) := by
  rw [h.holds_iff, Names] at hold
  have hdeclares := declares_declare hbalanced token
  apply of_iffs
  · intro name
    rw [defines_declare, h.defined_iff]
  · intro name
    rw [defines_declare, hdeclares, h.declared_iff]
    by_cases he : name = token.text
    · subst he
      tauto
    · simp [he]

theorem define (h : Tells frame since) (hbalanced : Balanced since) (name : String) :
    Tells (frame.set name .defined) (since ++ [.define name]) := by
  have hdefines : ∀ other, Defines (since ++ [.define name]) other ↔
      Defines since other ∨ other = name := by
    simp [defines_concat, hbalanced]
  have hdeclares : ∀ other, Declares (since ++ [.define name]) other ↔ Declares since other := by
    simp [declares_concat]
  apply of_iffs
  · intro other
    by_cases he : other = name <;> simp [hdefines, he, h.defined_iff]
  · intro other
    by_cases he : other = name <;> simp [hdefines, hdeclares, he, h.declared_iff]

end Tells

/-- Scopes that are not the innermost keep what they hold, and so does the innermost if nothing is
declared or defined. -/
theorem forall₂_tells_concat {frames : List Frame} {scopes : List History}
    (h : List.Forall₂ Tells frames scopes) {step : ScopeStep}
    (hstep : ∀ since ∈ scopes, Balanced since → step.NamesNothing) :
    List.Forall₂ Tells frames (scopes.map (· ++ [step])) := by
  induction h with
  | nil => exact .nil
  | cons hframe _ ih =>
    rw [List.forall_mem_cons] at hstep
    exact .cons (hframe.concat hstep.1) (ih hstep.2)

section Innermost

variable {now : Tracked} {scopes : List History}
  (h : List.Forall₂ Tells now.scopes.frames scopes) (hrising : Rising scopes)
include h hrising

theorem forall₂_tells_declare (token : Token) :
    List.Forall₂ Tells (now.step (.declare token)).scopes.frames
      (scopes.map (· ++ [.declare token])) := by
  obtain ⟨⟨frames⟩, bindings⟩ := now
  cases h with
  | nil => exact .nil
  | @cons frame since outer scopes hframe houter =>
    have houter' : List.Forall₂ Tells outer (scopes.map (· ++ [.declare token])) :=
      forall₂_tells_concat houter fun other hother hbalanced =>
        absurd hbalanced (hrising.not_balanced other hother)
    by_cases hholds : frame.holds token.text
    · rw [Tracked.step, Scopes.tryDeclare_of_holds outer hholds]
      exact .cons (hframe.redeclare hrising.balanced hholds) houter'
    · rw [Tracked.step, Scopes.tryDeclare_of_not_holds outer hholds]
      exact .cons (hframe.declare hrising.balanced hholds) houter'

theorem forall₂_tells_define (name : String) :
    List.Forall₂ Tells (now.step (.define name)).scopes.frames
      (scopes.map (· ++ [.define name])) := by
  obtain ⟨⟨frames⟩, bindings⟩ := now
  cases h with
  | nil => exact .nil
  | cons hframe houter =>
    exact .cons (hframe.define hrising.balanced name) (forall₂_tells_concat houter
      fun other hother hbalanced => absurd hbalanced (hrising.not_balanced other hother))

end Innermost

/-- The frames tell what was done in each scope, whatever the steps were. -/
theorem forall₂_tells (history : History) :
    List.Forall₂ Tells (run history).scopes.frames (opened history) := by
  induction history using List.reverseRecOn with
  | nil => exact .nil
  | append_singleton history step ih =>
    have hrising := rising_opened history
    rw [run_concat]
    cases step with
    | enter =>
      have hnew : Tells [] [] := by
        constructor <;> simp [Frame.state?, Names, Defines, Declares, Made]
      rw [opened_concat_enter]
      exact .cons hnew (forall₂_tells_concat ih fun _ _ _ => trivial)
    | leave =>
      have houter : List.Forall₂ Tells (run history).scopes.frames.tail (opened history).tail := by
        simpa only [List.drop_one] using List.forall₂_drop 1 ih
      rw [opened_concat_leave hrising]
      exact forall₂_tells_concat houter fun _ _ _ => trivial
    | declare token =>
      rw [opened_concat_of_ne history (.declare token) nofun nofun]
      exact forall₂_tells_declare ih hrising token
    | define name =>
      rw [opened_concat_of_ne history (.define name) nofun nofun]
      exact forall₂_tells_define ih hrising name
    | resolve id name =>
      rw [opened_concat_of_ne history (.resolve id name) nofun nofun]
      exact forall₂_tells_concat ih fun _ _ _ => trivial
    | insert id distance =>
      rw [opened_concat_of_ne history (.insert id distance) nofun nofun]
      exact forall₂_tells_concat ih fun _ _ _ => trivial

theorem firstNaming_cons_zero (since : History) (scopes : List History) (name : String) :
    FirstNaming (since :: scopes) name 0 ↔ Names since name := by
  simp [FirstNaming]

theorem firstNaming_cons_succ (since : History) (scopes : List History) (name : String)
    (distance : Nat) : FirstNaming (since :: scopes) name (distance + 1) ↔
      ¬ Names since name ∧ FirstNaming scopes name distance := by
  constructor
  · rintro ⟨hnames, hnearer⟩
    exact ⟨hnearer 0 (by omega) since rfl, hnames, fun nearer hlt other hother =>
      hnearer (nearer + 1) (by omega) other hother⟩
  · rintro ⟨hnot, hnames, hnearer⟩
    refine ⟨hnames, fun nearer hlt other hother => ?_⟩
    cases nearer with
    | zero =>
      cases hother
      exact hnot
    | succ nearer => exact hnearer nearer (by omega) other hother

/-- A name is found in the first scope in which it was declared or defined. -/
theorem distance?_eq_some_iff {scopes : Scopes} {opened : List History}
    (h : List.Forall₂ Tells scopes.frames opened) (name : String) (distance : Nat) :
    scopes.distance? name = some distance ↔ FirstNaming opened name distance := by
  unfold Scopes.distance?
  generalize scopes.frames = frames at h ⊢
  induction h generalizing distance with
  | nil => simp [FirstNaming]
  | @cons frame since _ _ hframe _ ih =>
    rw [List.findIdx?_cons]
    have hholds := hframe.holds_iff name
    by_cases hnames : Names since name
    · cases distance with
      | zero => simp [hholds.2 hnames, firstNaming_cons_zero, hnames]
      | succ distance => simp [hholds.2 hnames, firstNaming_cons_succ, hnames]
    · have hnot : frame.holds name = false := by simpa using fun h => hnames (hholds.1 h)
      cases distance with
      | zero => simp [hnot, firstNaming_cons_zero, hnames]
      | succ distance => simp [hnot, firstNaming_cons_succ, hnames, ih]

/-- It is found in none if it was neither declared nor defined in any. -/
theorem distance?_eq_none_iff {scopes : Scopes} {opened : List History}
    (h : List.Forall₂ Tells scopes.frames opened) (name : String) :
    scopes.distance? name = none ↔ ∀ since ∈ opened, ¬ Names since name := by
  unfold Scopes.distance?
  generalize scopes.frames = frames at h ⊢
  induction h with
  | nil => simp
  | cons hframe _ ih =>
    rw [List.findIdx?_cons, List.forall_mem_cons, ← ih, ← hframe.holds_iff]
    split <;> simp_all

/-- Exactly what the innermost scope holds cannot be declared. -/
theorem declare_eq_error_iff {scopes : Scopes} {opened : List History}
    (h : List.Forall₂ Tells scopes.frames opened) (name : Token) (d : Diagnostic) :
    scopes.declare name = .error d ↔ (∃ since ∈ opened.head?, Names since name.text) ∧
      d = name.diagnostic (.variableAlreadyDeclared name.text) := by
  obtain ⟨frames⟩ := scopes
  cases h with
  | nil => simp [Scopes.declare, Scopes.tryDeclare]
  | @cons frame since outer _ hframe _ =>
    have hholds := hframe.holds_iff name.text
    by_cases hnames : Names since name.text
    · simp [Scopes.declare, Scopes.tryDeclare_of_holds outer (hholds.2 hnames), hnames, eq_comm]
    · have hnot : ¬ frame.holds name.text := fun h => hnames (hholds.1 h)
      simp [Scopes.declare, Scopes.tryDeclare_of_not_holds outer hnot, hnames]

/-- A reference finds how far out its name is. -/
theorem fst_resolveReference (scopes : Scopes) (id : Nat) (name : String) (bindings : Bindings) :
    (scopes.resolveReference id name bindings).1 = scopes.distance? name := by
  unfold Scopes.resolveReference
  split
  · next hdistance => rw [hdistance]
  · next hdistance => rw [hdistance]

section Recording

variable {history : History} {step : ScopeStep} {id distance : Nat}

theorem get?_step_of_records (h : Records history step id distance) :
    ((run history).step step).bindings.get? id = some distance := by
  rcases h with rfl | ⟨name, rfl, hfirst⟩
  · simp [Tracked.step]
  · have hdistance := (distance?_eq_some_iff (forall₂_tells history) name distance).2 hfirst
    simp [Tracked.step, Scopes.resolveReference, hdistance]

theorem get?_step_of_not_records (h : ∀ distance, ¬ Records history step id distance) :
    ((run history).step step).bindings.get? id = (run history).bindings.get? id := by
  cases step with
  | resolve other name =>
    simp only [Tracked.step, Scopes.resolveReference]
    cases hdistance : (run history).scopes.distance? name with
    | none => rfl
    | some distance =>
      have hfirst := (distance?_eq_some_iff (forall₂_tells history) name distance).1 hdistance
      have hne : id ≠ other := by
        rintro rfl
        exact h distance (.inr ⟨name, rfl, hfirst⟩)
      simp [hne]
  | insert other distance =>
    have hne : id ≠ other := by
      rintro rfl
      exact h distance (.inl rfl)
    simp [Tracked.step, hne]
  | _ => rfl

theorem concat_eq_append_cons_iff {before after : History} {later : ScopeStep} :
    history ++ [step] = before ++ later :: after ↔
      (after = [] ∧ before = history ∧ later = step) ∨
        ∃ front, after = front ++ [step] ∧ history = before ++ later :: front := by
  constructor
  · intro h
    rcases List.eq_nil_or_concat after with rfl | ⟨front, last, rfl⟩
    · obtain ⟨rfl, hstep⟩ := List.append_inj' h rfl
      exact .inl ⟨rfl, rfl, (List.singleton_inj.1 hstep).symm⟩
    · rw [List.concat_eq_append, ← List.cons_append, ← List.append_assoc] at h
      obtain ⟨rfl, hstep⟩ := List.append_inj' h rfl
      exact .inr ⟨front, by rw [List.concat_eq_append, hstep], rfl⟩
  · rintro (⟨rfl, rfl, rfl⟩ | ⟨front, rfl, rfl⟩) <;> simp

theorem lastRecorded_concat : LastRecorded (history ++ [step]) id distance ↔
    Records history step id distance ∨
      LastRecorded history id distance ∧ ∀ other, ¬ Records history step id other := by
  unfold LastRecorded
  simp only [concat_eq_append_cons_iff]
  constructor
  · rintro ⟨before, first, after, ⟨rfl, rfl, rfl⟩ | ⟨front, rfl, rfl⟩, hrecords, hlater⟩
    · exact .inl hrecords
    · refine .inr ⟨⟨before, first, front, rfl, hrecords, fun front' later back hfront => ?_⟩,
        hlater front step [] rfl⟩
      exact hlater front' later (back ++ [step]) (by simp [hfront])
  · rintro (hrecords | ⟨⟨before, first, after, rfl, hrecords, hlater⟩, hnot⟩)
    · exact ⟨history, step, [], .inl ⟨rfl, rfl, rfl⟩, hrecords, by simp⟩
    · refine ⟨before, first, after ++ [step], .inr ⟨after, rfl, rfl⟩, hrecords,
        fun front later back hback other => ?_⟩
      rcases concat_eq_append_cons_iff.1 hback with ⟨rfl, rfl, rfl⟩ | ⟨back', rfl, rfl⟩
      · exact hnot other
      · exact hlater front later back' rfl other

end Recording

/-- What is bound is what was recorded last. -/
theorem get?_eq_some_iff_lastRecorded (history : History) (id distance : Nat) :
    (run history).bindings.get? id = some distance ↔ LastRecorded history id distance := by
  induction history using List.reverseRecOn with
  | nil => simp [run, Tracked.empty, LastRecorded]
  | append_singleton history step ih =>
    rw [run_concat, lastRecorded_concat]
    by_cases hrecords : ∃ other, Records history step id other
    · obtain ⟨other, hother⟩ := hrecords
      have hget := get?_step_of_records hother
      constructor
      · intro h
        rw [hget] at h
        cases h
        exact .inl hother
      · rintro (hrecords | ⟨-, hnot⟩)
        · exact get?_step_of_records hrecords
        · exact absurd hother (hnot other)
    · have hnot : ∀ other, ¬ Records history step id other := not_exists.1 hrecords
      rw [get?_step_of_not_records hnot, ih]
      simp [hnot]

/-- Only entering and leaving a scope changes which frames are below the innermost. -/
theorem tail_frames_step (now : Tracked) {step : ScopeStep} (henter : step ≠ .enter)
    (hleave : step ≠ .leave) :
    (now.step step).scopes.depth = now.scopes.depth ∧
      (now.step step).scopes.frames.tail = now.scopes.frames.tail := by
  obtain ⟨⟨frames⟩, bindings⟩ := now
  cases step with
  | enter => contradiction
  | leave => contradiction
  | declare token =>
    cases frames with
    | nil => exact ⟨rfl, rfl⟩
    | cons frame outer =>
      by_cases hholds : frame.holds token.text <;>
        simp [Tracked.step, Scopes.tryDeclare, Scopes.depth, hholds]
  | define name => cases frames <;> exact ⟨rfl, rfl⟩
  | resolve id name => exact ⟨rfl, rfl⟩
  | insert id distance => exact ⟨rfl, rfl⟩

/-- After steps that entered `k` scopes more than they left, and left none of those before, `k` more
are open, and those below the one that was innermost are as they were. -/
theorem frames_foldl_of_keeps (now : Tracked) {steps : History} (h : Keeps steps) {k : Nat}
    (hk : steps.count .enter = steps.count .leave + k) :
    (steps.foldl Tracked.step now).scopes.depth = now.scopes.depth + k ∧
      (steps.foldl Tracked.step now).scopes.frames.drop (k + 1) = now.scopes.frames.tail := by
  induction steps using List.reverseRecOn generalizing k with
  | nil =>
    obtain rfl : k = 0 := by simpa using hk.symm
    simp
  | append_singleton steps step ih =>
    have hsteps := ((keeps_concat steps step).1 h).1
    have hle := hsteps.count_le
    rw [List.foldl_append, List.foldl_cons, List.foldl_nil]
    generalize steps.foldl Tracked.step now = later at ih
    by_cases henter : step = .enter
    · subst henter
      obtain ⟨henters, hleaves⟩ := count_concat_enter steps
      cases k with
      | zero => omega
      | succ k =>
        have hcount : steps.count .enter = steps.count .leave + k := by omega
        obtain ⟨hdepth, hframes⟩ := ih hsteps hcount
        exact ⟨congrArg (· + 1) hdepth, hframes⟩
    · by_cases hleave : step = .leave
      · subst hleave
        obtain ⟨henters, hleaves⟩ := count_concat_leave steps
        have hcount : steps.count .enter = steps.count .leave + (k + 1) := by omega
        obtain ⟨hdepth, hframes⟩ := ih hsteps hcount
        unfold Scopes.depth at hdepth
        refine ⟨?_, ?_⟩
        · simp [Tracked.step, Scopes.leave, Scopes.depth, hdepth]
        · rw [← hframes]
          simp [Tracked.step, Scopes.leave]
      · obtain ⟨henters, hleaves⟩ := count_concat_of_ne steps henter hleave
        have hcount : steps.count .enter = steps.count .leave + k := by omega
        obtain ⟨hdepth, hframes⟩ := ih hsteps hcount
        obtain ⟨hdepth', htail⟩ := tail_frames_step later henter hleave
        refine ⟨hdepth'.trans hdepth, ?_⟩
        rw [← List.drop_tail, htail, List.drop_tail, hframes]

/-- What the steps have led to, told from the steps alone. -/
structure Explains (history : History) (now : Tracked) : Prop where
  /-- As many scopes are open as were entered and left by no later step. -/
  depth : now.scopes.depth = (opened history).length
  /-- Of every open scope, innermost first, the frame tells what was done while it was innermost. -/
  frames : List.Forall₂ Tells now.scopes.frames (opened history)
  /-- Exactly a name that the innermost scope holds cannot be declared. -/
  declare_eq_error_iff : ∀ name d, now.scopes.declare name = .error d ↔
    (∃ since ∈ (opened history).head?, Names since name.text) ∧
      d = name.diagnostic (.variableAlreadyDeclared name.text)
  /-- A declaration that is rejected changes nothing. -/
  step_rejected : ∀ name d, now.scopes.declare name = .error d →
    now.step (.declare name) = now
  /-- Outside all scopes names are not tracked. -/
  untracked : opened history = [] → ∀ (token : Token) (name : String),
    now.scopes.declare token = .ok now.scopes ∧ now.scopes.define name = now.scopes
  /-- A reference finds the first scope that holds its name. -/
  resolved_iff : ∀ id name bindings distance,
    (now.scopes.resolveReference id name bindings).1 = some distance ↔
      FirstNaming (opened history) name distance
  /-- It finds none if no scope holds the name. -/
  unresolved_iff : ∀ id name bindings,
    (now.scopes.resolveReference id name bindings).1 = none ↔
      ∀ since ∈ opened history, ¬ Names since name
  /-- What is found is recorded for the reference, and nothing else changes. -/
  get?_resolved : ∀ id name bindings distance,
    (now.scopes.resolveReference id name bindings).1 = some distance →
      ∀ other, (now.scopes.resolveReference id name bindings).2.get? other =
        if other = id then some distance else bindings.get? other
  /-- If nothing is found, nothing is recorded. -/
  bindings_unresolved : ∀ id name bindings,
    (now.scopes.resolveReference id name bindings).1 = none →
      (now.scopes.resolveReference id name bindings).2 = bindings
  /-- Looking up a reference leaves the scopes as they are. -/
  scopes_resolve : ∀ id name, (now.step (.resolve id name)).scopes = now.scopes
  /-- A number is bound to what was recorded for it last. -/
  bindings : ∀ id distance,
    now.bindings.get? id = some distance ↔ LastRecorded history id distance
  /-- Steps that leave as many scopes as they enter, and none that was open before, leave the scopes
  below the innermost as they are. -/
  balanced : ∀ steps, Keeps steps → Balanced steps →
    (run (history ++ steps)).scopes.depth = now.scopes.depth ∧
      (run (history ++ steps)).scopes.frames.tail = now.scopes.frames.tail
  /-- In a scope of their own such steps leave all scopes as they are. -/
  enclosed : ∀ steps, Keeps steps → Balanced steps →
    (run (history ++ .enter :: (steps ++ [.leave]))).scopes = now.scopes

theorem run_append (history steps : History) :
    run (history ++ steps) = steps.foldl Tracked.step (run history) := List.foldl_append

theorem scopes_enclosed (now : Tracked) {steps : History} (hkeeps : Keeps steps)
    (hbalanced : Balanced steps) :
    ((ScopeStep.enter :: (steps ++ [.leave])).foldl Tracked.step now).scopes = now.scopes := by
  have hcount : steps.count .enter = steps.count .leave + 0 := hbalanced
  have htail := (frames_foldl_of_keeps (now.step .enter) hkeeps hcount).2
  rw [Nat.zero_add, List.drop_one] at htail
  rw [List.foldl_cons, List.foldl_append]
  exact congrArg Scopes.mk htail

/-- A declaration that is rejected leaves all as it is. -/
theorem step_eq_of_declare_eq_error {now : Tracked} {name : Token} {d : Diagnostic}
    (h : now.scopes.declare name = .error d) : now.step (.declare name) = now := by
  rw [Scopes.declare] at h
  split at h
  · cases h
  · next hanswer => rw [Tracked.step, hanswer, Scopes.eq_of_tryDeclare_eq_error hanswer]

/-- Whatever steps are made, what they lead to is told by the steps. -/
theorem explains_run (history : History) : Explains history (run history) where
  depth := (forall₂_tells history).length_eq
  frames := forall₂_tells history
  declare_eq_error_iff := declare_eq_error_iff (forall₂_tells history)
  step_rejected _ _ h := step_eq_of_declare_eq_error h
  untracked hnone token name := by
    have hframes := forall₂_tells history
    rw [hnone] at hframes
    have hempty : (run history).scopes = .empty :=
      congrArg Scopes.mk (List.forall₂_nil_right_iff.1 hframes)
    rw [hempty]
    exact ⟨rfl, rfl⟩
  resolved_iff id name bindings distance := by
    rw [fst_resolveReference, distance?_eq_some_iff (forall₂_tells history)]
  unresolved_iff id name bindings := by
    rw [fst_resolveReference, distance?_eq_none_iff (forall₂_tells history)]
  get?_resolved id name bindings distance h other := by
    rw [fst_resolveReference] at h
    simp [Scopes.resolveReference, h]
  bindings_unresolved id name bindings h := by
    rw [fst_resolveReference] at h
    simp [Scopes.resolveReference, h]
  scopes_resolve _ _ := rfl
  bindings := get?_eq_some_iff_lastRecorded history
  balanced steps hkeeps hbalanced := by
    have hcount : steps.count .enter = steps.count .leave + 0 := hbalanced
    rw [run_append]
    simpa using frames_foldl_of_keeps (run history) hkeeps hcount
  enclosed steps hkeeps hbalanced := by
    rw [run_append]
    exact scopes_enclosed (run history) hkeeps hbalanced

/-- The name `a` where it is declared. -/
def shadowedName : Token := ⟨.identifier, "a", none, default⟩

/-- A scope is left before any was entered, a name is declared again after it was defined, and the
same name is declared in a scope inside; from a scope further in, which is left, it is looked up. -/
def shadowing : History :=
  [.leave, .enter, .declare shadowedName, .define "a", .declare shadowedName, .enter,
    .declare shadowedName, .enter, .resolve 7 "a", .leave]

/-- Two scopes are left open. The inner one holds the name as declared, the outer one as defined,
it cannot be declared again, it is found in the inner one, and what was looked up is one scope
out. -/
theorem explains_run_shadowing : (run shadowing).scopes.depth = 2 ∧
    (∃ inner outer, opened shadowing = [inner, outer] ∧ Declares inner "a" ∧
      ¬ Defines inner "a" ∧ Defines outer "a") ∧
    (run shadowing).scopes.declare shadowedName =
      .error (shadowedName.diagnostic (.variableAlreadyDeclared "a")) ∧
    FirstNaming (opened shadowing) "a" 0 ∧ LastRecorded shadowing 7 1 ∧
    (run (shadowing ++ [.define "b", .enter, .define "a", .leave])).scopes.frames.tail =
      (run shadowing).scopes.frames.tail := by
  have h := explains_run shadowing
  have hframes := h.frames
  have hrun : (run shadowing).scopes.frames =
      [[("a", .declared)], [("a", .defined), ("a", .declared)]] := by decide
  rw [hrun] at hframes
  refine ⟨by decide, ?_, by decide, (h.resolved_iff 7 "a" .empty 0).1 (by decide),
    (h.bindings 7 1).1 (by decide),
    (h.balanced [.define "b", .enter, .define "a", .leave] (by decide) (by decide)).2⟩
  generalize opened shadowing = scopes at hframes
  cases hframes with
  | @cons _ inner _ _ hinner hrest =>
    cases hrest with
    | @cons _ outer _ _ houter hnone =>
      cases hnone
      obtain ⟨hdeclares, hnot⟩ := (hinner.declared_iff "a").1 rfl
      exact ⟨inner, outer, rfl, hdeclares, hnot, (houter.defined_iff "a").1 rfl⟩

end History
end LexicalScoping
