import LexicalScoping.Diagnostic.Basic
import LexicalScoping.Scope.Bindings

/-!
# Scopes

The open scopes are a stack of frames, innermost first. A frame says of each of its names whether it
is only declared or can be read already. Outside all scopes names are not tracked, so declaring and
defining them does nothing there.
-/
namespace LexicalScoping

/-- How far the declaration of a name has come. -/
inductive Readiness
  /-- Its initial value is still being read. -/
  | declared
  | defined
deriving DecidableEq, Repr, Inhabited

/-- The names of one scope, the latest entry of a name first. -/
abbrev Frame : Type := List (String × Readiness)

namespace Frame

def state? (frame : Frame) (name : String) : Option Readiness := List.lookup name frame

def holds (frame : Frame) (name : String) : Bool := (frame.state? name).isSome

/-- Sets how far a name has come. -/
def set (frame : Frame) (name : String) (state : Readiness) : Frame := (name, state) :: frame

@[simp] theorem state?_set (frame : Frame) (name : String) (state : Readiness) (other : String) :
    (frame.set name state).state? other =
      if other = name then some state else frame.state? other :=
  lookup_cons_eq_ite other (name, state) frame

@[simp] theorem holds_set (frame : Frame) (name : String) (state : Readiness) (other : String) :
    (frame.set name state).holds other = (decide (other = name) || frame.holds other) := by
  by_cases h : other = name <;> simp [holds, h]

end Frame

/-- The open scopes, innermost first. -/
structure Scopes where
  frames : List Frame
deriving DecidableEq, Repr, Inhabited

namespace Scopes

/-- No open scope. -/
def empty : Scopes := ⟨[]⟩

def depth (scopes : Scopes) : Nat := scopes.frames.length

/-- Opens a scope. -/
def enter (scopes : Scopes) : Scopes := ⟨[] :: scopes.frames⟩

/-- Closes the innermost scope, if any is open. -/
def leave (scopes : Scopes) : Scopes := ⟨scopes.frames.tail⟩

/-- How far a name of the innermost scope has come. -/
def stateInnermost? (scopes : Scopes) (name : String) : Option Readiness :=
  scopes.frames.head?.bind (·.state? name)

/-- Declares a name in the innermost scope. A name that is there already stays as it is, and the
declaration is rejected. Either way the scopes are left that there are then. -/
def tryDeclare (scopes : Scopes) (name : Token) : Except Diagnostic Unit × Scopes :=
  match scopes.frames with
  | [] => (.ok (), scopes)
  | frame :: outer =>
    if frame.holds name.text then
      (.error (name.diagnostic (.variableAlreadyDeclared name.text)), scopes)
    else (.ok (), ⟨frame.set name.text .declared :: outer⟩)

/-- The scopes with the name declared, or why it is not. -/
def declare (scopes : Scopes) (name : Token) : Except Diagnostic Scopes :=
  match scopes.tryDeclare name with
  | (.ok (), left) => .ok left
  | (.error diagnostic, _) => .error diagnostic

theorem tryDeclare_of_holds {frame : Frame} {name : Token} (outer : List Frame)
    (h : frame.holds name.text) : (⟨frame :: outer⟩ : Scopes).tryDeclare name =
      (.error (name.diagnostic (.variableAlreadyDeclared name.text)), ⟨frame :: outer⟩) :=
  if_pos h

theorem tryDeclare_of_not_holds {frame : Frame} {name : Token} (outer : List Frame)
    (h : ¬ frame.holds name.text) : (⟨frame :: outer⟩ : Scopes).tryDeclare name =
      (.ok (), ⟨frame.set name.text .declared :: outer⟩) :=
  if_neg h

/-- A declaration that is rejected leaves the scopes as they were. -/
theorem eq_of_tryDeclare_eq_error {scopes left : Scopes} {name : Token} {d : Diagnostic}
    (h : scopes.tryDeclare name = (.error d, left)) : left = scopes := by
  unfold tryDeclare at h
  split at h
  · cases h
  · split at h <;> cases h
    rfl

/-- Makes a name of the innermost scope readable. -/
def define (scopes : Scopes) (name : String) : Scopes :=
  match scopes.frames with
  | [] => scopes
  | frame :: outer => ⟨frame.set name .defined :: outer⟩

/-- How many scopes lie between the innermost and the first that holds the name. -/
def distance? (scopes : Scopes) (name : String) : Option Nat :=
  scopes.frames.findIdx? (·.holds name)

/-- Records how far out a reference finds its name, unless no scope holds it. -/
def resolveReference (scopes : Scopes) (id : Nat) (name : String) (bindings : Bindings) :
    Option Nat × Bindings :=
  match scopes.distance? name with
  | some distance => (some distance, bindings.insert id distance)
  | none => (none, bindings)

end Scopes
end LexicalScoping
