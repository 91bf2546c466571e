import LexicalScoping.Diagnostic.Basic

/-!
# The log of a run

Reading and resolving a program leave a log. An event is data; how important it is and how it is
worded are functions of it.
-/
namespace LexicalScoping

/-- Something that happened in a run. -/
inductive Event
  | tokenized (tokens : Nat) (file : String)
  | parsed (statements references : Nat)
  | resolving (statements : Nat)
  /-- A scope was opened; so many are open now. -/
  | entered (depth : Nat)
  /-- A scope was closed; so many are open now. -/
  | left (depth : Nat)
  | reported (diagnostic : Diagnostic)
  | bound (id : Nat) (name : String) (distance : Nat)
  | finished (locals diagnostics : Nat)
deriving DecidableEq, Repr

/-- How important an event is. -/
inductive Level
  | trace
  | debug
  | info
deriving DecidableEq, Repr

/-- The number of a reference as a reader sees it. -/
def referenceText (id : Nat) : String := "#" ++ toString id

namespace Event

def level : Event → Level
  | bound _ _ _ => .trace
  | finished _ _ => .info
  | _ => .debug

def message : Event → String
  | tokenized _ _ => "tokenized source"
  | parsed _ _ => "parsed program"
  | resolving _ => "resolving program"
  | entered _ => "entered scope"
  | left _ => "left scope"
  | reported _ => "resolver diagnostic"
  | bound _ _ _ => "resolved local"
  | finished _ _ => "resolution finished"

/-- The details of an event, in order, each with its name. -/
def fields : Event → List (String × String)
  | tokenized tokens file => [("tokens", toString tokens), ("file", file)]
  | parsed statements references =>
    [("statements", toString statements), ("expressions", toString references)]
  | resolving statements => [("statements", toString statements)]
  | entered depth => [("depth", toString depth)]
  | left depth => [("depth", toString depth)]
  | reported diagnostic => [("error", diagnostic.display)]
  | bound id name distance =>
    [("id", referenceText id), ("name", name), ("distance", toString distance)]
  | finished locals diagnostics =>
    [("locals", toString locals), ("diagnostics", toString diagnostics)]

end Event
end LexicalScoping
