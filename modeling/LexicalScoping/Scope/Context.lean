/-!
# What surrounds a statement

Some statements and expressions are only allowed in certain places. The context records the
innermost function, class and loop around a place; a construct passes a changed copy to what is
inside it.
-/
namespace LexicalScoping

/-- The innermost function around a place. -/
inductive FunctionKind
  | none
  | function
  | method
  | initializer
deriving DecidableEq, Repr, Inhabited

/-- The innermost class around a place. -/
inductive ClassKind
  | none
  | plain
  | subclass
deriving DecidableEq, Repr, Inhabited

/-- The innermost construct around a place that `break` and `continue` are for. -/
inductive LoopKind
  | none
  | loop
  | switch
deriving DecidableEq, Repr, Inhabited

/-- The surroundings of a place. -/
structure Context where
  function : FunctionKind
  classKind : ClassKind
  loop : LoopKind
deriving DecidableEq, Repr

namespace Context

/-- Outside of everything. -/
def topLevel : Context := ⟨.none, .none, .none⟩

instance : Inhabited Context := ⟨topLevel⟩

def inFunction (context : Context) (kind : FunctionKind) : Context :=
  { context with function := kind }

def inClass (context : Context) (kind : ClassKind) : Context := { context with classKind := kind }

def inLoop (context : Context) (kind : LoopKind) : Context := { context with loop := kind }

end Context
end LexicalScoping
