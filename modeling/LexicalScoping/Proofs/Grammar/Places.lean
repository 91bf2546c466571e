import LexicalScoping.Grammar.Parse
import LexicalScoping.Proofs.Grammar.Spelling

/-!
# Where the nodes of a tree stand

Every statement and expression of a tree has a place: how many levels are open in it, how many
nodes on the path down to it share the level of the node above them, and how many tokens come
before it. Most nodes are one level inside the node above them. An operand on the left of its
operator, what is called or has a property read or set, and the condition of a conditional
expression share the level of the expression that they begin, and the first clause of a `for` shares
that of its statement.
-/
namespace LexicalScoping

/-- Where a node stands. -/
structure Place where
  level : Nat
  shared : Nat
  start : Nat
deriving DecidableEq, Repr

namespace Place

/-- Above the statements of a program. -/
def top : Place := ⟨0, 0, 0⟩

/-- One level inside, so many tokens further on. -/
def inside (place : Place) (offset : Nat) : Place :=
  ⟨place.level + 1, place.shared, place.start + offset⟩

/-- On the same level, so many tokens further on. -/
def sharing (place : Place) (offset : Nat) : Place :=
  ⟨place.level, place.shared + 1, place.start + offset⟩

/-- How many nodes the path down to the node passes through, with the node itself. -/
def depth (place : Place) : Nat := place.level + place.shared

/-- More levels are open than may be. -/
def tooDeep (place : Place) : Bool := maxNesting < place.level

end Place

mutual

/-- The places of an expression and of all expressions in it, in source order. -/
def Expr.places (place : Place) : Expr → List Place
  | .literal _ _ => [place]
  | .read _ => [place]
  | .assign _ value _ => place :: value.places (place.inside 2)
  | .binary _ left _ right _ =>
    place :: (left.places (place.sharing 0) ++
      right.places (place.inside (left.spelling.length + 1)))
  | .unary _ operand _ => place :: operand.places (place.inside 1)
  | .grouping content _ => place :: content.places (place.inside 1)
  | .conditional condition thenBranch elseBranch _ =>
    place :: (condition.places (place.sharing 0) ++
      (thenBranch.places (place.inside (condition.spelling.length + 1)) ++
        elseBranch.places (place.inside
          (condition.spelling.length + 1 + thenBranch.spelling.length + 1))))
  | .call callee arguments _ =>
    place :: (callee.places (place.sharing 0) ++
      Expr.placesAll place (callee.spelling.length + 1) arguments)
  | .get object _ _ => place :: object.places (place.sharing 0)
  | .set object _ value _ =>
    place :: (object.places (place.sharing 0) ++
      value.places (place.inside (object.spelling.length + 3)))
  | .superMethod _ _ _ _ => [place]
  | .selfRef _ _ => [place]

/-- The places of expressions with a comma between any two. -/
def Expr.placesAll (place : Place) (offset : Nat) : List Expr → List Place
  | [] => []
  | e :: rest =>
    e.places (place.inside offset) ++
      Expr.placesAll place (offset + e.spelling.length + 1) rest

end

/-- An expression has a place and the places of what is in it. -/
theorem Expr.exists_places (place : Place) (e : Expr) :
    ∃ children, e.places place = place :: children := by
  cases e <;> simp [Expr.places]

def Expr.places? (place : Place) : Option Expr → List Place
  | none => []
  | some e => e.places place

/-- The initial value of a variable stands behind the word, the name and the sign. -/
def LetDecl.places (place : Place) (declaration : LetDecl) : List Place :=
  place :: Expr.places? (place.inside 3) declaration.value

def ForStart.places (place : Place) : Option ForStart → List Place
  | none => []
  | some (.declare declaration) => declaration.places place
  | some (.evaluate e _) => place :: e.places (place.inside 0)

mutual

/-- The places of a statement and of all statements and expressions in it, in source order. -/
def Stmt.places (place : Place) : Stmt → List Place
  | .block body _ => place :: Stmt.placesAll place 1 body
  | .letDecl declaration => declaration.places place
  | .expression e _ => place :: e.places (place.inside 0)
  | .print e _ => place :: e.places (place.inside 1)
  | .ifElse condition thenBody none _ =>
    place :: (condition.places (place.inside 2) ++
      thenBody.places (place.inside (1 + (headSpelling condition).length)))
  | .ifElse condition thenBody (some elseBody) _ =>
    place :: (condition.places (place.inside 2) ++
      (thenBody.places (place.inside (1 + (headSpelling condition).length)) ++
        elseBody.places (place.inside
          (1 + (headSpelling condition).length + thenBody.spelling.length + 1))))
  | .whileLoop condition body _ =>
    place :: (condition.places (place.inside 2) ++
      body.places (place.inside (1 + (headSpelling condition).length)))
  | .doWhile body condition _ =>
    place :: (body.places (place.inside 1) ++
      condition.places (place.inside (1 + body.spelling.length + 2)))
  | .forLoop start condition increment body _ =>
    place :: (ForStart.places (place.sharing 2) start ++
      (Expr.places? (place.inside (2 + (ForStart.spelling start).length)) condition ++
        (Expr.places? (place.inside (2 + (ForStart.spelling start).length +
          (Expr.spelling? condition).length + 1)) increment ++
          body.places (place.inside (2 + (ForStart.spelling start).length +
            (Expr.spelling? condition).length + 1 + (Expr.spelling? increment).length + 1)))))
  | .switch subject arms _ =>
    place :: (subject.places (place.inside 2) ++
      Case.placesAll place (1 + (headSpelling subject).length + 1) arms)
  | .breakLoop _ => [place]
  | .continueLoop _ => [place]
  | .returnValue _ value _ => place :: Expr.places? (place.inside 1) value
  | .function declaration => place :: declaration.places place 1
  | .classDecl _ superclass methods _ =>
    place :: Function.placesAll place (2 + (superclassSpelling superclass).length + 1) methods

/-- The places of statements one after the other. -/
def Stmt.placesAll (place : Place) (offset : Nat) : List Stmt → List Place
  | [] => []
  | s :: rest =>
    s.places (place.inside offset) ++ Stmt.placesAll place (offset + s.spelling.length) rest

/-- The places in the arms of a `switch`: the value of an arm stands behind its word. -/
def Case.placesAll (place : Place) (offset : Nat) : List Case → List Place
  | [] => []
  | .mk value body _ :: rest =>
    Expr.places? (place.inside (offset + 1)) value ++
      (Stmt.placesAll place (offset + (armSpelling value).length) body ++
        Case.placesAll place
          (offset + (armSpelling value).length + (Stmt.spellings body).length) rest)

/-- The places in the body of a function, which is no node of its own. -/
def Function.places (place : Place) (offset : Nat) : Function → List Place
  | .mk name parameters body _ =>
    Stmt.placesAll place (offset + (signatureSpelling name parameters).length + 1) body

def Function.placesAll (place : Place) (offset : Nat) : List Function → List Place
  | [] => []
  | f :: rest =>
    f.places place offset ++ Function.placesAll place (offset + f.spelling.length) rest

end

end LexicalScoping
