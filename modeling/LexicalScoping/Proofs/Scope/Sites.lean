import LexicalScoping.Proofs.Scope.Lookup
import LexicalScoping.Proofs.Scope.Pieces

/-!
# What a program is blamed for

Everything that resolution can find fault with stands at a site: a name that is declared, a keyword,
or a mention in an expression. A site knows what stands before it and which constructs lie around
it, each with what stands before the construct. Which fault there is follows from these surroundings
alone: `declarationCause?` asks what has been declared before in the scope that the site is directly
in, `keywordCause?` asks for the innermost construct of a kind. No state of any walk occurs here.
-/
namespace LexicalScoping

/-- What a mention is there for. -/
inductive Role
  | evaluated
  /-- To make the value of a variable or a class of that name, which is being declared. -/
  | initial (name : Token)
  /-- To make the value that a `return` gives. -/
  | returned
deriving DecidableEq

/-- What can be at fault. -/
inductive Subject
  | declares (name : Token)
  | mentions (mention : Mention) (role : Role)
  | breaks (keyword : Token)
  | continues (keyword : Token)
  | returns (keyword : Token) (hasValue : Bool)
deriving DecidableEq

/-- The token that a diagnostic about the subject stands at. -/
def Subject.token : Subject → Token
  | declares name => name
  | mentions mention _ => mention.token
  | breaks keyword => keyword
  | continues keyword => keyword
  | returns keyword _ => keyword

/-- The subject is part of the value of a `return`. -/
def Subject.isReturned : Subject → Bool
  | mentions _ .returned => true
  | _ => false

/-- A construct around a site, with the pieces that stand before it in the construct around it or
in the program. -/
structure Layer where
  construct : Construct
  before : List Piece

/-- A subject with the pieces that stand before it in the construct that it is directly in, and the
constructs around it, innermost first. -/
structure Site where
  subject : Subject
  before : List Piece
  around : List Layer

mutual

/-- The names that a piece puts into the scope that it is directly in. -/
def Piece.held : Piece → List String
  | .declares name _ => [name.text]
  | .provides name => [name]
  | .within construct body => if construct.opensScope then [] else Piece.heldIn body
  | _ => []

def Piece.heldIn : List Piece → List String
  | [] => []
  | piece :: rest => piece.held ++ Piece.heldIn rest

end

theorem Piece.heldIn_append (front back : List Piece) :
    heldIn (front ++ back) = heldIn front ++ heldIn back := by
  induction front with
  | nil => rfl
  | cons piece front ih => simp [heldIn, ih]

/-- The sites of mentions that stand together. -/
def mentionSites (role : Role) (before : List Piece) (around : List Layer) (list : List Mention) :
    List Site := list.map fun mention => ⟨.mentions mention role, before, around⟩

mutual

/-- The sites of a piece, in order. -/
def Piece.sites (before : List Piece) (around : List Layer) : Piece → List Site
  | .declares name value =>
    ⟨.declares name, before, around⟩ :: mentionSites (.initial name) before around value
  | .provides _ => []
  | .mentions list => mentionSites .evaluated before around list
  | .breaks keyword => [⟨.breaks keyword, before, around⟩]
  | .continues keyword => [⟨.continues keyword, before, around⟩]
  | .returns keyword none => [⟨.returns keyword false, before, around⟩]
  | .returns keyword (some value) =>
    ⟨.returns keyword true, before, around⟩ :: mentionSites .returned before around value
  | .within construct body => Piece.sitesIn [] (⟨construct, before⟩ :: around) body

def Piece.sitesIn (before : List Piece) (around : List Layer) : List Piece → List Site
  | [] => []
  | piece :: rest => piece.sites before around ++ Piece.sitesIn (before ++ [piece]) around rest

end

/-- The sites of a program, in order. -/
def Stmt.sites (statements : List Stmt) : List Site :=
  Piece.sitesIn [] [] (Stmt.piecesAll statements)

namespace Construct

/-- A construct that `break` and `continue` are for. -/
def isLoop : Construct → Bool
  | loop => true
  | switch => true
  | _ => false

def isFunction : Construct → Bool
  | function => true
  | method _ => true
  | _ => false

def isClass : Construct → Bool
  | classBody _ => true
  | _ => false

end Construct

namespace Site

/-- The names that the scopes around a place hold there, innermost first. A construct that is no
scope adds to the scope around it. -/
def scopes (before : List Piece) : List Layer → List (List String)
  | [] => []
  | ⟨construct, outside⟩ :: around =>
    if construct.opensScope then Piece.heldIn before :: scopes outside around
    else Sight.extend (Piece.heldIn before) (scopes outside around)

/-- What the scope that the site is directly in holds before it. There is nothing outside of all
scopes. -/
def held? (site : Site) : Option (List String) := (scopes site.before site.around).head?

/-- The name has been declared before in the scope that the site is directly in. -/
def Redeclares (site : Site) (name : String) : Prop := ∃ names ∈ site.held?, name ∈ names

/-- The site is directly in a scope in which the name has not been declared before. -/
def DeclaresFirst (site : Site) (name : String) : Prop := ∃ names ∈ site.held?, name ∉ names

instance (site : Site) (name : String) : Decidable (site.Redeclares name) :=
  inferInstanceAs (Decidable (∃ names ∈ site.held?, name ∈ names))

instance (site : Site) (name : String) : Decidable (site.DeclaresFirst name) :=
  inferInstanceAs (Decidable (∃ names ∈ site.held?, name ∉ names))

/-- The constructs around the site, innermost first. -/
def constructs (site : Site) : List Construct := site.around.map Layer.construct

/-- The site is in the body of a loop or in an arm of a `switch`. -/
def InLoop (site : Site) : Prop := ∃ construct ∈ site.constructs, construct.isLoop

instance (site : Site) : Decidable site.InLoop :=
  inferInstanceAs (Decidable (∃ construct ∈ site.constructs, construct.isLoop))

/-- The innermost function or method around the site. -/
def function? (site : Site) : Option Construct := site.constructs.find? Construct.isFunction

/-- The innermost class around the site. -/
def class? (site : Site) : Option Construct := site.constructs.find? Construct.isClass

/-- The site is in the value of a `return` that no function is around. -/
def Unreached (site : Site) : Prop := site.subject.isReturned ∧ site.function? = none

instance (site : Site) : Decidable site.Unreached :=
  inferInstanceAs (Decidable (site.subject.isReturned ∧ site.function? = none))

/-- The declaration is one too many, or the mention reads the name that it helps to declare. -/
def declarationCause? (site : Site) : Option Cause :=
  match site.subject with
  | .declares name =>
    if site.Redeclares name.text then some (.variableAlreadyDeclared name.text) else none
  | .mentions (.reads target) (.initial name) =>
    if target.name.text = name.text ∧ site.DeclaresFirst name.text then
      some (.readInOwnInitializer target.name.text)
    else none
  | _ => none

/-- The keyword is not allowed where it stands. What is never reached may stand anywhere. -/
def keywordCause? (site : Site) : Option Cause :=
  if site.Unreached then none
  else
    match site.subject with
    | .breaks _ => if site.InLoop then none else some .breakOutsideLoop
    | .continues _ => if site.InLoop then none else some .continueOutsideLoop
    | .returns _ hasValue =>
      match site.function? with
      | none => some .returnOutsideFunction
      | some (.method name) =>
        if hasValue ∧ name.text = initializerName then some .returnValueFromInitializer else none
      | some _ => none
    | .mentions (.selfRef _ _) _ =>
      match site.class? with
      | none => some .selfOutsideClass
      | some _ => none
    | .mentions (.superRef _ _) _ =>
      match site.class? with
      | none => some .superOutsideClass
      | some (.classBody false) => some .superWithoutSuperclass
      | some _ => none
    | _ => none

/-- What is wrong at the site, if anything is. -/
def diagnostic? (site : Site) : Option Diagnostic :=
  (site.declarationCause? <|> site.keywordCause?).map site.subject.token.diagnostic

end Site
end LexicalScoping
