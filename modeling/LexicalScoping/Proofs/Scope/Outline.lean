import LexicalScoping.Grammar.Statement
import LexicalScoping.Scope.Resolve

/-!
# The scopes of a program

Of a program only three things matter for where its names are found: which names are declared,
which are used, and what is a scope of its own. The outline of a program lists them in the order of
the text, with the target of an assignment behind its value. `Encloses` reads off the outline which
scopes lie around a use and which names each of them holds there: those declared directly in it,
before the use or before the inner scope that the use is in.
-/
namespace LexicalScoping

/-- A use of a name. An exempt use is one that is not looked up. -/
structure Use where
  id : Nat
  name : String
  exempt : Bool
deriving DecidableEq, Repr

/-- What matters about a piece of a program. -/
inductive Outline
  | declares (name : String)
  | uses (use : Use)
  | scope (body : List Outline)

mutual

/-- The uses in an expression. Outside of every class `self` is exempt, and where nothing is looked
up, everything is. -/
def Expr.uses (inClass exempt : Bool) : Expr → List Use
  | .literal _ _ => []
  | .read target => [⟨target.id, target.name.text, exempt⟩]
  | .assign target value _ => value.uses inClass exempt ++ [⟨target.id, target.name.text, exempt⟩]
  | .binary _ left _ right _ => left.uses inClass exempt ++ right.uses inClass exempt
  | .unary _ operand _ => operand.uses inClass exempt
  | .grouping content _ => content.uses inClass exempt
  | .conditional condition thenBranch elseBranch _ =>
    condition.uses inClass exempt ++
      (thenBranch.uses inClass exempt ++ elseBranch.uses inClass exempt)
  | .call callee arguments _ => callee.uses inClass exempt ++ Expr.usesAll inClass exempt arguments
  | .get object _ _ => object.uses inClass exempt
  | .set object _ value _ => object.uses inClass exempt ++ value.uses inClass exempt
  | .superMethod id _ _ _ => [⟨id, superName, exempt⟩]
  | .selfRef id _ => [⟨id, selfName, exempt || !inClass⟩]

/-- The uses in expressions in order. -/
def Expr.usesAll (inClass exempt : Bool) : List Expr → List Use
  | [] => []
  | e :: rest => e.uses inClass exempt ++ Expr.usesAll inClass exempt rest

end

mutual

/-- Where nothing is looked up, every use is exempt. -/
theorem Expr.exempt_of_mem_uses {inClass : Bool} {use : Use} :
    ∀ e : Expr, use ∈ e.uses inClass true → use.exempt
  | .literal _ _, h => nomatch h
  | .read _, h => by simp [List.mem_singleton.1 h]
  | .assign _ value _, h => by
    rcases List.mem_append.1 h with h | h
    · exact exempt_of_mem_uses value h
    · simp [List.mem_singleton.1 h]
  | .binary _ left _ right _, h =>
    (List.mem_append.1 h).elim (exempt_of_mem_uses left) (exempt_of_mem_uses right)
  | .unary _ operand _, h => exempt_of_mem_uses operand h
  | .grouping content _, h => exempt_of_mem_uses content h
  | .conditional condition thenBranch elseBranch _, h =>
    (List.mem_append.1 h).elim (exempt_of_mem_uses condition) fun h =>
      (List.mem_append.1 h).elim (exempt_of_mem_uses thenBranch) (exempt_of_mem_uses elseBranch)
  | .call callee arguments _, h =>
    (List.mem_append.1 h).elim (exempt_of_mem_uses callee) (exempt_of_mem_usesAll arguments)
  | .get object _ _, h => exempt_of_mem_uses object h
  | .set object _ value _, h =>
    (List.mem_append.1 h).elim (exempt_of_mem_uses object) (exempt_of_mem_uses value)
  | .superMethod _ _ _ _, h => by simp [List.mem_singleton.1 h]
  | .selfRef _ _, h => by simp [List.mem_singleton.1 h]

theorem Expr.exempt_of_mem_usesAll {inClass : Bool} {use : Use} :
    ∀ list : List Expr, use ∈ Expr.usesAll inClass true list → use.exempt
  | [], h => nomatch h
  | e :: rest, h =>
    (List.mem_append.1 h).elim (exempt_of_mem_uses e) (exempt_of_mem_usesAll rest)

end

/-- The outline of an expression in which names are looked up. -/
def Expr.outline (inClass : Bool) (e : Expr) : List Outline := (e.uses inClass false).map .uses

def Expr.outline? (inClass : Bool) : Option Expr → List Outline
  | none => []
  | some e => e.outline inClass

/-- A variable is declared before its initial value. -/
def LetDecl.outline (inClass : Bool) (declaration : LetDecl) : List Outline :=
  .declares declaration.name.text :: Expr.outline? inClass declaration.value

/-- The first clause of a `for` is no scope of its own. -/
def ForStart.outline (inClass : Bool) : Option ForStart → List Outline
  | none => []
  | some (.declare declaration) => declaration.outline inClass
  | some (.evaluate e _) => e.outline inClass

/-- In the value of a `return` outside of every function nothing is looked up. -/
def returnOutline (inFunction inClass : Bool) : Option Expr → List Outline
  | none => []
  | some e => (e.uses inClass (!inFunction)).map .uses

/-- The superclass is used after the class is declared and outside of its scopes. -/
def superclassOutline : Option Reference → List Outline
  | none => []
  | some parent => [.uses ⟨parent.id, parent.name.text, false⟩]

/-- The scopes of a class around its methods: one that holds `self` and, if there is a superclass,
one around it that holds `super`. -/
def classScopes (superclass : Option Reference) (methods : List Outline) : Outline :=
  match superclass with
  | none => .scope (.declares selfName :: methods)
  | some _ => .scope [.declares superName, .scope (.declares selfName :: methods)]

mutual

/-- The outline of a statement, by whether it is in a function and in a class. A body without
brackets is no scope of its own. -/
def Stmt.outline (inFunction inClass : Bool) : Stmt → List Outline
  | .block body _ => [.scope (Stmt.outlines inFunction inClass body)]
  | .letDecl declaration => declaration.outline inClass
  | .expression e _ => e.outline inClass
  | .print e _ => e.outline inClass
  | .ifElse condition thenBody none _ =>
    condition.outline inClass ++ thenBody.outline inFunction inClass
  | .ifElse condition thenBody (some elseBody) _ =>
    condition.outline inClass ++
      (thenBody.outline inFunction inClass ++ elseBody.outline inFunction inClass)
  | .whileLoop condition body _ => condition.outline inClass ++ body.outline inFunction inClass
  | .doWhile body condition _ => body.outline inFunction inClass ++ condition.outline inClass
  | .forLoop start condition increment body _ =>
    ForStart.outline inClass start ++ (Expr.outline? inClass condition ++
      (Expr.outline? inClass increment ++ body.outline inFunction inClass))
  | .switch subject arms _ =>
    subject.outline inClass ++ Case.outlines inFunction inClass arms
  | .breakLoop _ => []
  | .continueLoop _ => []
  | .returnValue _ value _ => returnOutline inFunction inClass value
  | .function declaration => [.declares declaration.name.text, declaration.outline inClass]
  | .classDecl name superclass methods _ =>
    .declares name.text :: (superclassOutline superclass ++
      [classScopes superclass (Function.outlines methods)])

def Stmt.outlines (inFunction inClass : Bool) : List Stmt → List Outline
  | [] => []
  | s :: rest => s.outline inFunction inClass ++ Stmt.outlines inFunction inClass rest

/-- Each arm of a `switch` is a scope, without the value that it stands for. -/
def Case.outlines (inFunction inClass : Bool) : List Case → List Outline
  | [] => []
  | .mk value body _ :: rest =>
    Expr.outline? inClass value ++ .scope (Stmt.outlines inFunction inClass body) ::
      Case.outlines inFunction inClass rest

/-- A function is a scope with its parameters and what its body declares. Its name is declared
outside of it, if at all. -/
def Function.outline (inClass : Bool) : Function → Outline
  | .mk _ parameters body _ =>
    .scope (parameters.map (fun parameter => .declares parameter.text) ++
      Stmt.outlines true inClass body)

/-- The methods of a class. -/
def Function.outlines : List Function → List Outline
  | [] => []
  | f :: rest => f.outline true :: Function.outlines rest

end

/-- The outline of a whole program. -/
def Program.outline (program : Program) : List Outline :=
  Stmt.outlines false false program.statements

namespace Outline

/-- The names declared directly in a piece of a program, not in scopes inside it. -/
def declared : List Outline → List String
  | [] => []
  | .declares name :: rest => name :: declared rest
  | .uses _ :: rest => declared rest
  | .scope _ :: rest => declared rest

mutual

/-- The uses in a piece of a program, in order. -/
def allUses : Outline → List Use
  | .declares _ => []
  | .uses use => [use]
  | .scope body => allUsesIn body

def allUsesIn : List Outline → List Use
  | [] => []
  | piece :: rest => piece.allUses ++ allUsesIn rest

end

/-- `Encloses list use scopes own` says where the use stands in the list: the scopes that lie around
it inside the list, innermost first, each with the names that it holds there, and the names that the
list itself has declared before. -/
inductive Encloses : List Outline → Use → List (List String) → List String → Prop
  | here (before : List Outline) (use : Use) (after : List Outline) :
      Encloses (before ++ .uses use :: after) use [] (declared before)
  | inside (before : List Outline) {body : List Outline} (after : List Outline) {use : Use}
      {scopes : List (List String)} {own : List String} (encloses : Encloses body use scopes own) :
      Encloses (before ++ .scope body :: after) use (scopes ++ [own]) (declared before)

theorem declared_append (front back : List Outline) :
    declared (front ++ back) = declared front ++ declared back := by
  induction front with
  | nil => rfl
  | cons piece front ih => cases piece <;> simp [declared, ih]

theorem allUsesIn_append (front back : List Outline) :
    allUsesIn (front ++ back) = allUsesIn front ++ allUsesIn back := by
  induction front with
  | nil => rfl
  | cons piece front ih => simp [allUsesIn, ih]

theorem allUsesIn_map_uses (list : List Use) : allUsesIn (list.map .uses) = list := by
  induction list with
  | nil => rfl
  | cons use list ih => simp [allUsesIn, allUses, ih]

/-- What encloses a use in the rest of a list encloses it in the whole list. -/
theorem Encloses.cons {piece : Outline} {rest : List Outline} {use : Use}
    {scopes : List (List String)} {own : List String} (h : Encloses rest use scopes own) :
    Encloses (piece :: rest) use scopes (declared [piece] ++ own) := by
  cases h with
  | here before use after =>
    rw [← declared_append]
    exact .here ([piece] ++ before) use after
  | inside before after encloses =>
    rw [← declared_append]
    exact .inside ([piece] ++ before) after encloses

mutual

theorem exists_encloses_cons (rest : List Outline) {use : Use} :
    ∀ piece : Outline, use ∈ piece.allUses → ∃ scopes own, Encloses (piece :: rest) use scopes own
  | .declares _, h => nomatch h
  | .uses other, h => by
    obtain rfl := List.mem_singleton.1 h
    exact ⟨_, _, .here [] _ rest⟩
  | .scope body, h => by
    obtain ⟨scopes, own, henc⟩ := exists_encloses body h
    exact ⟨_, _, .inside [] rest henc⟩

/-- Every use stands somewhere. -/
theorem exists_encloses {use : Use} :
    ∀ list : List Outline, use ∈ allUsesIn list → ∃ scopes own, Encloses list use scopes own
  | [], h => nomatch h
  | piece :: rest, h => by
    rcases List.mem_append.1 h with h | h
    · exact exists_encloses_cons rest piece h
    · obtain ⟨scopes, own, henc⟩ := exists_encloses rest h
      exact ⟨_, _, henc.cons⟩

end

theorem Encloses.mem_allUsesIn {list : List Outline} {use : Use} {scopes : List (List String)}
    {own : List String} (h : Encloses list use scopes own) : use ∈ allUsesIn list := by
  induction h with
  | here before use after => simp [allUsesIn_append, allUsesIn, allUses]
  | inside before after _ ih => simp [allUsesIn_append, allUsesIn, allUses, ih]

end Outline
end LexicalScoping
