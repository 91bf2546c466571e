import LexicalScoping.Proofs.Scope.Outline
import LexicalScoping.Proofs.Scope.Sites

/-!
# The outline of the pieces

A program has been given an outline, which is about where names are looked up, and pieces, which are
about what a walk comes to. The outline can be read off the pieces alone (`Stmt.outlines_eq`): it
spreads out what is no scope of its own, forgets which construct a scope belongs to, and says of
each mention whether it is looked up. So the two list the same references in the same order, and a
place among the pieces is a place in the outline.
-/
namespace LexicalScoping

namespace Mention

/-- The mention as a use. Outside of every class `self` is exempt, and where nothing is looked up,
everything is. -/
def use (inClass exempt : Bool) : Mention → Use
  | reads target => ⟨target.id, target.name.text, exempt⟩
  | assigns target => ⟨target.id, target.name.text, exempt⟩
  | selfRef id _ => ⟨id, selfName, exempt || !inClass⟩
  | superRef id _ => ⟨id, superName, exempt⟩

@[simp] theorem id_use (inClass exempt : Bool) (m : Mention) :
    (m.use inClass exempt).id = m.id := by
  cases m <;> rfl

end Mention

/-- The outline of mentions that stand together. -/
def mentionsOutline (inClass exempt : Bool) (list : List Mention) : List Outline :=
  list.map fun m => .uses (m.use inClass exempt)

@[simp] theorem mentionsOutline_append (inClass exempt : Bool) (front back : List Mention) :
    mentionsOutline inClass exempt (front ++ back) =
      mentionsOutline inClass exempt front ++ mentionsOutline inClass exempt back :=
  List.map_append

namespace Piece

mutual

/-- The outline of a piece, by whether it is in a function and in a class. -/
def outline (inFunction inClass : Bool) : Piece → List Outline
  | .declares name value => .declares name.text :: mentionsOutline inClass false value
  | .provides name => [.declares name]
  | .mentions list => mentionsOutline inClass false list
  | .breaks _ => []
  | .continues _ => []
  | .returns _ none => []
  | .returns _ (some value) => mentionsOutline inClass (!inFunction) value
  | .within construct body =>
    let inside := outlineIn (inFunction || construct.isFunction) (inClass || construct.isClass) body
    if construct.opensScope then [.scope inside] else inside

def outlineIn (inFunction inClass : Bool) : List Piece → List Outline
  | [] => []
  | piece :: rest => piece.outline inFunction inClass ++ outlineIn inFunction inClass rest

end

@[simp] theorem outlineIn_append (inFunction inClass : Bool) (front back : List Piece) :
    outlineIn inFunction inClass (front ++ back) =
      outlineIn inFunction inClass front ++ outlineIn inFunction inClass back := by
  induction front with
  | nil => rfl
  | cons piece front ih => simp [outlineIn, ih]

/-- A piece that is a scope, in front of others. -/
theorem outlineIn_scope {construct : Construct} (hscope : construct.opensScope)
    (inFunction inClass : Bool) (body rest : List Piece) :
    outlineIn inFunction inClass (.within construct body :: rest) =
      .scope (outlineIn (inFunction || construct.isFunction) (inClass || construct.isClass) body) ::
        outlineIn inFunction inClass rest := by
  simp [outlineIn, outline, hscope]

/-- What is no scope of its own is spread out. -/
theorem outlineIn_spread {construct : Construct} (hscope : construct.opensScope = false)
    (inFunction inClass : Bool) (body rest : List Piece) :
    outlineIn inFunction inClass (.within construct body :: rest) =
      outlineIn (inFunction || construct.isFunction) (inClass || construct.isClass) body ++
        outlineIn inFunction inClass rest := by
  simp [outlineIn, outline, hscope]

theorem outlineIn_parameters (inFunction inClass : Bool) (names : List Token) :
    outlineIn inFunction inClass (names.map fun name => .declares name []) =
      names.map fun name => .declares name.text := by
  induction names with
  | nil => rfl
  | cons name names ih => simp [outlineIn, outline, mentionsOutline, ih]

end Piece

open Piece (outlineIn)

mutual

theorem Expr.uses_eq (inClass exempt : Bool) :
    ∀ e : Expr, e.uses inClass exempt = e.mentions.map (Mention.use inClass exempt)
  | .literal _ _ => rfl
  | .read _ => rfl
  | .assign _ value _ => by
    simp only [Expr.uses, Expr.mentions, uses_eq inClass exempt value, List.map_append]
    rfl
  | .binary _ left _ right _ => by
    simp only [Expr.uses, Expr.mentions, uses_eq inClass exempt left,
      uses_eq inClass exempt right, List.map_append]
  | .unary _ operand _ => uses_eq inClass exempt operand
  | .grouping content _ => uses_eq inClass exempt content
  | .conditional condition thenBranch elseBranch _ => by
    simp only [Expr.uses, Expr.mentions, uses_eq inClass exempt condition,
      uses_eq inClass exempt thenBranch, uses_eq inClass exempt elseBranch, List.map_append]
  | .call callee arguments _ => by
    simp only [Expr.uses, Expr.mentions, uses_eq inClass exempt callee,
      usesAll_eq inClass exempt arguments, List.map_append]
  | .get object _ _ => uses_eq inClass exempt object
  | .set object _ value _ => by
    simp only [Expr.uses, Expr.mentions, uses_eq inClass exempt object,
      uses_eq inClass exempt value, List.map_append]
  | .superMethod _ _ _ _ => rfl
  | .selfRef _ _ => rfl

theorem Expr.usesAll_eq (inClass exempt : Bool) : ∀ list : List Expr,
    Expr.usesAll inClass exempt list = (Expr.mentionsAll list).map (Mention.use inClass exempt)
  | [] => rfl
  | e :: rest => by
    simp only [Expr.usesAll, Expr.mentionsAll, uses_eq inClass exempt e,
      usesAll_eq inClass exempt rest, List.map_append]

end

section Parts

variable (inFunction inClass : Bool)

theorem Expr.outline_eq (e : Expr) :
    e.outline inClass = mentionsOutline inClass false e.mentions := by
  rw [Expr.outline, uses_eq, mentionsOutline, List.map_map]
  rfl

theorem Expr.outline?_eq (value : Option Expr) :
    Expr.outline? inClass value = mentionsOutline inClass false (Expr.mentions? value) := by
  cases value with
  | none => rfl
  | some e => exact e.outline_eq inClass

theorem LetDecl.outline_eq (declaration : LetDecl) :
    declaration.outline inClass = declaration.piece.outline inFunction inClass := by
  rw [LetDecl.outline, Expr.outline?_eq]
  rfl

theorem ForStart.outline_eq (start : Option ForStart) :
    ForStart.outline inClass start = outlineIn inFunction inClass (ForStart.pieces start) := by
  rcases start with _ | declaration | ⟨e, span⟩
  · rfl
  · rw [ForStart.outline, LetDecl.outline_eq inFunction]
    exact (List.append_nil _).symm
  · rw [ForStart.outline, Expr.outline_eq]
    exact (List.append_nil _).symm

theorem returnOutline_eq (keyword : Token) (value : Option Expr) :
    returnOutline inFunction inClass value =
      (Piece.returns keyword (value.map Expr.mentions)).outline inFunction inClass := by
  cases value with
  | none => rfl
  | some e =>
    rw [returnOutline, Expr.uses_eq, List.map_map]
    rfl

theorem superclassOutline_eq (parent : Option Reference) :
    superclassOutline parent = mentionsOutline inClass false (superclassMentions parent) := by
  cases parent <;> rfl

/-- The methods of a class are in a class, wherever the class is. -/
theorem classPieces_outline (name : Token) (parent : Option Reference) (methods : List Piece) :
    .declares name.text :: (superclassOutline parent ++
        [classScopes parent (outlineIn inFunction true methods)]) =
      outlineIn inFunction inClass (classPieces name parent methods) := by
  cases parent <;>
    simp [classPieces, superclassOutline_eq inClass, classScopes, outlineIn, Piece.outline,
      Construct.opensScope, Construct.isFunction, Construct.isClass]

end Parts

mutual

theorem Stmt.outline_eq (inFunction inClass : Bool) :
    ∀ s : Stmt, s.outline inFunction inClass = outlineIn inFunction inClass s.pieces
  | .block body _ => by
    rw [Stmt.outline, Stmt.pieces, Piece.outlineIn_scope rfl, Stmt.outlines_eq _ _ body]
    simp only [Construct.isFunction, Construct.isClass, Bool.or_false]
    rfl
  | .letDecl declaration => by
    rw [Stmt.outline, LetDecl.outline_eq inFunction]
    exact (List.append_nil _).symm
  | .expression e _ => by
    rw [Stmt.outline, Expr.outline_eq]
    exact (List.append_nil _).symm
  | .print e _ => by
    rw [Stmt.outline, Expr.outline_eq]
    exact (List.append_nil _).symm
  | .ifElse condition thenBody none _ => by
    rw [Stmt.outline, Expr.outline_eq, Stmt.outline_eq _ _ thenBody]
    rfl
  | .ifElse condition thenBody (some elseBody) _ => by
    rw [Stmt.outline, Expr.outline_eq, Stmt.outline_eq _ _ thenBody, Stmt.outline_eq _ _ elseBody,
      ← Piece.outlineIn_append]
    rfl
  | .whileLoop condition body _ => by
    rw [Stmt.outline, Expr.outline_eq, Stmt.outline_eq _ _ body, Stmt.pieces, outlineIn,
      Piece.outlineIn_spread rfl]
    simp [Construct.isFunction, Construct.isClass, outlineIn, Piece.outline]
  | .doWhile body condition _ => by
    rw [Stmt.outline, Expr.outline_eq, Stmt.outline_eq _ _ body, Stmt.pieces,
      Piece.outlineIn_spread rfl]
    simp [Construct.isFunction, Construct.isClass, outlineIn, Piece.outline]
  | .forLoop start condition increment body _ => by
    rw [Stmt.outline, ForStart.outline_eq inFunction, Expr.outline?_eq, Expr.outline?_eq,
      Stmt.outline_eq _ _ body, Stmt.pieces, Piece.outlineIn_append, outlineIn, outlineIn,
      Piece.outlineIn_spread rfl]
    simp [Construct.isFunction, Construct.isClass, outlineIn, Piece.outline]
  | .switch subject arms _ => by
    rw [Stmt.outline, Expr.outline_eq, Case.outlines_eq _ _ arms, Stmt.pieces, outlineIn,
      Piece.outlineIn_spread rfl]
    simp [Construct.isFunction, Construct.isClass, outlineIn, Piece.outline]
  | .breakLoop _ => rfl
  | .continueLoop _ => rfl
  | .returnValue keyword value _ => by
    rw [Stmt.outline, returnOutline_eq _ _ keyword]
    exact (List.append_nil _).symm
  | .function declaration => by
    rw [Stmt.outline, Function.outline_eq inFunction inClass .function rfl rfl rfl declaration]
    rfl
  | .classDecl name parent methods _ => by
    rw [Stmt.outline, Function.outlines_eq inFunction methods,
      classPieces_outline inFunction inClass]
    rfl

theorem Stmt.outlines_eq (inFunction inClass : Bool) :
    ∀ list : List Stmt,
      Stmt.outlines inFunction inClass list = outlineIn inFunction inClass (Stmt.piecesAll list)
  | [] => rfl
  | s :: rest => by
    rw [Stmt.outlines, Stmt.piecesAll, Piece.outlineIn_append, Stmt.outline_eq _ _ s,
      Stmt.outlines_eq _ _ rest]

theorem Case.outlines_eq (inFunction inClass : Bool) :
    ∀ arms : List Case,
      Case.outlines inFunction inClass arms = outlineIn inFunction inClass (Case.pieces arms)
  | [] => rfl
  | .mk value body _ :: rest => by
    rw [Case.outlines, Expr.outline?_eq, Stmt.outlines_eq _ _ body, Case.outlines_eq _ _ rest,
      Case.pieces, outlineIn, Piece.outlineIn_scope rfl]
    simp [Construct.isFunction, Construct.isClass, Piece.outline]

/-- A function is a construct that is a scope and no class. -/
theorem Function.outline_eq (inFunction inClass : Bool) (construct : Construct)
    (hscope : construct.opensScope) (hfunction : construct.isFunction)
    (hclass : construct.isClass = false) : ∀ f : Function,
      [f.outline inClass] = outlineIn inFunction inClass [.within construct f.pieces]
  | .mk _ parameters body _ => by
    rw [Function.outline, Function.pieces, Piece.outlineIn_scope hscope, hfunction, hclass,
      Bool.or_true, Bool.or_false, Piece.outlineIn_append, Piece.outlineIn_parameters,
      Stmt.outlines_eq _ _ body]
    rfl

theorem Function.outlines_eq (inFunction : Bool) : ∀ list : List Function,
    Function.outlines list = outlineIn inFunction true (Function.methodPieces list)
  | [] => rfl
  | f :: rest => by
    have hmethod := Function.outline_eq inFunction true (.method f.name) rfl rfl rfl f
    rw [Function.outlines, Function.methodPieces, Function.outlines_eq inFunction rest,
      ← List.singleton_append, hmethod, ← Piece.outlineIn_append]
    rfl

end

/-- The uses in the outline are the mentions in the pieces, in the same order. -/
def Outline.Lists (outline : List Outline) (pieces : List Piece) : Prop :=
  (allUsesIn outline).map Use.id = (Piece.allMentionsIn pieces).map Mention.id

namespace Outline.Lists

theorem mentions (inClass exempt : Bool) (list : List Mention) :
    (allUsesIn (mentionsOutline inClass exempt list)).map Use.id = list.map Mention.id := by
  have hmap : mentionsOutline inClass exempt list =
      (list.map (Mention.use inClass exempt)).map .uses := List.map_map.symm
  rw [hmap, allUsesIn_map_uses, List.map_map]
  exact List.map_congr_left fun m _ => m.id_use inClass exempt

mutual

theorem piece (inFunction inClass : Bool) : ∀ piece : Piece,
    (allUsesIn (piece.outline inFunction inClass)).map Use.id = piece.allMentions.map Mention.id
  | .declares _ value => mentions inClass false value
  | .provides _ => rfl
  | .mentions list => mentions inClass false list
  | .breaks _ => rfl
  | .continues _ => rfl
  | .returns _ none => rfl
  | .returns _ (some value) => mentions inClass (!inFunction) value
  | .within construct body => by
    have hbody := pieces (inFunction || construct.isFunction) (inClass || construct.isClass) body
    rw [Piece.outline]
    split
    · simpa [allUsesIn, allUses, Piece.allMentions] using hbody
    · exact hbody

theorem pieces (inFunction inClass : Bool) : ∀ list : List Piece,
    (allUsesIn (outlineIn inFunction inClass list)).map Use.id =
      (Piece.allMentionsIn list).map Mention.id
  | [] => rfl
  | first :: rest => by
    rw [outlineIn, allUsesIn_append, Piece.allMentionsIn, List.map_append, List.map_append,
      piece inFunction inClass first, pieces inFunction inClass rest]

end

theorem statements (inFunction inClass : Bool) (list : List Stmt) :
    Lists (Stmt.outlines inFunction inClass list) (Stmt.piecesAll list) := by
  rw [Lists, Stmt.outlines_eq]
  exact pieces inFunction inClass (Stmt.piecesAll list)

end Outline.Lists

end LexicalScoping
