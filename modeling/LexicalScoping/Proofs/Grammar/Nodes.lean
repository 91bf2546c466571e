import LexicalScoping.Proofs.Grammar.Grouping
import LexicalScoping.Proofs.Grammar.Spelling

/-!
# The nodes of a tree and where they stand

The parts of a node are its own signs and the nodes directly inside it, in the order of the text.
Its spelling is that of its parts, so the place of every node of a tree, counted in tokens, follows
from the parts that are before it. Every statement and every expression of a program is such a node,
and so are the first clause of a `for`, the arms of a `switch` and the methods of a class.
-/
namespace LexicalScoping

/-- A node of a syntax tree. -/
inductive Node
  | expression (e : Expr)
  | statement (s : Stmt)
  | start (first : ForStart)
  | arm (whole : Case)
  | method (declaration : Function)

/-- A sign of a node's own, or a node directly inside it. -/
inductive Part
  | sign (own : Sign)
  | node (inner : Node)

def Case.span : Case → Span
  | .mk _ _ span => span

def ForStart.span : ForStart → Span
  | .declare declaration => declaration.span
  | .evaluate _ span => span

/-- The stretch of source that a statement keeps. A `break` and a `continue` only keep their
keyword. -/
def Stmt.span? : Stmt → Option Span
  | .block _ span => some span
  | .letDecl declaration => some declaration.span
  | .expression _ span => some span
  | .print _ span => some span
  | .ifElse _ _ _ span => some span
  | .whileLoop _ _ span => some span
  | .doWhile _ _ span => some span
  | .forLoop _ _ _ _ span => some span
  | .switch _ _ span => some span
  | .breakLoop _ => none
  | .continueLoop _ => none
  | .returnValue _ _ span => some span
  | .function declaration => some declaration.span
  | .classDecl _ _ _ span => some span

/-- A single arm is spelled as in a row of arms. -/
def Case.spelling (arm : Case) : List Sign := armSpelling arm.value? ++ Stmt.spellings arm.body

namespace Node

/-- The stretch of source that a node keeps. -/
def span? : Node → Option Span
  | expression e => some e.span
  | statement s => s.span?
  | start first => some first.span
  | arm whole => some whole.span
  | method declaration => some declaration.span

def spelling : Node → List Sign
  | expression e => e.spelling
  | statement s => s.spelling
  | start first => ForStart.spelling (some first)
  | arm whole => whole.spelling
  | method declaration => declaration.spelling

end Node

namespace Part

/-- The spelling of a row of parts. -/
def spellings : List Part → List Sign
  | [] => []
  | sign own :: rest => own :: spellings rest
  | node inner :: rest => inner.spelling ++ spellings rest

@[simp] theorem spellings_nil : spellings [] = [] := rfl

@[simp] theorem spellings_sign (own : Sign) (rest : List Part) :
    spellings (.sign own :: rest) = own :: spellings rest := rfl

@[simp] theorem spellings_node (inner : Node) (rest : List Part) :
    spellings (.node inner :: rest) = inner.spelling ++ spellings rest := rfl

@[simp] theorem spellings_append (front back : List Part) :
    spellings (front ++ back) = spellings front ++ spellings back := by
  induction front with
  | nil => rfl
  | cons part front ih => cases part <;> simp [ih]

@[simp] theorem spellings_map_sign (signs : List Sign) : spellings (signs.map sign) = signs := by
  induction signs with
  | nil => rfl
  | cons own signs ih => rw [List.map_cons, spellings_sign, ih]

end Part

/-- Expressions with a comma between any two. -/
def Expr.row : List Expr → List Part
  | [] => []
  | [e] => [.node (.expression e)]
  | e :: next :: rest =>
    .node (.expression e) :: .sign (.ofKind .comma) :: Expr.row (next :: rest)

def Expr.parts : Expr → List Part
  | .literal value span => [.sign (.literal value span)]
  | .read target => [.sign (.kept target.name)]
  | .assign target value _ =>
    [.sign (.kept target.name), .sign (.ofKind .assignment), .node (.expression value)]
  | .binary _ left operator right _ =>
    [.node (.expression left), .sign (.kept operator), .node (.expression right)]
  | .unary operator operand _ => [.sign (.kept operator), .node (.expression operand)]
  | .grouping content _ =>
    [.sign (.ofKind .openParen), .node (.expression content), .sign (.ofKind .closeParen)]
  | .conditional condition thenBranch elseBranch _ =>
    [.node (.expression condition), .sign (.ofKind .question), .node (.expression thenBranch),
      .sign (.ofKind .colon), .node (.expression elseBranch)]
  | .call callee arguments _ =>
    .node (.expression callee) :: .sign (.ofKind .openParen) ::
      (Expr.row arguments ++ [.sign (.ofKind .closeParen)])
  | .get object name _ =>
    [.node (.expression object), .sign (.ofKind .dot), .sign (.kept name)]
  | .set object name value _ =>
    [.node (.expression object), .sign (.ofKind .dot), .sign (.kept name),
      .sign (.ofKind .assignment), .node (.expression value)]
  | .superMethod _ keyword method _ =>
    [.sign (.kept keyword), .sign (.ofKind .dot), .sign (.kept method)]
  | .selfRef _ keyword => [.sign (.kept keyword)]

/-- What follows a mark, with the mark. -/
def partsAfter (kind : Kind) : Option Expr → List Part
  | none => []
  | some e => [.sign (.ofKind kind), .node (.expression e)]

def Expr.parts? : Option Expr → List Part
  | none => []
  | some e => [.node (.expression e)]

/-- An expression between parentheses. -/
def headParts (e : Expr) : List Part :=
  [.sign (.ofKind .openParen), .node (.expression e), .sign (.ofKind .closeParen)]

def LetDecl.parts (declaration : LetDecl) : List Part :=
  .sign (.ofKind .letWord) :: .sign (.kept declaration.name) ::
    (partsAfter .assignment declaration.value ++ [.sign (.ofKind .semicolon)])

def ForStart.parts : ForStart → List Part
  | .declare declaration => declaration.parts
  | .evaluate e _ => [.node (.expression e), .sign (.ofKind .semicolon)]

/-- The first clause of a `for` with its semicolon. -/
def ForStart.parts? : Option ForStart → List Part
  | none => [.sign (.ofKind .semicolon)]
  | some first => [.node (.start first)]

/-- What announces an arm of a `switch`. -/
def armParts : Option Expr → List Part
  | none => [.sign (.ofKind .defaultWord), .sign (.ofKind .colon)]
  | some e => [.sign (.ofKind .caseWord), .node (.expression e), .sign (.ofKind .colon)]

/-- Statements one after the other. -/
def Stmt.row (list : List Stmt) : List Part := list.map fun s => .node (.statement s)

/-- The arms of a `switch` one after the other. -/
def Case.row (arms : List Case) : List Part := arms.map fun arm => .node (.arm arm)

/-- Methods one after the other. -/
def Function.row (methods : List Function) : List Part :=
  methods.map fun declaration => .node (.method declaration)

def Case.parts (arm : Case) : List Part := armParts arm.value? ++ Stmt.row arm.body

def Function.parts : Function → List Part
  | .mk name parameters body _ =>
    (signatureSpelling name parameters).map .sign ++
      .sign (.ofKind .openCurly) :: (Stmt.row body ++ [.sign (.ofKind .closeCurly)])

def Stmt.parts : Stmt → List Part
  | .block body _ => .sign (.ofKind .openCurly) :: (Stmt.row body ++ [.sign (.ofKind .closeCurly)])
  | .letDecl declaration => declaration.parts
  | .expression e _ => [.node (.expression e), .sign (.ofKind .semicolon)]
  | .print e _ =>
    [.sign (.ofKind .printWord), .node (.expression e), .sign (.ofKind .semicolon)]
  | .ifElse condition thenBody none _ =>
    .sign (.ofKind .ifWord) :: (headParts condition ++ [.node (.statement thenBody)])
  | .ifElse condition thenBody (some elseBody) _ =>
    .sign (.ofKind .ifWord) :: (headParts condition ++
      [.node (.statement thenBody), .sign (.ofKind .elseWord), .node (.statement elseBody)])
  | .whileLoop condition body _ =>
    .sign (.ofKind .whileWord) :: (headParts condition ++ [.node (.statement body)])
  | .doWhile body condition _ =>
    .sign (.ofKind .doWord) :: .node (.statement body) :: .sign (.ofKind .whileWord) ::
      (headParts condition ++ [.sign (.ofKind .semicolon)])
  | .forLoop start condition increment body _ =>
    .sign (.ofKind .forWord) :: .sign (.ofKind .openParen) ::
      (ForStart.parts? start ++ (Expr.parts? condition ++ .sign (.ofKind .semicolon) ::
        (Expr.parts? increment ++ [.sign (.ofKind .closeParen), .node (.statement body)])))
  | .switch subject arms _ =>
    .sign (.ofKind .switchWord) :: (headParts subject ++ .sign (.ofKind .openCurly) ::
      (Case.row arms ++ [.sign (.ofKind .closeCurly)]))
  | .breakLoop keyword => [.sign (.kept keyword), .sign (.ofKind .semicolon)]
  | .continueLoop keyword => [.sign (.kept keyword), .sign (.ofKind .semicolon)]
  | .returnValue keyword value _ =>
    .sign (.kept keyword) :: (Expr.parts? value ++ [.sign (.ofKind .semicolon)])
  | .function declaration => .sign (.ofKind .fnWord) :: declaration.parts
  | .classDecl name superclass methods _ =>
    .sign (.ofKind .classWord) :: .sign (.kept name) ::
      ((superclassSpelling superclass).map .sign ++ .sign (.ofKind .openCurly) ::
        (Function.row methods ++ [.sign (.ofKind .closeCurly)]))

namespace Node

/-- The signs of a node and the nodes directly inside it, in order. -/
def parts : Node → List Part
  | expression e => e.parts
  | statement s => s.parts
  | start first => first.parts
  | arm whole => whole.parts
  | method declaration => declaration.parts

end Node

theorem Expr.spellings_row (list : List Expr) :
    Part.spellings (Expr.row list) = withCommas (Expr.spellings list) := by
  fun_induction Expr.row list with
  | case1 => rfl
  | case2 e => simp [Expr.spellings, withCommas, Node.spelling]
  | case3 e next rest ih =>
    rw [Expr.spellings, withCommas_cons (by simp [Expr.spellings])]
    simp [ih, Node.spelling]

theorem Expr.spellings_parts (e : Expr) : Part.spellings e.parts = e.spelling := by
  cases e <;> simp [Expr.parts, Expr.spelling, Expr.spellings_row, Node.spelling]

theorem Expr.spellings_parts? (e : Option Expr) :
    Part.spellings (Expr.parts? e) = Expr.spelling? e := by
  cases e <;> simp [Expr.parts?, Expr.spelling?, Node.spelling]

theorem spellings_partsAfter (kind : Kind) (e : Option Expr) :
    Part.spellings (partsAfter kind e) = afterMark kind e := by
  cases e <;> simp [partsAfter, afterMark, Node.spelling]

theorem spellings_headParts (e : Expr) : Part.spellings (headParts e) = headSpelling e := by
  simp [headParts, headSpelling, Node.spelling]

theorem spellings_armParts (e : Option Expr) : Part.spellings (armParts e) = armSpelling e := by
  cases e <;> simp [armParts, armSpelling, Node.spelling]

theorem LetDecl.spellings_parts (declaration : LetDecl) :
    Part.spellings declaration.parts = declaration.spelling := by
  simp [LetDecl.parts, LetDecl.spelling, spellings_partsAfter]

theorem ForStart.spellings_parts (first : ForStart) :
    Part.spellings first.parts = ForStart.spelling (some first) := by
  cases first <;>
    simp [ForStart.parts, ForStart.spelling, LetDecl.spellings_parts, Node.spelling]

theorem ForStart.spellings_parts? (start : Option ForStart) :
    Part.spellings (ForStart.parts? start) = ForStart.spelling start := by
  cases start with
  | none => rfl
  | some first => simp [ForStart.parts?, Node.spelling]

theorem Stmt.spellings_row (list : List Stmt) :
    Part.spellings (Stmt.row list) = Stmt.spellings list := by
  induction list with
  | nil => rfl
  | cons s rest ih => exact congrArg (s.spelling ++ ·) ih

theorem Case.spellings_parts (arm : Case) : Part.spellings arm.parts = arm.spelling := by
  simp [Case.parts, Case.spelling, spellings_armParts, Stmt.spellings_row]

theorem Case.spellings_row (arms : List Case) :
    Part.spellings (Case.row arms) = Case.spellings arms := by
  induction arms with
  | nil => rfl
  | cons arm rest ih =>
    obtain ⟨value, body, span⟩ := arm
    rw [Case.spellings, ← ih, ← List.append_assoc]
    rfl

theorem Function.spellings_parts (declaration : Function) :
    Part.spellings declaration.parts = declaration.spelling := by
  obtain ⟨name, parameters, body, span⟩ := declaration
  simp [Function.parts, Function.spelling, Stmt.spellings_row]

theorem Function.spellings_row (methods : List Function) :
    Part.spellings (Function.row methods) = Function.spellings methods := by
  induction methods with
  | nil => rfl
  | cons declaration rest ih => exact congrArg (declaration.spelling ++ ·) ih

theorem Stmt.spellings_parts (s : Stmt) : Part.spellings s.parts = s.spelling := by
  cases s with
  | ifElse condition thenBody elseBody span =>
    cases elseBody <;> simp [Stmt.parts, Stmt.spelling, spellings_headParts, Node.spelling]
  | _ =>
    simp [Stmt.parts, Stmt.spelling, spellings_headParts, LetDecl.spellings_parts,
      ForStart.spellings_parts?, Expr.spellings_parts?, Stmt.spellings_row, Case.spellings_row,
      Function.spellings_row, Function.spellings_parts, Node.spelling]

/-- A node is spelled as its parts are. -/
theorem Node.spellings_parts (node : Node) : Part.spellings node.parts = node.spelling := by
  cases node with
  | expression e => exact e.spellings_parts
  | statement s => exact s.spellings_parts
  | start first => exact first.spellings_parts
  | arm whole => exact whole.spellings_parts
  | method declaration => exact declaration.spellings_parts

/-- No node is spelled by nothing. -/
theorem Node.spelling_ne_nil (node : Node) : node.spelling ≠ [] := by
  cases node with
  | expression e => exact e.spelling_ne_nil
  | statement s => exact s.spelling_ne_nil
  | start first => cases first <;> simp [spelling, ForStart.spelling, LetDecl.spelling]
  | arm whole => exact List.append_ne_nil_of_left_ne_nil (armSpelling_ne_nil _) _
  | method declaration => exact declaration.spelling_ne_nil

/-- The node is in the row, or inside a node of it, behind as many tokens of the row as are
counted. -/
inductive Stands : List Part → Nat → Node → Prop
  | direct (front : List Part) (node : Node) (back : List Part) :
    Stands (front ++ .node node :: back) (Part.spellings front).length node
  | inside {row : List Part} {i j : Nat} {outer inner : Node} (outside : Stands row i outer)
    (within : Stands outer.parts j inner) : Stands row (i + j) inner

/-- A node does not reach beyond the row that it stands in. -/
theorem Stands.add_length_le {row : List Part} {i : Nat} {node : Node} (h : Stands row i node) :
    i + node.spelling.length ≤ (Part.spellings row).length := by
  induction h with
  | direct front node back =>
    rw [Part.spellings_append, List.length_append, Part.spellings_node, List.length_append]
    omega
  | @inside row i j outer inner _ _ houtside hwithin =>
    rw [outer.spellings_parts] at hwithin
    omega

/-- The node is in the row, or inside a node of it. -/
def Holds (row : List Part) (node : Node) : Prop := ∃ i, Stands row i node

namespace Holds

variable {row : List Part} {outer inner : Node}

theorem of_mem (h : .node inner ∈ row) : Holds row inner := by
  obtain ⟨front, back, rfl⟩ := List.append_of_mem h
  exact ⟨_, .direct front inner back⟩

theorem trans (houter : Holds row outer) (hinner : Holds outer.parts inner) : Holds row inner := by
  obtain ⟨i, outside⟩ := houter
  obtain ⟨j, within⟩ := hinner
  exact ⟨i + j, .inside outside within⟩

end Holds

section Members

variable {node : Node}

@[simp] theorem Expr.mem_row {list : List Expr} :
    .node node ∈ Expr.row list ↔ ∃ e ∈ list, node = .expression e := by
  fun_induction Expr.row list with
  | case1 => simp
  | case2 first => simp
  | case3 first next rest ih => simp [ih]

@[simp] theorem Stmt.mem_row {list : List Stmt} :
    .node node ∈ Stmt.row list ↔ ∃ s ∈ list, node = .statement s := by
  simp [Stmt.row, eq_comm]

@[simp] theorem Case.mem_row {arms : List Case} :
    .node node ∈ Case.row arms ↔ ∃ arm ∈ arms, node = .arm arm := by
  simp [Case.row, eq_comm]

@[simp] theorem Function.mem_row {methods : List Function} :
    .node node ∈ Function.row methods ↔ ∃ declaration ∈ methods, node = .method declaration := by
  simp [Function.row, eq_comm]

@[simp] theorem mem_headParts {e : Expr} : .node node ∈ headParts e ↔ node = .expression e := by
  simp [headParts]

@[simp] theorem mem_partsAfter {kind : Kind} {value : Option Expr} :
    .node node ∈ partsAfter kind value ↔ ∃ e ∈ value, node = .expression e := by
  cases value <;> simp [partsAfter]

@[simp] theorem Expr.mem_parts? {value : Option Expr} :
    .node node ∈ Expr.parts? value ↔ ∃ e ∈ value, node = .expression e := by
  cases value <;> simp [Expr.parts?]

@[simp] theorem mem_armParts {value : Option Expr} :
    .node node ∈ armParts value ↔ ∃ e ∈ value, node = .expression e := by
  cases value <;> simp [armParts]

end Members

namespace Expr

theorem holds_child {e child : Expr} (h : child ∈ e.children) :
    Holds e.parts (.expression child) := by
  refine .of_mem ?_
  cases e <;> simp_all [children, parts]

theorem HasNode.holds {e node : Expr} (h : e.HasNode node) {row : List Part}
    (hrow : Holds row (.expression e)) : Holds row (.expression node) := by
  induction h with
  | self => exact hrow
  | inside direct _ ih => exact ih (hrow.trans (holds_child direct))

end Expr

theorem ForStart.holds_expression {first : ForStart} {e : Expr}
    (h : ForStart.expression? (some first) = some e) : Holds first.parts (.expression e) := by
  refine .of_mem ?_
  cases first with
  | declare declaration => simpa [expression?, parts, LetDecl.parts] using h
  | evaluate whole span => simpa [parts, eq_comm] using Option.some.inj h

theorem Function.mem_parts {declaration : Function} {s : Stmt} (h : s ∈ declaration.body) :
    .node (.statement s) ∈ declaration.parts := by
  obtain ⟨name, parameters, body, span⟩ := declaration
  simpa [Function.body, Function.parts] using h

namespace Stmt

theorem holds_child {s child : Stmt} (h : child ∈ s.children) :
    Holds s.parts (.statement child) := by
  cases s with
  | switch subject arms span =>
    obtain ⟨arm, harm, hbody⟩ := List.mem_flatMap.1 h
    have houter : Holds (switch subject arms span).parts (.arm arm) :=
      .of_mem (by simpa [parts] using harm)
    exact houter.trans (.of_mem (by simpa [Node.parts, Case.parts] using hbody))
  | function declaration => exact .of_mem (List.mem_cons_of_mem _ (Function.mem_parts h))
  | classDecl name superclass methods span =>
    obtain ⟨declaration, hmethod, hbody⟩ := List.mem_flatMap.1 h
    have houter : Holds (classDecl name superclass methods span).parts (.method declaration) :=
      .of_mem (by simpa [parts] using hmethod)
    exact houter.trans (.of_mem (Function.mem_parts hbody))
  | ifElse condition thenBody elseBody span =>
    refine .of_mem ?_
    cases elseBody <;> simpa [children, parts] using h
  | forLoop start condition increment body span =>
    obtain rfl := List.mem_singleton.1 h
    exact .of_mem (by simp [parts])
  | block | whileLoop | doWhile => exact .of_mem (by simpa [children, parts] using h)
  | letDecl | expression | print | breakLoop | continueLoop | returnValue => contradiction

theorem holds_expression {s : Stmt} {e : Expr} (h : e ∈ s.expressions) :
    Holds s.parts (.expression e) := by
  cases s with
  | letDecl => exact .of_mem (by simpa [expressions, parts, LetDecl.parts] using h)
  | ifElse condition thenBody elseBody span =>
    refine .of_mem ?_
    cases elseBody <;> simpa [expressions, parts] using h
  | forLoop start condition increment body span =>
    rcases List.mem_append.1 h with hstart | hothers
    · cases start with
      | none => contradiction
      | some first =>
        have houter : Holds (forLoop (some first) condition increment body span).parts
            (.start first) := .of_mem (by simp [parts, ForStart.parts?])
        exact houter.trans (ForStart.holds_expression (Option.mem_toList.1 hstart))
    · refine .of_mem ?_
      rcases List.mem_append.1 hothers with hcondition | hincrement
      · simp [parts, Option.mem_toList.1 hcondition]
      · simp [parts, Option.mem_toList.1 hincrement]
  | switch subject arms span =>
    rcases List.mem_cons.1 h with rfl | hvalue
    · exact .of_mem (by simp [parts])
    · obtain ⟨arm, harm, hvalue⟩ := List.mem_filterMap.1 hvalue
      have houter : Holds (switch subject arms span).parts (.arm arm) :=
        .of_mem (by simpa [parts] using harm)
      exact houter.trans (.of_mem (by simp [Node.parts, Case.parts, hvalue]))
  | expression | print | whileLoop | doWhile | returnValue =>
    exact .of_mem (by simpa [expressions, parts] using h)
  | block | breakLoop | continueLoop | function | classDecl => contradiction

theorem HasNode.holds {s node : Stmt} (h : s.HasNode node) {row : List Part}
    (hrow : Holds row (.statement s)) : Holds row (.statement node) := by
  induction h with
  | self => exact hrow
  | inside direct _ ih => exact ih (hrow.trans (holds_child direct))

end Stmt

namespace Program

variable {program : Program}

/-- Every statement of a program is a node of it. -/
theorem HasStmt.holds {s : Stmt} (h : program.HasStmt s) :
    Holds (Stmt.row program.statements) (.statement s) := by
  obtain ⟨whole, hmem, hnode⟩ := h
  exact hnode.holds (.of_mem (by simpa using hmem))

/-- Every expression of a program is a node of it. -/
theorem HasExpr.holds {e : Expr} (h : program.HasExpr e) :
    Holds (Stmt.row program.statements) (.expression e) := by
  obtain ⟨s, hs, whole, hmem, hnode⟩ := h
  exact hnode.holds (hs.holds.trans (Stmt.holds_expression hmem))

end Program
end LexicalScoping
