import LexicalScoping.Analysis
import LexicalScoping.Proofs.Scope.Numbering

/-!
# Numbers in the order of the walk

The parser gives out numbers in the order in which the walk over the program comes to the mentions,
so the numbers that the walk binds increase too. The counter of the parser ends at the number of
mentions and, once more, assignments.
-/
namespace LexicalScoping

/-- The number that the event says was bound. -/
def Event.boundId? : Event → Option Nat
  | bound id _ _ => some id
  | _ => none

namespace Walk

/-- The numbers that have been bound so far, in order. -/
def boundIds (walk : Walk) : List Nat := walk.events.toList.filterMap Event.boundId?

/-- Between the two states of the walk only numbers of the mentions were bound, in their order. -/
def Binds (walk : Walk) (list : List Mention) (walk' : Walk) : Prop :=
  ∃ ids, ids.Sublist (list.map Mention.id) ∧ walk'.boundIds = walk.boundIds ++ ids

namespace Binds

variable {walk walk₁ walk₂ : Walk} {front back : List Mention}

theorem append (hf : Binds walk front walk₁) (hb : Binds walk₁ back walk₂) :
    Binds walk (front ++ back) walk₂ := by
  obtain ⟨ids, hids, hfront⟩ := hf
  obtain ⟨more, hmore, hback⟩ := hb
  refine ⟨ids ++ more, ?_, by rw [hback, hfront, List.append_assoc]⟩
  rw [List.map_append]
  exact hids.append hmore

/-- A step that binds nothing. -/
theorem of_eq (h : walk₁.boundIds = walk.boundIds) : Binds walk [] walk₁ :=
  ⟨[], .slnil, by rw [h, List.append_nil]⟩

/-- After a step that binds nothing. -/
theorem after (hf : Binds walk front walk₁) (h : walk₂.boundIds = walk₁.boundIds) :
    Binds walk front walk₂ := by
  obtain ⟨ids, hids, hfront⟩ := hf
  exact ⟨ids, hids, h.trans hfront⟩

end Binds

theorem boundIds_log (event : Event) (walk : Walk) :
    (walk.log event).boundIds = walk.boundIds ++ event.boundId?.toList := by
  cases event <;> simp [boundIds, log, Event.boundId?]

@[simp] theorem boundIds_report (diagnostic : Diagnostic) (walk : Walk) :
    (walk.report diagnostic).boundIds = walk.boundIds :=
  (boundIds_log (.reported diagnostic) walk).trans (by simp [Event.boundId?])

@[simp] theorem boundIds_reportIf (condition : Bool) (token : Token) (cause : Cause)
    (walk : Walk) : (walk.reportIf condition token cause).boundIds = walk.boundIds := by
  cases condition <;> simp [reportIf]

@[simp] theorem boundIds_enterScope (walk : Walk) : walk.enterScope.boundIds = walk.boundIds :=
  (boundIds_log (.entered walk.scopes.enter.depth) walk).trans (by simp [Event.boundId?])

@[simp] theorem boundIds_leaveScope (walk : Walk) : walk.leaveScope.boundIds = walk.boundIds :=
  (boundIds_log (.left walk.scopes.leave.depth) walk).trans (by simp [Event.boundId?])

@[simp] theorem boundIds_declare (name : Token) (walk : Walk) :
    (walk.declare name).boundIds = walk.boundIds := by
  unfold declare
  split
  · rfl
  · next diagnostic scopes _ => exact boundIds_report diagnostic { walk with scopes }

@[simp] theorem boundIds_define (name : String) (walk : Walk) :
    (walk.define name).boundIds = walk.boundIds := rfl

/-- Looking a name up binds at most the number that it is looked up for. -/
theorem boundIds_bind (id : Nat) (name : String) (walk : Walk) :
    (walk.bind id name).boundIds = walk.boundIds ∨
      (walk.bind id name).boundIds = walk.boundIds ++ [id] := by
  unfold bind
  split
  · next distance bindings _ =>
    right
    exact (boundIds_log (.bound id name distance) walk).trans (by simp [Event.boundId?])
  · exact .inl rfl

variable (context : Context)

theorem binds_mention (walk : Walk) (m : Mention) :
    Binds walk [m] (walk.mention context m) := by
  have hnone {walk' : Walk} (h : walk'.boundIds = walk.boundIds) : Binds walk [m] walk' :=
    ⟨[], List.nil_sublist _, by simp [h]⟩
  have hbind {walk' : Walk} (name : String) (h : walk'.boundIds = walk.boundIds) :
      Binds walk [m] (walk'.bind m.id name) := by
    rcases boundIds_bind m.id name walk' with he | he
    · exact hnone (he.trans h)
    · exact ⟨[m.id], by simp, by rw [he, h]⟩
  cases m with
  | reads target => exact hbind target.name.text (by simp)
  | assigns target => exact hbind target.name.text rfl
  | selfRef id keyword =>
    by_cases hclass : context.classKind = .none
    · exact hnone (by simp [mention, readSelf, hclass])
    · have he : walk.mention context (.selfRef id keyword) = walk.bind id selfName := if_neg hclass
      rw [he]
      exact hbind selfName rfl
  | superRef id keyword => exact hbind superName (by simp)

theorem binds_mentionAll (walk : Walk) (list : List Mention) :
    Binds walk list (walk.mentionAll context list) := by
  induction list generalizing walk with
  | nil => exact .of_eq rfl
  | cons m list ih => exact (binds_mention context walk m).append (ih _)

mutual

/-- Following a piece binds numbers of its mentions, in their order. The value of a `return` outside
of functions is passed over, and none of its mentions is bound. -/
theorem binds_follow (context : Context) (walk : Walk) :
    ∀ piece : Piece, Binds walk piece.allMentions (walk.follow context piece)
  | .declares name value => by
    have hdeclare : Binds walk [] (walk.declare name) := .of_eq (by simp)
    exact (hdeclare.append (binds_mentionAll context _ value)).after (by simp [follow])
  | .provides name => .of_eq (by simp [follow])
  | .mentions list => binds_mentionAll context walk list
  | .breaks _ => .of_eq (by simp [follow])
  | .continues _ => .of_eq (by simp [follow])
  | .returns _ none => .of_eq (by simp [follow])
  | .returns keyword (some value) => by
    by_cases hnone : context.function = .none
    · rw [follow, if_pos hnone]
      exact ⟨[], List.nil_sublist _, by simp⟩
    · rw [follow, if_neg hnone]
      have hreports : Binds walk [] ((walk.reportIf (context.function = .none) keyword
          .returnOutsideFunction).reportIf (context.function = .initializer) keyword
          .returnValueFromInitializer) := .of_eq (by simp)
      exact hreports.append (binds_mentionAll context _ value)
  | .within construct body => by
    by_cases hc : construct.opensScope
    · have henter : Binds walk [] walk.enterScope := .of_eq (by simp)
      rw [follow, if_pos hc]
      exact (henter.append (binds_followAll (construct.inner context) _ body)).after (by simp)
    · rw [follow, if_neg hc]
      exact binds_followAll (construct.inner context) walk body

theorem binds_followAll (context : Context) (walk : Walk) :
    ∀ list : List Piece, Binds walk (Piece.allMentionsIn list) (walk.followAll context list)
  | [] => .of_eq rfl
  | piece :: rest => (binds_follow context walk piece).append (binds_followAll context _ rest)

end

/-- The numbers bound by the walk over a whole program. -/
theorem binds_program (list : List Stmt) : ∃ ids,
    ids.Sublist ((Piece.allMentionsIn (Stmt.piecesAll list)).map Mention.id) ∧
      (program #[] list).boundIds = ids := by
  have hstart : ((begin #[]).log (.resolving list.length)).boundIds = [] := rfl
  obtain ⟨ids, hids, hbound⟩ := binds_followAll .topLevel
    ((begin #[]).log (.resolving list.length)) (Stmt.piecesAll list)
  rw [← statements_eq_followAll, hstart] at hbound
  exact ⟨ids, hids, hbound⟩

end Walk

/-- Resolving a program binds numbers of its mentions, in their order. -/
theorem boundIds_resolve (list : List Stmt) :
    ((resolve list).events.filterMap Event.boundId?).Sublist
      ((Piece.allMentionsIn (Stmt.piecesAll list)).map Mention.id) := by
  obtain ⟨ids, hids, hbound⟩ := Walk.binds_program list
  have hlast : (resolve list).events.filterMap Event.boundId? =
      (Walk.program #[] list).boundIds := by
    simp [resolve, Walk.log, Walk.boundIds, Event.boundId?]
  rw [hlast, hbound]
  exact hids

/-- All mentions of the program, in the order in which the walk comes to them. -/
def Program.mentions (program : Program) : List Mention :=
  Piece.allMentionsIn (Stmt.piecesAll program.statements)

/-- The numbers of the mentions of a program increase in the order of the walk, all below the
counter of the parser. The counter, which the log shows, ends at the number of mentions and, once
more, of assignments. The numbers that resolving the program binds increase with them. -/
theorem Program.ids_pairwise_of_parse {tokens : List Token} {program : Program}
    (h : Program.parse tokens = .ok program) :
    (program.mentions.map Mention.id).Pairwise (· < ·) ∧
      (program.mentions.map Mention.id).Nodup ∧
      (∀ m ∈ program.mentions, m.id < program.idCount) ∧
      program.idCount = program.mentions.length + program.mentions.countP Mention.isAssignment ∧
      (analyseTokens tokens).events.head? = some (.parsed program.statements.length
        (program.mentions.length + program.mentions.countP Mention.isAssignment)) ∧
      ((resolve program.statements).events.filterMap Event.boundId?).Sublist
        (program.mentions.map Mention.id) := by
  obtain ⟨hascends, hcount⟩ := Program.numbers_of_parse h
  have hpairwise : (program.mentions.map Mention.id).Pairwise (· < ·) := hascends.pairwise
  have hbelow : ∀ m ∈ program.mentions, m.id < program.idCount := fun m hm =>
    (hascends.le_of_mem m.id (List.mem_map_of_mem hm)).2
  have hlog : (analyseTokens tokens).events.head? =
      some (.parsed program.statements.length program.idCount) := by
    simp [analyseTokens, h]
  rw [hcount] at hlog
  exact ⟨hpairwise, hpairwise.imp Nat.ne_of_lt, hbelow, hcount, hlog, boundIds_resolve _⟩

/-- The text `{ let a; a = b = a; }`. -/
def chainedText : List Token :=
  [.bare .openCurly "\x7b", .bare .letWord "let", .bare .identifier "a", .bare .semicolon ";",
    .bare .identifier "a", .bare .assignment "=", .bare .identifier "b", .bare .assignment "=",
    .bare .identifier "a", .bare .semicolon ";", .bare .closeCurly "\x7d",
    .bare .endOfInput "EOF"]

/-- There the numbers 0 and 1 went to targets, which are numbered again after their values, and `b`
is not bound. -/
theorem Program.ids_pairwise_chainedText : ∃ program, Program.parse chainedText = .ok program ∧
    program.mentions.map Mention.id = [2, 3, 4] ∧
      [2, 3, 4].Pairwise (· < ·) ∧ program.idCount = 3 + 2 ∧
      (resolve program.statements).events.filterMap Event.boundId? = [2, 4] ∧
      [2, 4].Sublist [2, 3, 4] := by
  obtain ⟨program, h, hids, hcount, hbound⟩ : ∃ program, Program.parse chainedText = .ok program ∧
      program.mentions.map Mention.id = [2, 3, 4] ∧
      program.mentions.length + program.mentions.countP Mention.isAssignment = 3 + 2 ∧
      (resolve program.statements).events.filterMap Event.boundId? = [2, 4] :=
    ⟨_, eq_ok_get (by decide +kernel), by decide +kernel, by decide +kernel, by decide +kernel⟩
  obtain ⟨hascend, -, -, hidCount, -, hsublist⟩ := Program.ids_pairwise_of_parse h
  rw [hids] at hascend hsublist
  rw [hbound] at hsublist
  exact ⟨program, h, hids, hascend, hidCount.trans hcount, hbound, hsublist⟩

end LexicalScoping
