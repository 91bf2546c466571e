import LexicalScoping.Analysis
import LexicalScoping.Proofs.Scope.Blame
import LexicalScoping.Proofs.Scope.Exact
import LexicalScoping.Proofs.Scope.Listing

/-!
# Programs one after another

What a walk has bound and reported already does not influence what it does next: it only looks at
the open scopes. So a walk can be made from the start and put upon the earlier one afterwards. At
top level no scope is open, whatever the statements before were, and therefore the statements of a
program can be resolved one by one, in any order if their numbers are distinct, and programs that
share one list of diagnostics are resolved as each would be alone.
-/
namespace LexicalScoping

namespace Bindings

/-- The older bindings where the newer ones say nothing. -/
def overwrite (older newer : Bindings) : Bindings :=
  newer.entries.foldr (fun entry bindings => bindings.insert entry.1 entry.2) older

theorem get?_foldr_insert (older : Bindings) (entries : List (Nat × Nat)) (id : Nat) :
    (entries.foldr (fun entry bindings => bindings.insert entry.1 entry.2) older).get? id =
      (entries.lookup id).or (older.get? id) := by
  induction entries with
  | nil => rfl
  | cons entry entries ih =>
    rw [List.foldr_cons, get?_insert, ih, lookup_cons_eq_ite]
    by_cases h : id = entry.1 <;> simp [h]

@[simp] theorem get?_overwrite (older newer : Bindings) (id : Nat) :
    (older.overwrite newer).get? id = (newer.get? id).or (older.get? id) :=
  get?_foldr_insert older newer.entries id

@[simp] theorem overwrite_empty (older : Bindings) : older.overwrite empty = older := rfl

@[simp] theorem empty_overwrite (newer : Bindings) : empty.overwrite newer = newer :=
  ext_get? fun id => by simp

/-- A newly recorded distance belongs to the newer bindings. -/
theorem overwrite_insert (older newer : Bindings) (id distance : Nat) :
    older.overwrite (newer.insert id distance) = (older.overwrite newer).insert id distance := by
  refine ext_get? fun other => ?_
  by_cases h : other = id <;> simp [h]

/-- Bindings for different numbers can overwrite each other either way. -/
theorem overwrite_comm {older newer : Bindings}
    (h : ∀ id, older.get? id = none ∨ newer.get? id = none) :
    older.overwrite newer = newer.overwrite older := by
  refine ext_get? fun id => ?_
  rcases h id with hid | hid <;> simp [hid]

end Bindings

namespace Walk

/-- A walk as it is if another one was made before it and left no scope open. -/
def upon (earlier walk : Walk) : Walk :=
  ⟨walk.scopes, earlier.bindings.overwrite walk.bindings, earlier.diagnostics ++ walk.diagnostics,
    earlier.events ++ walk.events⟩

/-- At the start of a walk there is only what was there before. -/
theorem upon_begin {earlier : Walk} (h : earlier.scopes = .empty) :
    earlier.upon (begin #[]) = earlier := by
  obtain ⟨scopes, bindings, diagnostics, events⟩ := earlier
  obtain rfl : scopes = .empty := h
  simp [upon, begin]

section Upon

variable (earlier walk : Walk)

@[simp] theorem scopes_upon : (earlier.upon walk).scopes = walk.scopes := rfl

theorem report_upon (diagnostic : Diagnostic) :
    (earlier.upon walk).report diagnostic = earlier.upon (walk.report diagnostic) := by
  simp [upon, report, log]

theorem reportIf_upon (condition : Bool) (token : Token) (cause : Cause) :
    (earlier.upon walk).reportIf condition token cause =
      earlier.upon (walk.reportIf condition token cause) := by
  cases condition with
  | false => rfl
  | true => exact report_upon earlier walk (token.diagnostic cause)

theorem enterScope_upon : (earlier.upon walk).enterScope = earlier.upon walk.enterScope := by
  simp [upon, enterScope, log]

theorem leaveScope_upon : (earlier.upon walk).leaveScope = earlier.upon walk.leaveScope := by
  simp [upon, leaveScope, log]

theorem declare_upon (name : Token) :
    (earlier.upon walk).declare name = earlier.upon (walk.declare name) := by
  unfold declare
  rw [scopes_upon]
  obtain ⟨answer, scopes⟩ := walk.scopes.tryDeclare name
  cases answer with
  | ok _ => rfl
  | error diagnostic => exact report_upon earlier { walk with scopes } diagnostic

theorem define_upon (name : String) :
    (earlier.upon walk).define name = earlier.upon (walk.define name) := rfl

theorem bind_upon (id : Nat) (name : String) :
    (earlier.upon walk).bind id name = earlier.upon (walk.bind id name) := by
  unfold bind Scopes.resolveReference
  rw [scopes_upon]
  cases walk.scopes.distance? name with
  | none => rfl
  | some distance => simp [upon, log, Bindings.overwrite_insert]

theorem mention_upon (context : Context) (m : Mention) :
    (earlier.upon walk).mention context m = earlier.upon (walk.mention context m) := by
  cases m with
  | reads target =>
    have hread := reportIf_upon earlier walk
      (walk.scopes.stateInnermost? target.name.text = some .declared) target.name
      (.readInOwnInitializer target.name.text)
    show ((earlier.upon walk).reportIf (walk.scopes.stateInnermost? target.name.text =
      some .declared) _ _).bind _ _ = _
    rw [hread, bind_upon]
    rfl
  | assigns target => exact bind_upon earlier walk target.id target.name.text
  | selfRef id keyword =>
    by_cases h : context.classKind = .none
    · simp only [mention, readSelf, if_pos h, report_upon]
    · simp only [mention, readSelf, if_neg h, bind_upon]
  | superRef id keyword => simp only [mention, readSuper, reportIf_upon, bind_upon]

theorem mentionAll_upon (context : Context) (list : List Mention) :
    (earlier.upon walk).mentionAll context list =
      earlier.upon (walk.mentionAll context list) := by
  induction list generalizing walk with
  | nil => rfl
  | cons m list ih => rw [mentionAll_cons, mentionAll_cons, mention_upon, ih]

end Upon

mutual

theorem follow_upon (earlier walk : Walk) (context : Context) : ∀ piece : Piece,
    (earlier.upon walk).follow context piece = earlier.upon (walk.follow context piece)
  | .declares name value => by
    simp only [follow, declare_upon, mentionAll_upon, define_upon]
  | .provides name => define_upon earlier walk name
  | .mentions list => mentionAll_upon earlier walk context list
  | .breaks keyword => reportIf_upon earlier walk _ keyword .breakOutsideLoop
  | .continues keyword => reportIf_upon earlier walk _ keyword .continueOutsideLoop
  | .returns keyword none => reportIf_upon earlier walk _ keyword .returnOutsideFunction
  | .returns keyword (some list) => by
    by_cases hf : context.function = .none
    · simp only [follow, reportIf_upon, if_pos hf]
    · simp only [follow, reportIf_upon, if_neg hf, mentionAll_upon]
  | .within construct body => by
    by_cases hc : construct.opensScope
    · have hbody := followAll_upon earlier walk.enterScope (construct.inner context) body
      rw [follow, follow, if_pos hc, if_pos hc, enterScope_upon, hbody, leaveScope_upon]
    · rw [follow, follow, if_neg hc, if_neg hc]
      exact followAll_upon earlier walk (construct.inner context) body

/-- A walk goes on in the same way whatever was bound and reported before it. -/
theorem followAll_upon (earlier walk : Walk) (context : Context) : ∀ list : List Piece,
    (earlier.upon walk).followAll context list = earlier.upon (walk.followAll context list)
  | [] => rfl
  | piece :: rest => by
    rw [followAll, followAll, follow_upon, followAll_upon earlier _ context rest]

end

/-- The statements at top level leave no scope open. -/
theorem scopes_statements_topLevel {walk : Walk} (h : walk.scopes = .empty) (list : List Stmt) :
    (walk.statements .topLevel list).scopes = .empty := by
  have hgains := gains_followAll .topLevel walk (Stmt.piecesAll list)
  rw [← statements_eq_followAll, h] at hgains
  exact hgains.eq_empty

/-- What the statements at top level do, they do upon what was there before. -/
theorem statements_topLevel {walk : Walk} (h : walk.scopes = .empty) (list : List Stmt) :
    walk.statements .topLevel list = walk.upon ((begin #[]).statements .topLevel list) := by
  have hupon := followAll_upon walk (begin #[]) .topLevel (Stmt.piecesAll list)
  rw [upon_begin h, ← statements_eq_followAll, ← statements_eq_followAll] at hupon
  exact hupon

theorem statements_append (context : Context) (walk : Walk) (xs ys : List Stmt) :
    walk.statements context (xs ++ ys) =
      (walk.statements context xs).statements context ys := by
  induction xs generalizing walk with
  | nil => rfl
  | cons s xs ih => exact ih (walk.statement context s)

theorem program_eq_upon (reported : Array Diagnostic) (list : List Stmt) :
    program reported list = ((begin reported).log (.resolving list.length)).upon
      ((begin #[]).statements .topLevel list) :=
  statements_topLevel rfl list

end Walk

/-- Resolving a program is walking over it from the start. -/
theorem bindings_resolve (list : List Stmt) :
    (resolve list).bindings = ((Walk.begin #[]).statements .topLevel list).bindings := by
  show (Walk.program #[] list).bindings = _
  rw [Walk.program_eq_upon]
  exact Bindings.empty_overwrite _

theorem reported_resolve (list : List Stmt) :
    (resolve list).diagnostics = ((Walk.begin #[]).statements .topLevel list).reported := by
  show (Walk.program #[] list).diagnostics.toList = _
  rw [Walk.program_eq_upon]
  simp [Walk.upon, Walk.log, Walk.begin, Walk.reported]

/-- A program is resolved as it would be alone, and what it reports comes behind what was reported
before. -/
theorem resolveInto_eq (reported : Array Diagnostic) (list : List Stmt) :
    resolveInto reported list =
      ((resolve list).bindings, reported ++ (resolve list).diagnostics.toArray) := by
  rw [bindings_resolve, reported_resolve]
  show ((Walk.program reported list).bindings, (Walk.program reported list).diagnostics) = _
  rw [Walk.program_eq_upon]
  simp [Walk.upon, Walk.log, Walk.begin, Walk.reported]

theorem bindings_resolve_append (xs ys : List Stmt) :
    (resolve (xs ++ ys)).bindings = (resolve xs).bindings.overwrite (resolve ys).bindings := by
  have hempty : ((Walk.begin #[]).statements .topLevel xs).scopes = .empty :=
    Walk.scopes_statements_topLevel rfl xs
  rw [bindings_resolve, bindings_resolve, bindings_resolve, Walk.statements_append,
    Walk.statements_topLevel hempty ys]
  rfl

theorem diagnostics_resolve_append (xs ys : List Stmt) :
    (resolve (xs ++ ys)).diagnostics = (resolve xs).diagnostics ++ (resolve ys).diagnostics := by
  have hempty : ((Walk.begin #[]).statements .topLevel xs).scopes = .empty :=
    Walk.scopes_statements_topLevel rfl xs
  rw [reported_resolve, reported_resolve, reported_resolve, Walk.statements_append,
    Walk.statements_topLevel hempty ys]
  exact Array.toList_append

/-- The diagnostics of a program are those of its statements, each resolved alone. -/
theorem diagnostics_resolve_eq_flatMap (list : List Stmt) :
    (resolve list).diagnostics = list.flatMap fun s => (resolve [s]).diagnostics := by
  induction list with
  | nil => rfl
  | cons s list ih =>
    have happend := diagnostics_resolve_append [s] list
    rw [List.singleton_append, ih] at happend
    rw [List.flatMap_cons, happend]

namespace Stmt

/-- The numbers of all mentions in statements, in order. -/
def ids (list : List Stmt) : List Nat :=
  (Piece.allMentionsIn (piecesAll list)).map Mention.id

theorem ids_cons (s : Stmt) (list : List Stmt) : ids (s :: list) = ids [s] ++ ids list := by
  simp [ids, piecesAll, Piece.allMentionsIn_append]

theorem ids_eq_flatMap (list : List Stmt) : ids list = list.flatMap fun s => ids [s] := by
  induction list with
  | nil => rfl
  | cons s list ih => rw [ids_cons, ih, List.flatMap_cons]

theorem ids_perm {xs ys : List Stmt} (h : xs.Perm ys) : (ids xs).Perm (ids ys) := by
  rw [ids_eq_flatMap xs, ids_eq_flatMap ys]
  exact h.flatMap_right _

end Stmt

/-- Only numbers of its mentions are bound by a program. -/
theorem get?_resolve_of_notMem {list : List Stmt} {id : Nat} (h : id ∉ Stmt.ids list) :
    (resolve list).bindings.get? id = none := by
  have hbegin : (Walk.begin #[]).Agrees ⟨[], .empty⟩ := ⟨rfl, .nil⟩
  have hagrees := hbegin.statements .topLevel list
  have hids := Outline.Lists.statements false false list
  have hnone := Sight.get?_lookAll_of_notMem ⟨[], .empty⟩ (Stmt.outlines false false list)
    (show id ∉ _ from hids ▸ h)
  rw [bindings_resolve, hagrees.bindings, hnone]
  rfl

/-- The order of statements with distinct numbers does not matter for the bindings. -/
theorem bindings_resolve_perm {xs ys : List Stmt} (h : xs.Perm ys)
    (hdistinct : (Stmt.ids xs).Nodup) :
    (resolve xs).bindings = (resolve ys).bindings := by
  induction h with
  | nil => rfl
  | @cons s xs ys _ ih =>
    rw [Stmt.ids_cons, List.nodup_append] at hdistinct
    have hrest := ih hdistinct.2.1
    rw [← List.singleton_append, bindings_resolve_append, hrest, ← bindings_resolve_append,
      List.singleton_append]
  | swap s t list =>
    rw [Stmt.ids_cons, Stmt.ids_cons s, ← List.append_assoc, List.nodup_append,
      List.nodup_append] at hdistinct
    obtain ⟨⟨-, -, hdisjoint⟩, -, -⟩ := hdistinct
    have hcomm : (resolve [t]).bindings.overwrite (resolve [s]).bindings =
        (resolve [s]).bindings.overwrite (resolve [t]).bindings := by
      refine Bindings.overwrite_comm fun id => ?_
      by_cases hid : id ∈ Stmt.ids [t]
      · exact .inr (get?_resolve_of_notMem fun hother => hdisjoint id hid id hother rfl)
      · exact .inl (get?_resolve_of_notMem hid)
    have hfirst : (resolve (t :: s :: list)).bindings =
        ((resolve [t]).bindings.overwrite (resolve [s]).bindings).overwrite
          (resolve list).bindings := by
      rw [← bindings_resolve_append, ← bindings_resolve_append]
      rfl
    have hsecond : (resolve (s :: t :: list)).bindings =
        ((resolve [s]).bindings.overwrite (resolve [t]).bindings).overwrite
          (resolve list).bindings := by
      rw [← bindings_resolve_append, ← bindings_resolve_append]
      rfl
    rw [hfirst, hsecond, hcomm]
  | trans hxs _ ih₁ ih₂ =>
    have hbetween := (Stmt.ids_perm hxs).nodup_iff.1 hdistinct
    rw [ih₁ hdistinct, ih₂ hbetween]

/-- Resolves programs one after another with everything reported in one place. -/
def resolveEach (reported : Array Diagnostic) : List (List Stmt) → List Bindings × Array Diagnostic
  | [] => ([], reported)
  | program :: rest =>
    let (bindings, reported) := resolveInto reported program
    let (others, reported) := resolveEach reported rest
    (bindings :: others, reported)

theorem resolveEach_eq (reported : Array Diagnostic) (programs : List (List Stmt)) :
    resolveEach reported programs = (programs.map fun program => (resolve program).bindings,
      reported ++ (programs.flatMap fun program => (resolve program).diagnostics).toArray) := by
  induction programs generalizing reported with
  | nil => simp [resolveEach]
  | cons program rest ih => simp [resolveEach, resolveInto_eq, ih]

namespace Batch

/-- What a source is alone: its bindings and its diagnostics, unless it cannot be read. -/
def alone (file : Option String) (source : String) :
    Except Diagnostic (Bindings × List Diagnostic) :=
  ((tokenize source file).bind Program.parse).map fun program =>
    ((resolve program.statements).bindings, (resolve program.statements).diagnostics)

/-- What a source that can be read reports. -/
def reports : Except Diagnostic (Bindings × List Diagnostic) → List Diagnostic
  | .error _ => []
  | .ok (_, diagnostics) => diagnostics

theorem add_eq_alone (file : Option String) (batch : Batch) (source : String) :
    (batch.add file source).entries.map (Except.map Entry.bindings) =
        batch.entries.map (Except.map Entry.bindings) ++ [(alone file source).map Prod.fst] ∧
      (batch.add file source).reported.toList =
        batch.reported.toList ++ reports (alone file source) := by
  unfold add alone
  cases (tokenize source file).bind Program.parse with
  | error diagnostic => simp [Except.map, reports]
  | ok program => simp [Except.map, reports, resolveInto_eq]

/-- In a batch every source gets the bindings that it gets alone, and what is reported is what each
source that can be read reports, in order. -/
theorem ofSources_eq_alone (sources : List String) (file : Option String) :
    (ofSources sources file).entries.map (Except.map Entry.bindings) =
        sources.map (fun source => (alone file source).map Prod.fst) ∧
      (ofSources sources file).reported.toList =
        sources.flatMap fun source => reports (alone file source) := by
  have hall : ∀ (batch : Batch),
      (sources.foldl (add file) batch).entries.map (Except.map Entry.bindings) =
          batch.entries.map (Except.map Entry.bindings) ++
            sources.map (fun source => (alone file source).map Prod.fst) ∧
        (sources.foldl (add file) batch).reported.toList =
          batch.reported.toList ++ sources.flatMap fun source => reports (alone file source) := by
    induction sources with
    | nil => simp
    | cons source sources ih =>
      intro batch
      obtain ⟨hentries, hreported⟩ := add_eq_alone file batch source
      obtain ⟨hrest, hreports⟩ := ih (batch.add file source)
      rw [hentries] at hrest
      rw [hreported] at hreports
      exact ⟨by simpa using hrest, by simpa using hreports⟩
  have hstart := hall ⟨[], #[]⟩
  simpa [ofSources] using hstart

end Batch

/-- Statements at top level are resolved independently of each other. What two lists report one
after the other is what each reports, and the bindings of the second overwrite those of the first.
So a program reports what its statements report one by one, in their order, and with distinct
numbers its bindings do not depend on that order. Programs that share a list of diagnostics get the
bindings that each gets alone, and what each reports is added in order. -/
theorem resolve_compositional :
    (∀ xs ys : List Stmt,
      (resolve (xs ++ ys)).diagnostics = (resolve xs).diagnostics ++ (resolve ys).diagnostics ∧
      (resolve (xs ++ ys)).bindings = (resolve xs).bindings.overwrite (resolve ys).bindings) ∧
    (∀ xs ys : List Stmt, xs.Perm ys → (Stmt.ids xs).Nodup →
      (resolve xs).bindings = (resolve ys).bindings ∧
      (resolve xs).diagnostics = xs.flatMap (fun s => (resolve [s]).diagnostics) ∧
      (resolve ys).diagnostics = ys.flatMap (fun s => (resolve [s]).diagnostics) ∧
      (resolve xs).diagnostics.Perm (resolve ys).diagnostics) ∧
    ∀ (reported : Array Diagnostic) (programs : List (List Stmt)),
      resolveEach reported programs = (programs.map fun program => (resolve program).bindings,
        reported ++ (programs.flatMap fun program => (resolve program).diagnostics).toArray) := by
  refine ⟨fun xs ys => ?_, fun xs ys hperm hdistinct => ?_, resolveEach_eq⟩
  · exact ⟨diagnostics_resolve_append xs ys, bindings_resolve_append xs ys⟩
  · have hxs := diagnostics_resolve_eq_flatMap xs
    have hys := diagnostics_resolve_eq_flatMap ys
    have hreports : (resolve xs).diagnostics.Perm (resolve ys).diagnostics := by
      rw [hxs, hys]
      exact hperm.flatMap_right _
    exact ⟨bindings_resolve_perm hperm hdistinct, hxs, hys, hreports⟩

/-- The statement `{ let a = a; }` with the name given and the number of its use. -/
def ownInitializer (id : Nat) (name : String) : Stmt :=
  .block [.letDecl ⟨.bare .identifier name, some (.read ⟨id, .bare .identifier name⟩), default⟩]
    default

/-- Two such statements report one use each, in their order, and bind both numbers either way. -/
theorem resolve_compositional_ownInitializer :
    (resolve [ownInitializer 0 "a", ownInitializer 1 "b"]).bindings =
        (resolve [ownInitializer 1 "b", ownInitializer 0 "a"]).bindings ∧
      (resolve [ownInitializer 0 "a", ownInitializer 1 "b"]).diagnostics.map (·.cause) =
        [.readInOwnInitializer "a", .readInOwnInitializer "b"] ∧
      (resolve [ownInitializer 0 "a", ownInitializer 1 "b"]).bindings.toList =
        [(0, 0), (1, 0)] := by
  have hperm : [ownInitializer 0 "a", ownInitializer 1 "b"].Perm
      [ownInitializer 1 "b", ownInitializer 0 "a"] := .swap _ _ _
  have hdistinct : (Stmt.ids [ownInitializer 0 "a", ownInitializer 1 "b"]).Nodup := by decide
  have hboth := resolve_compositional.2.1 _ _ hperm hdistinct
  exact ⟨hboth.1, by decide, by decide⟩

end LexicalScoping
