import LexicalScoping.Proofs.Scope.Compose
import LexicalScoping.Proofs.Scope.Order

/-!
# The log accounts for the run

What resolving a program gives can be read off its log. Each event says how far the walk has come:
scopes are entered and left one at a time, a name is found in a scope that is open, and whatever is
recorded or reported is logged when that happens. `Logs` relates two states of the walk by the
events between them; every step of the walk has such events, and they compose.
-/
namespace LexicalScoping

namespace Event

/-- How many scopes are open after the event. The event can only happen if it fits the number of
scopes that are open before it. -/
def depthAfter? (depth : Nat) : Event → Option Nat
  | entered now => if now = depth + 1 then some now else none
  | left now => if now + 1 = depth then some now else none
  | bound _ _ distance => if distance < depth then some depth else none
  | _ => some depth

/-- The entry that the event says was recorded. -/
def entry? : Event → Option (Nat × Nat)
  | bound id _ distance => some (id, distance)
  | _ => none

/-- What the event says was reported. -/
def diagnostic? : Event → Option Diagnostic
  | reported diagnostic => some diagnostic
  | _ => none

/-- The text of an error, if the event shows one. -/
def error? (event : Event) : Option String :=
  if event.message = "resolver diagnostic" then event.fields.lookup "error" else none

theorem boundId?_eq (event : Event) : event.boundId? = event.entry?.map Prod.fst := by
  cases event <;> rfl

/-- The text of an error is that of the diagnostic. -/
theorem error?_eq (event : Event) : event.error? = event.diagnostic?.map Diagnostic.display := by
  cases event with
  | reported diagnostic => simp [error?, message, fields, diagnostic?]
  | _ => simp [error?, message, diagnostic?]

end Event

namespace Bindings

/-- Records entries one after the other. -/
def recordAll (bindings : Bindings) (entries : List (Nat × Nat)) : Bindings :=
  entries.foldl (fun bindings entry => bindings.insert entry.1 entry.2) bindings

theorem recordAll_append (bindings : Bindings) (front back : List (Nat × Nat)) :
    bindings.recordAll (front ++ back) = (bindings.recordAll front).recordAll back :=
  List.foldl_append

/-- An entry with a new number makes the bindings larger by one. -/
theorem size_insert_of_get?_eq_none {bindings : Bindings} {id : Nat}
    (h : bindings.get? id = none) (distance : Nat) :
    (bindings.insert id distance).size = bindings.size + 1 := by
  obtain ⟨entries, hsorted⟩ := bindings
  simp only [size, insert, get?] at h ⊢
  induction entries with
  | nil => rfl
  | cons entry rest ih =>
    rw [lookup_cons_eq_ite] at h
    have hne : entry.1 ≠ id := fun he => by simp [he] at h
    have hrest : rest.lookup id = none := by simpa [hne.symm] using h
    unfold insertEntry
    by_cases hlt : entry.1 < id
    · simp [hlt]
    · simp [hlt, hne, ih hsorted.tail hrest]

/-- Entries with numbers of their own are all kept. -/
theorem size_recordAll {entries : List (Nat × Nat)} (h : (entries.map Prod.fst).Nodup)
    {bindings : Bindings} (hnew : ∀ entry ∈ entries, bindings.get? entry.1 = none) :
    (bindings.recordAll entries).size = bindings.size + entries.length := by
  induction entries generalizing bindings with
  | nil => rfl
  | cons entry rest ih =>
    rw [List.map_cons, List.nodup_cons] at h
    have hinsert := size_insert_of_get?_eq_none (hnew entry List.mem_cons_self) entry.2
    have hrest : ∀ other ∈ rest, (bindings.insert entry.1 entry.2).get? other.1 = none := by
      intro other hother
      have hne : other.1 ≠ entry.1 := fun he => h.1 (he ▸ List.mem_map_of_mem hother)
      rw [get?_insert, if_neg hne]
      exact hnew other (List.mem_cons_of_mem _ hother)
    calc ((bindings.insert entry.1 entry.2).recordAll rest).size
        = (bindings.insert entry.1 entry.2).size + rest.length := ih h.2 hrest
      _ = bindings.size + (rest.length + 1) := by omega

end Bindings

/-- A name is found in a scope that is open. -/
theorem Scopes.distance?_lt_depth {scopes : Scopes} {name : String} {distance : Nat}
    (h : scopes.distance? name = some distance) : distance < scopes.depth :=
  (List.findIdx?_eq_some_iff_findIdx_eq.1 h).1

theorem Scopes.depth_define (scopes : Scopes) (name : String) :
    (scopes.define name).depth = scopes.depth := by
  obtain ⟨frames⟩ := scopes
  cases frames <;> rfl

namespace Walk

/-- The events between two states of the walk account for what changed between them. -/
structure Logs (walk : Walk) (events : List Event) (walk' : Walk) : Prop where
  log : walk'.events.toList = walk.events.toList ++ events
  depth : events.foldlM Event.depthAfter? walk.scopes.depth = some walk'.scopes.depth
  bindings : walk'.bindings = walk.bindings.recordAll (events.filterMap Event.entry?)
  reported : walk'.reported = walk.reported ++ events.filterMap Event.diagnostic?

/-- The log accounts for what happened, and as many scopes are open as before. -/
def Accounts (walk walk' : Walk) : Prop :=
  (∃ events, Logs walk events walk') ∧ walk'.scopes.depth = walk.scopes.depth

theorem Logs.append {walk walk₁ walk₂ : Walk} {front back : List Event}
    (hfront : Logs walk front walk₁) (hback : Logs walk₁ back walk₂) :
    Logs walk (front ++ back) walk₂ where
  log := by rw [hback.log, hfront.log, List.append_assoc]
  depth := by
    rw [List.foldlM_append, hfront.depth]
    exact hback.depth
  bindings := by
    rw [hback.bindings, hfront.bindings, List.filterMap_append, Bindings.recordAll_append]
  reported := by
    rw [hback.reported, hfront.reported, List.filterMap_append, List.append_assoc]

/-- One event that accounts for all that changed. -/
theorem Logs.single {walk walk' : Walk} {event : Event}
    (hevents : walk'.events = walk.events.push event)
    (hdepth : event.depthAfter? walk.scopes.depth = some walk'.scopes.depth)
    (hbindings : walk'.bindings = walk.bindings.recordAll event.entry?.toList)
    (hreported : walk'.reported = walk.reported ++ event.diagnostic?.toList) :
    Logs walk [event] walk' where
  log := by rw [hevents, Array.toList_push]
  depth := by simpa using hdepth
  bindings := by
    rw [hbindings]
    cases event <;> rfl
  reported := by
    rw [hreported]
    cases event <;> rfl

namespace Accounts

theorem refl (walk : Walk) : Accounts walk walk :=
  ⟨⟨[], by simp, rfl, rfl, by simp⟩, rfl⟩

theorem trans {walk walk₁ walk₂ : Walk} (hfront : Accounts walk walk₁)
    (hback : Accounts walk₁ walk₂) : Accounts walk walk₂ := by
  obtain ⟨⟨front, hf⟩, hdepth⟩ := hfront
  obtain ⟨⟨back, hb⟩, hdepth'⟩ := hback
  exact ⟨⟨front ++ back, hf.append hb⟩, hdepth'.trans hdepth⟩

/-- A step that only changes what is known of the names in the open scopes is not logged. -/
theorem of_scopes (walk : Walk) {scopes : Scopes} (h : scopes.depth = walk.scopes.depth) :
    Accounts walk { walk with scopes } :=
  ⟨⟨[], by simp, congrArg some h.symm, rfl, by simp [Walk.reported]⟩, h⟩

theorem report (diagnostic : Diagnostic) (walk : Walk) :
    Accounts walk (walk.report diagnostic) :=
  ⟨⟨[.reported diagnostic], .single rfl rfl rfl (reported_report walk diagnostic)⟩, rfl⟩

theorem reportIf (condition : Bool) (token : Token) (cause : Cause) (walk : Walk) :
    Accounts walk (walk.reportIf condition token cause) := by
  cases condition with
  | true => exact report _ walk
  | false => exact refl walk

theorem define (name : String) (walk : Walk) : Accounts walk (walk.define name) :=
  of_scopes walk (walk.scopes.depth_define name)

theorem declare (name : Token) (walk : Walk) : Accounts walk (walk.declare name) := by
  obtain ⟨⟨frames⟩, bindings, diagnostics, events⟩ := walk
  cases frames with
  | nil => exact refl _
  | cons frame outer =>
    by_cases hh : frame.holds name.text
    · rw [Walk.declare_of_holds rfl hh]
      exact report _ _
    · rw [Walk.declare_of_not_holds rfl hh]
      exact of_scopes _ rfl

/-- A name that is found is found in an open scope, and the entry is logged. -/
theorem bind (id : Nat) (name : String) (walk : Walk) :
    Accounts walk (walk.bind id name) := by
  unfold Walk.bind Scopes.resolveReference
  cases h : walk.scopes.distance? name with
  | none => exact refl walk
  | some distance =>
    have hdepth : distance < walk.scopes.depth := Scopes.distance?_lt_depth h
    refine ⟨⟨[.bound id name distance], .single rfl ?_ rfl ?_⟩, rfl⟩
    · exact if_pos hdepth
    · exact (List.append_nil _).symm

theorem mention (context : Context) (walk : Walk) (m : Mention) :
    Accounts walk (walk.mention context m) := by
  cases m with
  | reads target => exact (reportIf _ _ _ walk).trans (bind _ _ _)
  | assigns target => exact bind _ _ walk
  | selfRef id keyword =>
    by_cases hclass : context.classKind = .none
    · simpa [Walk.mention, readSelf, hclass] using report _ walk
    · simpa [Walk.mention, readSelf, hclass] using bind _ _ walk
  | superRef id keyword =>
    exact ((reportIf _ _ _ walk).trans (reportIf _ _ _ _)).trans (bind _ _ _)

theorem mentionAll (context : Context) (walk : Walk) (list : List Mention) :
    Accounts walk (walk.mentionAll context list) := by
  induction list generalizing walk with
  | nil => exact refl walk
  | cons m list ih => exact (mention context walk m).trans (ih _)

/-- What is done in a scope of its own is done between entering and leaving it. -/
theorem scope {walk inner : Walk} (h : Accounts walk.enterScope inner) :
    Accounts walk inner.leaveScope := by
  obtain ⟨⟨events, hevents⟩, hdepth⟩ := h
  have hinner : inner.scopes.depth = walk.scopes.depth + 1 := hdepth
  have hleft : inner.scopes.leave.depth = walk.scopes.depth := by
    have htail : inner.scopes.leave.depth = inner.scopes.depth - 1 := List.length_tail
    omega
  have henter : Logs walk [.entered walk.scopes.enter.depth] walk.enterScope :=
    .single rfl (if_pos rfl) rfl (List.append_nil _).symm
  have hleave : Logs inner [.left inner.scopes.leave.depth] inner.leaveScope :=
    .single rfl (if_pos (by omega)) rfl (List.append_nil _).symm
  exact ⟨⟨_, (henter.append hevents).append hleave⟩, hleft⟩

mutual

/-- The log accounts for what the walk does at a piece of a program. -/
theorem follow (context : Context) (walk : Walk) :
    ∀ piece : Piece, Accounts walk (walk.follow context piece)
  | .declares name value =>
    ((declare name walk).trans (mentionAll context _ value)).trans (define name.text _)
  | .provides name => define name walk
  | .mentions list => mentionAll context walk list
  | .breaks _ => reportIf _ _ _ walk
  | .continues _ => reportIf _ _ _ walk
  | .returns _ none => reportIf _ _ _ walk
  | .returns keyword (some value) => by
    have hreports := (reportIf (context.function = .none) keyword .returnOutsideFunction walk).trans
      (reportIf (context.function = .initializer) keyword .returnValueFromInitializer _)
    by_cases hnone : context.function = .none
    · rw [Walk.follow, if_pos hnone]
      exact hreports
    · rw [Walk.follow, if_neg hnone]
      exact hreports.trans (mentionAll context _ value)
  | .within construct body => by
    by_cases hc : construct.opensScope
    · rw [Walk.follow, if_pos hc]
      exact scope (followAll (construct.inner context) walk.enterScope body)
    · rw [Walk.follow, if_neg hc]
      exact followAll (construct.inner context) walk body

theorem followAll (context : Context) (walk : Walk) :
    ∀ list : List Piece, Accounts walk (walk.followAll context list)
  | [] => refl walk
  | piece :: rest => (follow context walk piece).trans (followAll context _ rest)

end

end Accounts

/-- The log of the walk over a whole program, and what it accounts for. -/
theorem logs_program (list : List Stmt) : ∃ events,
    (program #[] list).events.toList = .resolving list.length :: events ∧
      events.foldlM Event.depthAfter? 0 = some 0 ∧
      (program #[] list).bindings = Bindings.empty.recordAll (events.filterMap Event.entry?) ∧
      (program #[] list).reported = events.filterMap Event.diagnostic? := by
  obtain ⟨⟨events, hlogs⟩, hdepth⟩ := Accounts.followAll .topLevel
    ((begin #[]).log (.resolving list.length)) (Stmt.piecesAll list)
  rw [← statements_eq_followAll] at hlogs hdepth
  exact ⟨events, hlogs.log, hlogs.depth.trans (congrArg some hdepth), hlogs.bindings,
    hlogs.reported⟩

end Walk

/-- The log of a resolution and its results agree. -/
structure Resolution.Accounted (resolution : Resolution) : Prop where
  /-- Scopes are entered and left one at a time, at the end all are left, and whenever a name is
  found, the scope that it is found in is open. -/
  depths : resolution.events.foldlM Event.depthAfter? 0 = some 0
  ids_nodup : (resolution.events.filterMap Event.boundId?).Nodup
  bindings : resolution.bindings =
    Bindings.empty.recordAll (resolution.events.filterMap Event.entry?)
  errors : resolution.events.filterMap Event.error? =
    resolution.diagnostics.map Diagnostic.display
  last : resolution.events.getLast? = some (.finished
    (resolution.events.filterMap Event.entry?).length
    (resolution.events.filterMap Event.error?).length)

/-- The resolution of a program is accounted for by its log if no number is bound twice: then the
table has one entry for each event. -/
theorem accounted_resolve {list : List Stmt}
    (h : ((resolve list).events.filterMap Event.boundId?).Nodup) :
    (resolve list).Accounted := by
  obtain ⟨events, hevents, hdepth, hbindings, hreported⟩ := Walk.logs_program list
  have hlog : (resolve list).events = .resolving list.length :: events ++ [.finished
      (Walk.program #[] list).bindings.size (Walk.program #[] list).diagnostics.size] := by
    rw [← hevents]
    exact Array.toList_push
  have hentries : (resolve list).events.filterMap Event.entry? =
      events.filterMap Event.entry? := by
    simp [hlog, List.filterMap_cons, Event.entry?]
  have herrors : (resolve list).events.filterMap Event.error? =
      (resolve list).diagnostics.map Diagnostic.display := by
    have hreports : (resolve list).events.filterMap Event.diagnostic? =
        (resolve list).diagnostics := by
      rw [hlog, show (resolve list).diagnostics = _ from hreported]
      simp [List.filterMap_cons, Event.diagnostic?]
    rw [funext Event.error?_eq, ← List.map_filterMap, hreports]
  have hsize : (Walk.program #[] list).bindings.size = (events.filterMap Event.entry?).length := by
    have hids : ((events.filterMap Event.entry?).map Prod.fst).Nodup := by
      rw [← hentries, List.map_filterMap]
      rwa [funext Event.boundId?_eq] at h
    rw [hbindings, Bindings.size_recordAll hids fun _ _ => rfl]
    exact Nat.zero_add _
  refine ⟨?_, h, by rw [hentries]; exact hbindings, herrors, ?_⟩
  · rw [hlog, List.foldlM_append, List.foldlM_cons]
    simp [Event.depthAfter?, hdepth]
  · rw [hentries, herrors, List.length_map, ← hsize, hlog, List.getLast?_concat]
    rfl

/-- The log of resolving a parsed program is a faithful account of it. -/
theorem Program.accounted_of_parse {tokens : List Token} {program : Program}
    (h : Program.parse tokens = .ok program) : (resolve program.statements).Accounted := by
  have hascends : (program.mentions.map Mention.id).Pairwise (· < ·) :=
    (Program.numbers_of_parse h).1.pairwise
  exact accounted_resolve ((boundIds_resolve program.statements).nodup (hascends.imp Nat.ne_of_lt))

/-- The text `{ let a; { a; let a = a; return; } }`. -/
def blamedText : List Token :=
  [.bare .openCurly "\x7b", .bare .letWord "let", .bare .identifier "a", .bare .semicolon ";",
    .bare .openCurly "\x7b", .bare .identifier "a", .bare .semicolon ";", .bare .letWord "let",
    .bare .identifier "a", .bare .assignment "=", .bare .identifier "a", .bare .semicolon ";",
    .bare .returnWord "return", .bare .semicolon ";", .bare .closeCurly "\x7d",
    .bare .closeCurly "\x7d", .bare .endOfInput "EOF"]

/-- There two names are found, one of them a scope further out, and two errors are reported. -/
theorem Program.accounted_of_parse_blamedText : ∃ program,
    Program.parse blamedText = .ok program ∧ (resolve program.statements).Accounted ∧
      (resolve program.statements).events.filterMap Event.entry? = [(0, 1), (1, 0)] ∧
      (resolve program.statements).events.getLast? = some (.finished 2 2) := by
  obtain ⟨program, h, hentries, hlast⟩ : ∃ program, Program.parse blamedText = .ok program ∧
      (resolve program.statements).events.filterMap Event.entry? = [(0, 1), (1, 0)] ∧
      (resolve program.statements).events.getLast? = some (.finished 2 2) :=
    ⟨_, eq_ok_get (by decide +kernel), by decide +kernel, by decide +kernel⟩
  exact ⟨program, h, Program.accounted_of_parse h, hentries, hlast⟩

end LexicalScoping
