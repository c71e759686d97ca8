import Codenaut.Transaction.Rules
import Mathlib.Logic.Relation

/-!
# Transactions that insert rows

A session notes what it inserts. Its commit appends the noted rows, or rolls
back when a constraint of the table rejects them. What every allowed commit
preserves holds after every run; a property of open sessions may also rely on
what the commits of other sessions do to the table.
-/

set_option autoImplicit false

namespace Codenaut.Transaction

open Codenaut.Relational

variable {Row Key Note Label : Type} [DecidableEq Key] (key : Row → Key)

/-- The rows that notes insert into a table; `none` violates a constraint. -/
abbrev Insertion (Row Note : Type) : Type :=
  List Row → List Note → Option (List Row)

/-- Inserted rows have new keys. -/
def Insertion.Lawful (insertion : Insertion Row Note) : Prop :=
  ∀ table notes rows, UniqueKey key table → insertion table notes = some rows →
    UniqueKey key (table ++ rows)

namespace State

variable (insertion : Insertion Row Note) (state : State Row Note Label)

def commitInserting (place : Nat) (session : Session Row Note Label) : State Row Note Label :=
  match insertion (state.view key session) session.notes with
  | none => state.setSession place (finished session)
  | some rows =>
      { state.commit key place session with table := state.view key session ++ rows }

def advance (program : Label → Script Row Note) : Action Label → State Row Note Label
  | .step place =>
      match state.sessions[place]? with
      | none => state
      | some session =>
          match session.script with
          | .commit => state.commitInserting key insertion place session
          | _ => state.execute key place session
  | action => state.apply key program action

def advances (program : Label → Script Row Note) (actions : List (Action Label)) :
    State Row Note Label :=
  actions.foldl (fun current action => current.advance key insertion program action) state

/-- Any number of actions that each meet a condition on the state before it. -/
def Path (program : Label → Script Row Note)
    (condition : State Row Note Label → Action Label → Prop) :
    State Row Note Label → State Row Note Label → Prop :=
  Relation.ReflTransGen fun before after =>
    ∃ action, condition before action ∧ after = before.advance key insertion program action

/-- Every action of a list meets a condition in the state where it is taken. -/
def Meets (program : Label → Script Row Note)
    (condition : State Row Note Label → Action Label → Prop) :
    State Row Note Label → List (Action Label) → Prop
  | _, [] => True
  | state, action :: rest =>
      condition state action ∧ Meets program condition
        (state.advance key insertion program action) rest

instance Meets.decidable (program : Label → Script Row Note)
    (condition : State Row Note Label → Action Label → Bool) :
    (state : State Row Note Label) → (actions : List (Action Label)) →
      Decidable (Meets key insertion program (fun before action => condition before action = true)
        state actions)
  | _, [] => .isTrue trivial
  | state, action :: rest =>
      have := Meets.decidable program condition (state.advance key insertion program action) rest
      inferInstanceAs (Decidable (condition state action = true ∧ _))

end State

variable {key} {insertion : Insertion Row Note} {program : Label → Script Row Note}
  {condition : State Row Note Label → Action Label → Prop}

theorem State.path_advances {state : State Row Note Label} {actions : List (Action Label)}
    (meets : State.Meets key insertion program condition state actions) :
    State.Path key insertion program condition state
      (state.advances key insertion program actions) := by
  induction actions generalizing state with
  | nil => exact .refl
  | cons action rest ih => exact .head ⟨action, meets.1, rfl⟩ (ih meets.2)

theorem State.path_run (state : State Row Note Label) (actions : List (Action Label)) :
    State.Path key insertion program (fun _ _ => True) state
      (state.advances key insertion program actions) := by
  induction actions generalizing state with
  | nil => exact .refl
  | cons action rest ih => exact .head ⟨action, trivial, rfl⟩ (ih _)

/-! ## Steps -/

/-- No loaded version is rejected: for programs that flush only locked rows. -/
def unchecked : Row → Row → Bool := fun _ _ => true

theorem freshStep_unchecked (state : State Row Note Label) (action : Action Label) :
    state.freshStep key unchecked action = true := by
  cases action with
  | start | abort => rfl
  | step place =>
      simp only [State.freshStep]
      split
      · rfl
      · split <;> simp [unchecked]

variable {Final : Label → List (Write Row) → List Note → Prop} {state : State Row Note Label}

/-- One commit of a session, with the rows it inserts. -/
structure Commits (key : Row → Key) (insertion : Insertion Row Note)
    (Final : Label → List (Write Row) → List Note → Prop) (state after : State Row Note Label)
    (place : Nat) (session : Session Row Note Label) (rows : List Row) : Prop where
  located : state.sessions[place]? = some session
  ready : session.script = .commit
  written : Committed key state.table
    (⟨session.label, session.writes, session.notes⟩ : Commit Row Note Label)
  final : Final session.label session.writes session.notes
  inserted : insertion (state.table.map (own key session.writes)) session.notes = some rows
  after : after = { state.commit key place session with
    table := state.table.map (own key session.writes) ++ rows }

theorem Commits.table {after : State Row Note Label} {place : Nat}
    {session : Session Row Note Label} {rows : List Row}
    (commits : Commits key insertion Final state after place session rows) :
    after.table = state.table.map (own key session.writes) ++ rows := by
  rw [commits.after]

theorem Commits.log {after : State Row Note Label} {place : Nat}
    {session : Session Row Note Label} {rows : List Row}
    (commits : Commits key insertion Final state after place session rows) :
    after.log = ⟨session.label, session.writes, session.notes⟩ :: state.log := by
  rw [commits.after]
  rfl

theorem StateOk.commitInserting (lawful : insertion.Lawful key)
    (ok : StateOk key unchecked Final state) {place : Nat} {session : Session Row Note Label}
    (located : state.sessions[place]? = some session)
    (final : Final session.label session.writes session.notes) :
    StateOk key unchecked Final (state.commitInserting key insertion place session) := by
  unfold State.commitInserting
  split
  case h_1 =>
      exact ok.setSession located (.finished state.table session) (by simp [State.finished])
  case h_2 rows inserted =>
      have committed := ok.commit located final
      refine ⟨lawful _ _ rows committed.unique inserted, ?_, committed.apart, committed.log⟩
      intro other member
      have otherOk := committed.sessions other member
      exact ⟨otherOk.safe, fun write writeMember =>
        List.mem_append_left _ (otherOk.based write writeMember), otherOk.keyed, otherOk.distinct⟩

theorem StateOk.advance (lawful : insertion.Lawful key)
    (safe : SafeProgram key unchecked Final program) (ok : StateOk key unchecked Final state)
    (action : Action Label) :
    StateOk key unchecked Final (state.advance key insertion program action) := by
  cases action with
  | start label => exact ok.apply safe (freshStep_unchecked state (.start label))
  | abort place => exact ok.apply safe (freshStep_unchecked state (.abort place))
  | step place =>
      simp only [State.advance]
      split
      case h_1 => exact ok
      case h_2 session located =>
          split
          case h_1 ready =>
              have final := (ok.sessions session (List.mem_of_getElem? located)).safe
              rw [ready] at final
              exact ok.commitInserting lawful located final
          case h_2 => exact ok.execute located (freshStep_unchecked state _)

/-- A step leaves table and log alone, or it is one commit. -/
theorem StateOk.advance_cases (ok : StateOk key unchecked Final state) (action : Action Label) :
    ((state.advance key insertion program action).table = state.table ∧
      (state.advance key insertion program action).log = state.log) ∨
    ∃ place session rows, action = .step place ∧
      Commits key insertion Final state (state.advance key insertion program action) place session
        rows := by
  have unready : ∀ place session, state.sessions[place]? = some session →
      session.script ≠ .commit →
      (state.execute key place session).table = state.table ∧
        (state.execute key place session).log = state.log := by
    intro place session located other
    unfold State.execute
    split
    case h_1 ready => exact (other ready).elim
    case h_5 | h_6 | h_7 =>
        unfold State.acquire
        split
        · exact ⟨rfl, rfl⟩
        · split <;> exact ⟨rfl, rfl⟩
    all_goals exact ⟨rfl, rfl⟩
  cases action with
  | start label => exact .inl ⟨rfl, rfl⟩
  | abort place =>
      simp only [State.advance, State.apply]
      split <;> exact .inl ⟨rfl, rfl⟩
  | step place =>
      simp only [State.advance]
      split
      case h_1 => exact .inl ⟨rfl, rfl⟩
      case h_2 session located =>
          split
          case h_1 ready =>
              have sessionOk := ok.sessions session (List.mem_of_getElem? located)
              unfold State.commitInserting
              split
              case h_1 => exact .inl ⟨rfl, rfl⟩
              case h_2 rows inserted =>
                  have final := sessionOk.safe
                  rw [ready] at final
                  exact .inr ⟨place, session, rows, rfl, located, ready,
                    ⟨sessionOk.based, sessionOk.keyed, sessionOk.distinct⟩, final, inserted, rfl⟩
          case h_2 other => exact .inl (unready place session located fun ready => other ready)

/-! ## Runs -/

theorem State.Path.ok (lawful : insertion.Lawful key)
    (safe : SafeProgram key unchecked Final program) (ok : StateOk key unchecked Final state)
    {after : State Row Note Label} (path : State.Path key insertion program condition state after) :
    StateOk key unchecked Final after := by
  induction path with
  | refl => exact ok
  | tail _ moves ih =>
      obtain ⟨action, _, rfl⟩ := moves
      exact ih.advance lawful safe action

/-- A started session has the next place, and a session keeps its label. -/
theorem State.advance_labels (state : State Row Note Label) (action : Action Label) :
    (state.advance key insertion program action).sessions.map (·.label) =
      match action with
      | .start label => state.sessions.map (·.label) ++ [label]
      | _ => state.sessions.map (·.label) := by
  have kept : ∀ (place : Nat) (session next : Session Row Note Label),
      state.sessions[place]? = some session → next.label = session.label →
      (state.sessions.set place next).map (·.label) = state.sessions.map (·.label) := by
    intro place session next located same
    rw [List.map_set, same]
    refine List.ext_getElem? fun other => ?_
    by_cases here : place = other
    · subst here
      obtain ⟨inside, rfl⟩ := List.getElem?_eq_some_iff.mp located
      simp [inside]
    · simp [here]
  cases action with
  | start label => simp [State.advance, State.apply]
  | abort place =>
      simp only [State.advance, State.apply]
      split
      case h_1 => rfl
      case h_2 session located => exact kept place session _ located rfl
  | step place =>
      simp only [State.advance]
      split
      case h_1 => rfl
      case h_2 session located =>
          have keeps := fun next => kept place session next located
          split
          case h_1 =>
              unfold State.commitInserting
              split <;> exact keeps _ rfl
          case h_2 =>
              unfold State.execute
              split
              case h_5 | h_6 | h_7 =>
                  unfold State.acquire
                  split
                  · exact keeps _ rfl
                  · split
                    · rfl
                    · exact keeps _ rfl
              all_goals exact keeps _ rfl

theorem State.label_of_advance {state : State Row Note Label} {action : Action Label}
    {label : Label}
    (member : label ∈ (state.advance key insertion program action).sessions.map (·.label)) :
    label ∈ state.sessions.map (·.label) ∨ action = .start label := by
  rw [State.advance_labels] at member
  cases action with
  | start started =>
      rcases List.mem_append.mp member with earlier | here
      · exact .inl earlier
      · rw [List.mem_singleton.mp here]
        exact .inr rfl
  | step place | abort place => exact .inl member

/-- What every commit preserves holds at the end of every run. -/
theorem State.Path.rule (lawful : insertion.Lawful key)
    (safe : SafeProgram key unchecked Final program) (ok : StateOk key unchecked Final state)
    (Good : List Row → List (Commit Row Note Label) → Prop) (start : Good state.table state.log)
    (step : ∀ before after place session rows, StateOk key unchecked Final before →
      Good before.table before.log →
      Commits key insertion Final before after place session rows → Good after.table after.log)
    {after : State Row Note Label} (path : State.Path key insertion program condition state after) :
    Good after.table after.log := by
  induction path with
  | refl => exact start
  | tail prior moves ih =>
      obtain ⟨action, _, rfl⟩ := moves
      have priorOk := State.Path.ok lawful safe ok prior
      rcases priorOk.advance_cases action with ⟨table, log⟩ | ⟨place, session, rows, _, commits⟩
      · rw [table, log]
        exact ih
      · exact step _ _ place session rows priorOk ih commits

/-! ## Open sessions -/

/-- One statement of a session on a table, once no other session blocks it. -/
inductive Executes (key : Row → Key) (table : List Row) (session : Session Row Note Label) :
    Session Row Note Label → Prop where
  | fetch {guard : Row → Bool} {next : Option Row → Script Row Note}
      (script : session.script = .fetch guard next) :
      Executes key table session { session with
        script := next ((table.map (own key session.writes)).find? guard) }
  | scan {guard : Row → Bool} {next : List Row → Script Row Note}
      (script : session.script = .scan guard next) :
      Executes key table session { session with
        script := next ((table.map (own key session.writes)).filter guard) }
  | lockNone {guard : Row → Bool} {next : Option Row → Script Row Note}
      (script : session.script = .lock guard next)
      (found : (table.map (own key session.writes)).find? guard = none) :
      Executes key table session { session with script := next none }
  | lock {guard : Row → Bool} {next : Option Row → Script Row Note} {row : Row}
      (script : session.script = .lock guard next)
      (found : (table.map (own key session.writes)).find? guard = some row) :
      Executes key table session { session with
        script := next (some row)
        writes := put key session.writes row row }
  | updateNone {guard : Row → Bool} {change : Row → Row} {next : Option Row → Script Row Note}
      (script : session.script = .update guard change next)
      (found : (table.map (own key session.writes)).find? guard = none) :
      Executes key table session { session with script := next none }
  | update {guard : Row → Bool} {change : Row → Row} {next : Option Row → Script Row Note}
      {row : Row} (script : session.script = .update guard change next)
      (found : (table.map (own key session.writes)).find? guard = some row) :
      Executes key table session { session with
        script := next (some (change row))
        writes := put key session.writes row (change row) }
  | flushNone {loaded : Row} {change : Row → Row} {next : Script Row Note}
      (script : session.script = .flush loaded change next) :
      Executes key table session { session with script := .rollback }
  | flush {loaded row : Row} {change : Row → Row} {next : Script Row Note}
      (script : session.script = .flush loaded change next)
      (found : (table.map (own key session.writes)).find? (fun row => key row == key loaded) =
        some row) :
      Executes key table session { session with
        script := next
        writes := put key session.writes row (change row) }
  | note {entry : Note} {next : Script Row Note} (script : session.script = .note entry next) :
      Executes key table session { session with script := next, notes := entry :: session.notes }

/-- Where a session that stands after a step without commit comes from. -/
inductive Stands (key : Row → Key) (program : Label → Script Row Note)
    (state : State Row Note Label) (action : Action Label) (place : Nat) :
    Session Row Note Label → Prop where
  | kept {session : Session Row Note Label} (located : state.sessions[place]? = some session) :
      Stands key program state action place session
  | started (label : Label) :
      Stands key program state action place { label, script := program label }
  | ended (session : Session Row Note Label) :
      Stands key program state action place (State.finished session)
  | executed {session next : Session Row Note Label} (step : action = .step place)
      (located : state.sessions[place]? = some session)
      (executes : Executes key state.table session next) :
      Stands key program state action place next

section Standing

variable {action : Action Label} {place other : Nat} {session next standing : Session Row Note Label}

theorem Stands.set (moved : Stands key program state action place next)
    (located : (state.setSession place next).sessions[other]? = some standing) :
    Stands key program state action other standing := by
  simp only [State.setSession, List.getElem?_set] at located
  split at located
  case isTrue same =>
      subst same
      split at located
      · cases located
        exact moved
      · cases located
  case isFalse => exact .kept located

theorem Stands.acquire {found : Option Row} {change : Row → Row}
    {next : Option Row → Script Row Note}
    (absent : found = none →
      Stands key program state action place { session with script := next none })
    (present : ∀ row, found = some row → Stands key program state action place { session with
      script := next (some (change row))
      writes := put key session.writes row (change row) })
    (located : (state.acquire key place session found change next).sessions[other]? =
      some standing) : Stands key program state action other standing := by
  unfold State.acquire at located
  split at located
  case h_1 => exact (absent rfl).set located
  case h_2 row =>
      split at located
      · exact .kept located
      · exact (present row rfl).set located

theorem stands_of_execute (here : state.sessions[place]? = some session)
    (unready : session.script ≠ .commit)
    (located : (state.execute key place session).sessions[other]? = some standing) :
    Stands key program state (.step place) other standing := by
  have executed : ∀ next, Executes key state.table session next →
      Stands key program state (.step place) place next := fun _ => .executed rfl here
  unfold State.execute at located
  split at located
  case h_1 ready => exact (unready ready).elim
  case h_2 => exact (Stands.ended session).set located
  case h_3 guard next script => exact (executed _ (.fetch script)).set located
  case h_4 guard next script => exact (executed _ (.scan script)).set located
  case h_5 guard next script =>
      exact Stands.acquire (fun found => executed _ (.lockNone script found))
        (fun row found => executed _ (.lock script found)) located
  case h_6 guard change next script =>
      exact Stands.acquire (fun found => executed _ (.updateNone script found))
        (fun row found => executed _ (.update script found)) located
  case h_7 loaded change next script =>
      exact Stands.acquire (fun _ => executed _ (.flushNone script))
        (fun row found => executed _ (.flush script found)) located
  case h_8 entry next script => exact (executed _ (.note script)).set located

/-- The sessions after one step: all but a committing one stand on their own. -/
theorem StateOk.advance_sessions (ok : StateOk key unchecked Final state)
    (located : (state.advance key insertion program action).sessions[other]? = some standing) :
    (((state.advance key insertion program action).table = state.table ∧
        (state.advance key insertion program action).log = state.log) ∧
      Stands key program state action other standing) ∨
    ∃ place session rows, action = .step place ∧
      Commits key insertion Final state (state.advance key insertion program action) place session
        rows ∧
      (standing = State.finished session ∨
        other ≠ place ∧ state.sessions[other]? = some standing) := by
  have outcome : ((state.advance key insertion program action).table = state.table ∧
      (state.advance key insertion program action).log = state.log) ∨
      ∃ place session rows, action = .step place ∧ Commits key insertion Final state
        (state.advance key insertion program action) place session rows := ok.advance_cases action
  rcases outcome with same | ⟨place, session, rows, rfl, commits⟩
  · refine .inl ⟨same, ?_⟩
    cases action with
    | start label =>
        simp only [State.advance, State.apply, List.getElem?_append, List.getElem?_singleton]
          at located
        split at located
        case isTrue => exact .kept located
        case isFalse =>
            split at located <;> cases located
            exact .started label
    | abort place =>
        simp only [State.advance, State.apply] at located
        split at located
        case h_1 => exact .kept located
        case h_2 session here => exact (Stands.ended session).set located
    | step place =>
        simp only [State.advance] at located
        split at located
        case h_1 => exact .kept located
        case h_2 session here =>
            split at located
            case h_1 ready =>
                unfold State.commitInserting at located
                split at located
                · exact (Stands.ended session).set located
                · exact (Stands.ended session).set located
            case h_2 unready => exact stands_of_execute here (fun ready => unready ready) located
  · refine .inr ⟨place, session, rows, rfl, commits, ?_⟩
    rw [commits.after] at located
    simp only [State.commit, List.getElem?_set] at located
    split at located
    case isTrue same =>
        split at located
        · exact .inl (Option.some.inj located).symm
        · cases located
    case isFalse apart => exact .inr ⟨fun same => apart same.symm, located⟩

end Standing

/-- A property of open sessions that their own statements preserve while the
condition holds, and that the commits of other sessions do not break. -/
theorem State.Path.sessions_rule (lawful : insertion.Lawful key)
    (safe : SafeProgram key unchecked Final program) (ok : StateOk key unchecked Final state)
    (Inv : List Row → List (Commit Row Note Label) → Session Row Note Label → Prop)
    (held : ∀ session ∈ state.sessions, Inv state.table state.log session)
    (started : ∀ table log label, Inv table log { label, script := program label })
    (ended : ∀ table log session, Inv table log (State.finished session))
    (own : ∀ before place session next, StateOk key unchecked Final before →
      condition before (.step place) → before.sessions[place]? = some session →
      Inv before.table before.log session → Executes key before.table session next →
      Inv before.table before.log next)
    (others : ∀ before after place session rows, StateOk key unchecked Final before →
      condition before (.step place) →
      Commits key insertion Final before after place session rows →
      ∀ (other : Nat) standing, other ≠ place → before.sessions[other]? = some standing →
        Inv before.table before.log standing → Inv after.table after.log standing)
    {after : State Row Note Label} (path : State.Path key insertion program condition state after) :
    StateOk key unchecked Final after ∧
      ∀ session ∈ after.sessions, Inv after.table after.log session := by
  induction path with
  | refl => exact ⟨ok, held⟩
  | tail prior moves ih =>
      obtain ⟨action, met, rfl⟩ := moves
      obtain ⟨priorOk, priorHeld⟩ := ih
      refine ⟨priorOk.advance lawful safe action, ?_⟩
      intro standing member
      obtain ⟨other, located⟩ := List.mem_iff_getElem?.mp member
      rcases priorOk.advance_sessions located with
        ⟨⟨table, log⟩, stands⟩ | ⟨place, session, rows, rfl, commits, rfl | ⟨apart, before⟩⟩
      · rw [table, log]
        cases stands with
        | kept before => exact priorHeld _ (List.mem_of_getElem? before)
        | started label => exact started _ _ label
        | ended session => exact ended _ _ session
        | executed step before executes =>
            subst step
            exact own _ _ _ _ priorOk met before (priorHeld _ (List.mem_of_getElem? before)) executes
      · exact ended _ _ session
      · exact others _ _ place session rows priorOk met commits other standing apart before
          (priorHeld _ (List.mem_of_getElem? before))

end Codenaut.Transaction
