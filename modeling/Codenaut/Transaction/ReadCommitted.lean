import Codenaut.Relational.Evolution

/-!
# Transactions under READ COMMITTED

Sessions that execute SQL statements on one keyed table, one statement a step.
A plain select reads the latest committed rows; a locking select, an update and
a flush of loaded rows wait for the row lock, act on the version they then find,
and hold the lock until the session ends. `Safe` is the rule to check a script
once, against every version that a statement may meet.
-/

set_option autoImplicit false

namespace Codenaut.Transaction

open Codenaut.Relational

variable {Row Key Note Label : Type}

/-- The statements of one session. Guards select by a unique key. `flush` writes
the changed attributes of a row that the application loaded earlier, by primary
key only. `note` records what the session tells its caller when it commits. -/
inductive Script (Row Note : Type) where
  | commit
  | rollback
  | fetch (guard : Row → Bool) (next : Option Row → Script Row Note)
  | scan (guard : Row → Bool) (next : List Row → Script Row Note)
  | lock (guard : Row → Bool) (next : Option Row → Script Row Note)
  | update (guard : Row → Bool) (change : Row → Row) (next : Option Row → Script Row Note)
  | flush (loaded : Row) (change : Row → Row) (next : Script Row Note)
  | note (entry : Note) (next : Script Row Note)

/-- A locked row: the committed version and the session's own. -/
structure Write (Row : Type) where
  base : Row
  current : Row
  deriving DecidableEq, Repr

structure Session (Row Note Label : Type) where
  label : Label
  script : Script Row Note
  writes : List (Write Row) := []
  notes : List Note := []

structure Commit (Row Note Label : Type) where
  label : Label
  writes : List (Write Row)
  notes : List Note
  deriving DecidableEq, Repr

/-- Sessions keep their place; a finished one has nothing left to execute. The
log has the newest commit first. -/
structure State (Row Note Label : Type) where
  table : List Row
  sessions : List (Session Row Note Label) := []
  log : List (Commit Row Note Label) := []

inductive Action (Label : Type) where
  | start (label : Label)
  | step (place : Nat)
  | abort (place : Nat)

section Execution

variable [DecidableEq Key] (key : Row → Key)

/-- A row as a session sees it: its own version if it wrote one. -/
def own (writes : List (Write Row)) (row : Row) : Row :=
  match writes.find? fun write => key write.base == key row with
  | some write => write.current
  | none => row

/-- Lock a row and store the session's version of it. -/
def put (writes : List (Write Row)) (row new : Row) : List (Write Row) :=
  if writes.any fun write => key write.base == key row then
    writes.map fun write =>
      if key write.base == key row then { write with current := new } else write
  else ⟨row, new⟩ :: writes

def holds (session : Session Row Note Label) (row : Key) : Bool :=
  session.writes.any fun write => key write.base == row

namespace State

variable (state : State Row Note Label)

def view (session : Session Row Note Label) : List Row :=
  state.table.map (own key session.writes)

def lockedElsewhere (place : Nat) (row : Key) : Bool :=
  (List.range state.sessions.length).any fun other =>
    other != place && (state.sessions[other]?).any fun session => holds key session row

def setSession (place : Nat) (session : Session Row Note Label) : State Row Note Label :=
  { state with sessions := state.sessions.set place session }

def finished (session : Session Row Note Label) : Session Row Note Label :=
  { label := session.label, script := .rollback }

def commit (place : Nat) (session : Session Row Note Label) : State Row Note Label where
  table := state.view key session
  sessions := state.sessions.set place (finished session)
  log := ⟨session.label, session.writes, session.notes⟩ :: state.log

/-- Act on one row under its lock, or wait for it. -/
def acquire (place : Nat) (session : Session Row Note Label) (found : Option Row)
    (change : Row → Row) (next : Option Row → Script Row Note) : State Row Note Label :=
  match found with
  | none => state.setSession place { session with script := next none }
  | some row =>
      if state.lockedElsewhere key place (key row) then state
      else state.setSession place { session with
        script := next (some (change row))
        writes := put key session.writes row (change row) }

/-- Execute the next statement of a session. -/
def execute (place : Nat) (session : Session Row Note Label) : State Row Note Label :=
  match session.script with
  | .commit => state.commit key place session
  | .rollback => state.setSession place (finished session)
  | .fetch guard next =>
      state.setSession place { session with
        script := next ((state.view key session).find? guard) }
  | .scan guard next =>
      state.setSession place { session with
        script := next ((state.view key session).filter guard) }
  | .lock guard next =>
      state.acquire key place session ((state.view key session).find? guard) id next
  | .update guard change next =>
      state.acquire key place session ((state.view key session).find? guard) change next
  | .flush loaded change next =>
      state.acquire key place session
        ((state.view key session).find? fun row => key row == key loaded) change
        fun found => if found.isSome then next else .rollback
  | .note entry next =>
      state.setSession place { session with script := next, notes := entry :: session.notes }

/-- A step of a session that does not exist or is blocked changes nothing. -/
def apply (program : Label → Script Row Note) : Action Label → State Row Note Label
  | .start label => { state with sessions := state.sessions ++ [{ label, script := program label }] }
  | .step place =>
      match state.sessions[place]? with
      | none => state
      | some session => state.execute key place session
  | .abort place =>
      match state.sessions[place]? with
      | none => state
      | some session => state.setSession place (finished session)

def run (program : Label → Script Row Note) (actions : List (Action Label)) :
    State Row Note Label :=
  actions.foldl (fun current action => current.apply key program action) state

/-- The flush that a step executes finds its row in a version that agrees with
the loaded one. Rows that the session locked are not constrained. -/
def freshStep (fresh : Row → Row → Bool) : Action Label → Bool
  | .step place =>
      match state.sessions[place]? with
      | none => true
      | some session =>
          match session.script with
          | .flush loaded _ _ =>
              holds key session (key loaded) || state.lockedElsewhere key place (key loaded) ||
                state.table.all fun row => key row != key loaded || fresh loaded row
          | _ => true
  | _ => true

/-- Every step of a run is fresh in the state where it is taken. -/
def freshRun (fresh : Row → Row → Bool) (program : Label → Script Row Note) :
    State Row Note Label → List (Action Label) → Bool
  | _, [] => true
  | state, action :: rest =>
      state.freshStep key fresh action &&
        freshRun fresh program (state.apply key program action) rest

end State

end Execution

end Codenaut.Transaction
