import Codenaut.Indexing.WorkerProperties
import Codenaut.Services.Runs
import Mathlib.Logic.Function.Basic
import Mathlib.Logic.Relation

/-!
# Workers, database and vector store together

The committed database, the shared vector collection and the claimed run of
each worker process. One step is one database transaction, one vector-store
call, or one answer of another service; the steps of all workers and services
interleave in any order.
-/

set_option autoImplicit false

namespace Codenaut.System

open Codenaut.Core Codenaut.Db Codenaut.Indexing Codenaut.Interaction Codenaut.Services
open Codenaut.Vector

/-- What is left of a claimed run, what it has seen, and the points of its
scope at its last validation. -/
structure Run where
  claimed : ClaimedJob
  program : Program Request Request.Reply (Except Failure Unit × RunState)
  view : RunView := {}
  snapshot : List VectorRecord := []

def Run.start (settings : Settings) (platform : Platform) (claimed : ClaimedJob) : Run where
  claimed := claimed
  program := (runClaimed settings platform).start {}

/-- A worker runs one claimed job at a time. `activeVectors` records, for each
repository, the points that the run validated which activated its index. -/
structure World where
  journal : Journal := { database := {} }
  points : List VectorRecord := []
  runs : WorkerId → Option Run := fun _ => none
  activeVectors : RepositoryId → List VectorRecord := fun _ => []

/-! ## Answers -/

/-- How the database ends a transaction: committed and answered, rolled back
with an error, or committed with the answer lost. -/
inductive Commit where
  | answered
  | rolledBack
  | unanswered
  deriving DecidableEq, Repr

/-- What one step of a run meets outside its process. -/
structure Outside where
  moment : Moment
  commit : Commit := .answered
  delivery : Delivery := .answered
  reply : (request : Request) → request.Reply

def callReply (settings : Settings) (platform : Platform) (outside : Outside)
    (claimed : ClaimedJob) (workerId : WorkerId) (db : Database) (call : StoreCall) :
    Except Failure call.Reply :=
  match call.transact settings platform outside.moment claimed workerId db with
  | .error failure => .error failure
  | .ok (answer, _) => if outside.commit = .answered then .ok answer else .error .internal

def ensureCollection : Delivery → Except Failure Unit
  | .answered => .ok ()
  | .refused failure | .interrupted _ failure => .error failure

/-- The reply to a request of one run. -/
def World.reply (settings : Settings) (platform : Platform) (world : World)
    (workerId : WorkerId) (claimed : ClaimedJob) (outside : Outside) :
    (request : Request) → request.Reply
  | .store call =>
      callReply settings platform outside claimed workerId world.journal.database call
  | .ensureCollection => ensureCollection outside.delivery
  | .deleteScope scope => (deleteScope outside.delivery scope world.points).1
  | .upsert scope records => (upsert settings outside.delivery scope records world.points).1
  | .validateScope scope expectedCount commitSha fingerprint =>
      validateScope outside.delivery scope expectedCount commitSha fingerprint world.points
  | .reusableVectors scope prepared commitSha fingerprint policy =>
      reusableVectors settings outside.delivery scope prepared commitSha fingerprint policy
        world.points
  | request => outside.reply request

/-- The collection after a request. -/
def pointsAfter (settings : Settings) (delivery : Delivery) (points : List VectorRecord) :
    Request → List VectorRecord
  | .deleteScope scope => (deleteScope delivery scope points).2
  | .upsert scope records => (upsert settings delivery scope records points).2
  | _ => points

/-- A validation keeps the points it accepted. -/
def Run.observe (run : Run) (points : List VectorRecord) :
    (request : Request) → request.Reply → List VectorRecord
  | .validateScope scope _ _ _, .ok _ => scopePoints scope points
  | _, _ => run.snapshot

def Run.advance (run : Run) (points : List VectorRecord) (request : Request)
    (next : request.Reply → Program Request Request.Reply (Except Failure Unit × RunState))
    (reply : request.Reply) : Run where
  claimed := run.claimed
  program := next reply
  view := run.view.learn request reply
  snapshot := run.observe points request reply

/-! ## Steps -/

/-- The transactions that only a worker's claimed run makes. -/
def runOnly : Operation → Bool
  | .claim _ _ | .store _ _ _ => true
  | _ => false

theorem runOnly_recoverAbandoned : runOnly .recoverAbandoned = false := rfl

inductive Action where
  | serve (moment : Moment) (operation : Operation) (outsideRuns : runOnly operation = false)
  | claim (moment : Moment) (workerId : WorkerId) (jobId : JobId)
  | work (workerId : WorkerId) (outside : Outside)
  | beat (moment : Moment) (workerId : WorkerId)
  | crash (workerId : WorkerId)

/-- The transaction that a run's next request commits. -/
def Run.transaction (run : Run) (workerId : WorkerId) (outside : Outside) : Option Transaction :=
  match run.program with
  | .ask (.store call) _ =>
      if outside.commit = .rolledBack then none
      else some ⟨outside.moment, .store run.claimed workerId call⟩
  | _ => none

namespace World

/-- The transaction that an action commits, if it is not rejected. -/
def transaction (world : World) : Action → Option Transaction
  | .serve moment operation _ => some ⟨moment, operation⟩
  | .claim moment workerId jobId =>
      if (world.runs workerId).isNone then some ⟨moment, .claim jobId workerId⟩ else none
  | .work workerId outside =>
      (world.runs workerId).bind fun run => run.transaction workerId outside
  | .beat moment workerId =>
      (world.runs workerId).map fun run => ⟨moment, .store run.claimed workerId .heartbeat⟩
  | .crash _ => none

def journalAfter (settings : Settings) (platform : Platform) (world : World) (action : Action) :
    Journal :=
  match world.transaction action with
  | none => world.journal
  | some entry => world.journal.apply settings platform entry.moment entry.operation

/-- The run of a worker after it answered its request; a finished run ends. -/
def runAfter (settings : Settings) (platform : Platform) (world : World) (workerId : WorkerId)
    (outside : Outside) (run : Run) : Option Run :=
  match run.program with
  | .done _ => none
  | .ask request next =>
      some (run.advance world.points request next
        (world.reply settings platform workerId run.claimed outside request))

/-- The run that a successful claim starts. -/
def claimedRun (settings : Settings) (platform : Platform) (world : World) (moment : Moment)
    (workerId : WorkerId) (jobId : JobId) : Option Run :=
  (Services.claim world.journal.database moment.now jobId workerId).1.map
    (Run.start settings platform)

def runsAfter (settings : Settings) (platform : Platform) (world : World) :
    Action → WorkerId → Option Run
  | .serve _ _ _ | .beat _ _ => world.runs
  | .claim moment workerId jobId =>
      if (world.runs workerId).isNone then
        Function.update world.runs workerId
          (world.claimedRun settings platform moment workerId jobId)
      else world.runs
  | .work workerId outside =>
      Function.update world.runs workerId
        ((world.runs workerId).bind (world.runAfter settings platform workerId outside))
  | .crash workerId => Function.update world.runs workerId none

def storedPoints (settings : Settings) (world : World) : Action → List VectorRecord
  | .work workerId outside =>
      match world.runs workerId with
      | none => world.points
      | some run =>
          match run.program with
          | .done _ => world.points
          | .ask request _ => pointsAfter settings outside.delivery world.points request
  | _ => world.points

/-- A committed activation hands over the points its run validated. -/
def activeVectorsAfter (settings : Settings) (platform : Platform) (world : World)
    (action : Action) : RepositoryId → List VectorRecord :=
  match action with
  | .work workerId _ =>
      match world.runs workerId with
      | none => world.activeVectors
      | some run =>
          if (world.journalAfter settings platform action).history.activations.length =
              world.journal.history.activations.length then world.activeVectors
          else Function.update world.activeVectors run.claimed.repositoryId run.snapshot
  | _ => world.activeVectors

def step (settings : Settings) (platform : Platform) (world : World) (action : Action) : World where
  journal := world.journalAfter settings platform action
  points := world.storedPoints settings action
  runs := world.runsAfter settings platform action
  activeVectors := world.activeVectorsAfter settings platform action

/-- One action that meets a condition on the state before it. -/
def Moves (settings : Settings) (platform : Platform) (condition : World → Action → Prop)
    (before after : World) : Prop :=
  ∃ action, condition before action ∧ after = before.step settings platform action

/-- Any number of actions that each meet the condition. -/
def Path (settings : Settings) (platform : Platform) (condition : World → Action → Prop) :
    World → World → Prop :=
  Relation.ReflTransGen (Moves settings platform condition)

/-- The states of any interleaving, from an empty database and collection. -/
def Reachable (settings : Settings) (platform : Platform) (world : World) : Prop :=
  Path settings platform (fun _ _ => True) {} world

end World

end Codenaut.System
