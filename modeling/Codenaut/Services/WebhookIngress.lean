import Codenaut.Services.Runs
import Codenaut.Services.WebhookRequests

/-!
# Concurrent webhook calls

Any number of `handle` calls at once, each between two statements, next to the
transactions of every other service. The insert of a delivery waits for a call
that holds an uncommitted row with the same delivery id.
-/

set_option autoImplicit false

namespace Codenaut.Services

open Codenaut.Core Codenaut.Db Codenaut.Indexing

/-- Where one call of `handle` stands. -/
inductive WebhookCall where
  | rejected (error : WebhookError)
  | checked (delivery : AuthenticDelivery)
  | inserted (delivery : AuthenticDelivery)
  | rolledBack (delivery : AuthenticDelivery)
  | duplicate (delivery : AuthenticDelivery)
  | enqueueing (delivery : AuthenticDelivery) (deliveryRow : DeliveryRowId) (jobId : JobId)
  | answered (delivery : AuthenticDelivery) (outcome : WebhookOutcome)
  deriving DecidableEq

/-- A call that has committed nothing. -/
def WebhookCall.uncommitted : WebhookCall → Bool
  | .enqueueing _ _ _ | .answered _ _ => false
  | _ => true

/-- The call holds an uncommitted row of a delivery id. -/
def WebhookCall.holds (deliveryId : String) : WebhookCall → Bool
  | .inserted delivery => delivery.deliveryId == deliveryId
  | _ => false

/-- A committed transaction, and the call that committed it. -/
structure LogEntry where
  call : Option Nat
  transaction : Transaction

/-- The committed database, the calls in their order of arrival, and the log of
committed transactions. -/
structure Ingress where
  database : Database := {}
  calls : List WebhookCall := []
  log : List LogEntry := []

/-- The transactions that only a webhook call makes. -/
def webhookOnly : Operation → Bool
  | .handle _ _ _ | .recordQueueFailure _ => true
  | _ => false

inductive IngressAction where
  | receive (request : WebhookRequest)
  | insert (call : Nat)
  | commit (moment : Moment) (call : Nat)
  | rollback (call : Nat)
  | enqueued (moment : Moment) (call : Nat)
  | refused (moment : Moment) (call : Nat)
  | unqueued (call : Nat)
  | serve (moment : Moment) (operation : Operation) (outsideCalls : webhookOnly operation = false)

def arrive (codec : WebhookCodec) (request : WebhookRequest) : WebhookCall :=
  match acceptRequest codec request with
  | .ok delivery => .checked delivery
  | .error error => .rejected error

namespace Ingress

def setCall (ingress : Ingress) (call : Nat) (state : WebhookCall) : Ingress :=
  { ingress with calls := ingress.calls.set call state }

/-- One committed transaction. -/
def commit (settings : Settings) (platform : Platform) (ingress : Ingress) (entry : LogEntry) :
    Ingress :=
  { ingress with
    database := entry.transaction.operation.apply settings platform entry.transaction.moment
      ingress.database
    log := ingress.log ++ [entry] }

/-- `INSERT … ON CONFLICT (delivery_id) DO NOTHING` of a checked delivery. -/
def insertDelivery (ingress : Ingress) (call : Nat) (delivery : AuthenticDelivery) : Ingress :=
  if ingress.calls.any (·.holds delivery.deliveryId) then ingress
  else if ingress.database.webhookDeliveries.any (·.deliveryId == delivery.deliveryId) then
    ingress.setCall call (.duplicate delivery)
  else ingress.setCall call (.inserted delivery)

/-- The rest of the transaction: committed as a whole, or rolled back. -/
def commitDelivery (settings : Settings) (platform : Platform) (ingress : Ingress)
    (moment : Moment) (call : Nat) (delivery : AuthenticDelivery) : Ingress :=
  match handle ingress.database moment.now delivery.deliveryId delivery.eventName
      delivery.payload with
  | none => ingress.setCall call (.rolledBack delivery)
  | some (outcome, job, _) =>
      let committed := ingress.commit settings platform ⟨some call, moment,
        .handle delivery.deliveryId delivery.eventName delivery.payload⟩
      match job with
      | none => committed.setCall call (.answered delivery outcome)
      | some jobId =>
          committed.setCall call
            (.enqueueing delivery (newDeliveryRow ingress.database) jobId)

def step (codec : WebhookCodec) (settings : Settings) (platform : Platform) (ingress : Ingress) :
    IngressAction → Ingress
  | .receive request => { ingress with calls := ingress.calls ++ [arrive codec request] }
  | .insert call =>
      match ingress.calls[call]? with
      | some (.checked delivery) => ingress.insertDelivery call delivery
      | _ => ingress
  | .commit moment call =>
      match ingress.calls[call]? with
      | some (.inserted delivery) =>
          ingress.commitDelivery settings platform moment call delivery
      | _ => ingress
  | .rollback call =>
      match ingress.calls[call]? with
      | some (.checked delivery) => ingress.setCall call (.rolledBack delivery)
      | some (.inserted delivery) => ingress.setCall call (.rolledBack delivery)
      | _ => ingress
  | .enqueued moment call =>
      match ingress.calls[call]? with
      | some (.enqueueing delivery _ jobId) =>
          (ingress.commit settings platform ⟨some call, moment, .recordEnqueued jobId⟩).setCall
            call (.answered delivery .accepted)
      | _ => ingress
  | .refused moment call =>
      match ingress.calls[call]? with
      | some (.enqueueing delivery deliveryRow _) =>
          (ingress.commit settings platform
            ⟨some call, moment, .recordQueueFailure deliveryRow⟩).setCall
            call (.answered delivery .accepted)
      | _ => ingress
  | .unqueued call =>
      match ingress.calls[call]? with
      | some (.enqueueing delivery _ _) => ingress.setCall call (.answered delivery .accepted)
      | _ => ingress
  | .serve moment operation _ => ingress.commit settings platform ⟨none, moment, operation⟩

/-- The states of any interleaving, from an empty database. -/
inductive Reachable (codec : WebhookCodec) (settings : Settings) (platform : Platform) :
    Ingress → Prop where
  | start : Reachable codec settings platform {}
  | step {ingress : Ingress} (action : IngressAction)
      (prior : Reachable codec settings platform ingress) :
      Reachable codec settings platform (ingress.step codec settings platform action)

def run (codec : WebhookCodec) (settings : Settings) (platform : Platform) (ingress : Ingress)
    (actions : List IngressAction) : Ingress :=
  actions.foldl (step codec settings platform) ingress

theorem Reachable.run {codec : WebhookCodec} {settings : Settings} {platform : Platform}
    {ingress : Ingress} (reachable : Reachable codec settings platform ingress)
    (actions : List IngressAction) :
    Reachable codec settings platform (ingress.run codec settings platform actions) := by
  induction actions generalizing ingress with
  | nil => exact reachable
  | cons action rest ih => exact ih (.step action reachable)

end Ingress

/-! ## Serial runs -/

/-- The database after the transactions of a log, one after another. -/
def replay (settings : Settings) (platform : Platform) (log : List LogEntry) : Database :=
  log.foldl (fun db entry =>
    entry.transaction.operation.apply settings platform entry.transaction.moment db) {}

/-- The delivery ids that the transactions of a log process. -/
def processedIds (log : List LogEntry) : List String :=
  log.filterMap fun entry =>
    match entry.transaction.operation with
    | .handle deliveryId _ _ => some deliveryId
    | _ => none

/-! ## The outcome of the enqueue -/

structure StatusOnly (old new : WebhookDelivery) : Prop where
  rest : new = { old with
    status := new.status
    safeErrorCode := new.safeErrorCode
    retryCount := new.retryCount }

structure EnqueueTimeOnly (old new : IndexingJob) : Prop where
  rest : new = { old with lastEnqueuedAt := new.lastEnqueuedAt }

/-- Nothing differs but the status fields of one delivery and the enqueue time
of one job. -/
structure QueueOutcome (deliveryRow : DeliveryRowId) (jobId : JobId) (db stored : Database) :
    Prop where
  tables : stored = { db with
    webhookDeliveries := stored.webhookDeliveries
    indexingJobs := stored.indexingJobs }
  deliveries : List.Forall₂ (fun old new => (old.id = deliveryRow → StatusOnly old new) ∧
    (old.id ≠ deliveryRow → new = old)) db.webhookDeliveries stored.webhookDeliveries
  jobs : List.Forall₂ (fun old new => (old.id = jobId → EnqueueTimeOnly old new) ∧
    (old.id ≠ jobId → new = old)) db.indexingJobs stored.indexingJobs

end Codenaut.Services
