import Codenaut.Services.DeliveryIdentity
import Codenaut.Services.WebhookIngress

/-!
# Exactly-once webhook processing

Every committed state is the one that a serial run of the logged transactions
leaves, in which each delivery id is processed at most once. A call that
committed nothing has no transaction in that run.
-/

set_option autoImplicit false

namespace Codenaut.Services

open Codenaut.Core Codenaut.Db Codenaut.Indexing Codenaut.Relational

/-! ## Logs -/

section Logs

variable {settings : Settings} {platform : Platform} {log : List LogEntry} {entry : LogEntry}

theorem replay_append (settings : Settings) (platform : Platform) (log : List LogEntry)
    (entry : LogEntry) :
    replay settings platform (log ++ [entry]) =
      entry.transaction.operation.apply settings platform entry.transaction.moment
        (replay settings platform log) := by
  simp [replay, List.foldl_append]

theorem processedIds_append (log : List LogEntry) (entry : LogEntry) :
    processedIds (log ++ [entry]) = processedIds log ++ processedIds [entry] := by
  simp only [processedIds, List.filterMap_append]

theorem processedIds_other (apart : entry.transaction.operation.isHandle = false) :
    processedIds (log ++ [entry]) = processedIds log := by
  rw [processedIds_append]
  obtain ⟨call, moment, operation⟩ := entry
  cases operation with
  | handle => cases apart
  | _ => exact List.append_nil _

end Logs

/-! ## Accounting -/

def WebhookCall.holdsRow : WebhookCall → Bool
  | .inserted _ => true
  | _ => false

/-- No transaction of the log belongs to the call. -/
def Silent (log : List LogEntry) (index : Nat) : Prop :=
  ∀ entry ∈ log, entry.call ≠ some index

/-- The transaction that processes a delivery, as a call commits it. -/
def processing (index : Nat) (moment : Moment) (delivery : AuthenticDelivery) : LogEntry :=
  ⟨some index, moment, .handle delivery.deliveryId delivery.eventName delivery.payload⟩

/-- What the log holds for a call in its current state. -/
def CallAccounted (db : Database) (log : List LogEntry) (index : Nat) : WebhookCall → Prop
  | .rejected _ | .checked _ | .rolledBack _ => Silent log index
  | .inserted delivery => Silent log index ∧ delivery.deliveryId ∉ processedIds log
  | .duplicate delivery => Silent log index ∧ delivery.deliveryId ∈ processedIds log
  | .enqueueing delivery deliveryRow _ =>
      (∃ moment, processing index moment delivery ∈ log) ∧
        (deliveryRow, delivery.deliveryId) ∈ deliveryKeys db
  | .answered delivery _ => ∃ moment, processing index moment delivery ∈ log

structure Accounted (settings : Settings) (platform : Platform) (ingress : Ingress) : Prop where
  replayed : ingress.database = replay settings platform ingress.log
  recorded : ingress.database.webhookDeliveries.map (·.deliveryId) = processedIds ingress.log
  once : (processedIds ingress.log).Nodup
  calls : ∀ (index : Nat) (call : WebhookCall), ingress.calls[index]? = some call →
    CallAccounted ingress.database ingress.log index call
  holder : ∀ (left right : Nat) (first second : AuthenticDelivery),
    ingress.calls[left]? = some (.inserted first) →
    ingress.calls[right]? = some (.inserted second) →
    first.deliveryId = second.deliveryId → left = right
  callers : ∀ entry ∈ ingress.log, ∀ index, entry.call = some index →
    index < ingress.calls.length

section Step

variable {codec : WebhookCodec} {settings : Settings} {platform : Platform} {ingress : Ingress}

theorem CallAccounted.silent {db : Database} {log : List LogEntry} {index : Nat}
    {call : WebhookCall} (accounted : CallAccounted db log index call)
    (uncommitted : call.uncommitted = true) : Silent log index := by
  cases call with
  | rejected | checked | rolledBack => exact accounted
  | inserted | duplicate => exact accounted.1
  | enqueueing | answered => cases uncommitted

/-- An entry of another call leaves the account of a call as it is. -/
theorem CallAccounted.append {db stored : Database} {log : List LogEntry} {index : Nat}
    {call : WebhookCall} {entry : LogEntry} (accounted : CallAccounted db log index call)
    (other : call.uncommitted = true → entry.call ≠ some index)
    (keys : ∀ key ∈ deliveryKeys db, key ∈ deliveryKeys stored)
    (unclaimed : ∀ delivery, call = .inserted delivery →
      delivery.deliveryId ∉ processedIds [entry]) :
    CallAccounted stored (log ++ [entry]) index call := by
  have silent : call.uncommitted = true → Silent log index → Silent (log ++ [entry]) index := by
    intro uncommitted kept candidate member
    rcases List.mem_append.mp member with old | new
    · exact kept candidate old
    · rw [List.mem_singleton.mp new]
      exact other uncommitted
  cases call with
  | rejected | checked | rolledBack => exact silent rfl accounted
  | inserted delivery =>
      refine ⟨silent rfl accounted.1, ?_⟩
      rw [processedIds_append, List.mem_append]
      exact not_or.mpr ⟨accounted.2, unclaimed delivery rfl⟩
  | duplicate delivery =>
      refine ⟨silent rfl accounted.1, ?_⟩
      rw [processedIds_append]
      exact List.mem_append_left _ accounted.2
  | enqueueing delivery deliveryRow jobId =>
      obtain ⟨⟨moment, member⟩, key⟩ := accounted
      exact ⟨⟨moment, List.mem_append_left _ member⟩, keys _ key⟩
  | answered delivery outcome =>
      obtain ⟨moment, member⟩ := accounted
      exact ⟨moment, List.mem_append_left _ member⟩

/-- A call after a move is the one that moved, or it stands. -/
theorem setCall_cases {index other : Nat} {state call : WebhookCall}
    (found : (ingress.setCall index state).calls[other]? = some call) :
    other = index ∧ call = state ∨ other ≠ index ∧ ingress.calls[other]? = some call := by
  simp only [Ingress.setCall, List.getElem?_set] at found
  split at found
  case isTrue same =>
      split at found
      · exact .inl ⟨same.symm, (Option.some.inj found).symm⟩
      · cases found
  case isFalse apart => exact .inr ⟨Ne.symm apart, found⟩

/-- A call moves on without a transaction. -/
theorem Accounted.setCall {index : Nat} {state : WebhookCall}
    (accounted : Accounted settings platform ingress)
    (moved : CallAccounted ingress.database ingress.log index state)
    (alone : ∀ delivery, state = .inserted delivery →
      ∀ (other : Nat) (second : AuthenticDelivery),
        ingress.calls[other]? = some (.inserted second) →
        second.deliveryId ≠ delivery.deliveryId) :
    Accounted settings platform (ingress.setCall index state) where
  replayed := accounted.replayed
  recorded := accounted.recorded
  once := accounted.once
  calls := by
    intro other call found
    rcases setCall_cases found with ⟨rfl, rfl⟩ | ⟨_, stands⟩
    · exact moved
    · exact accounted.calls other call stands
  holder := by
    intro left right first second leftFound rightFound same
    rcases setCall_cases leftFound with ⟨leftHere, leftState⟩ | ⟨_, leftStands⟩
    · rcases setCall_cases rightFound with ⟨rightHere, _⟩ | ⟨_, rightStands⟩
      · exact leftHere.trans rightHere.symm
      · exact (alone first leftState.symm right second rightStands same.symm).elim
    · rcases setCall_cases rightFound with ⟨_, rightState⟩ | ⟨_, rightStands⟩
      · exact (alone second rightState.symm left first leftStands same).elim
      · exact accounted.holder left right first second leftStands rightStands same
  callers := by
    intro entry member index found
    simp only [Ingress.setCall, List.length_set]
    exact accounted.callers entry member index found

theorem arrive_cases (codec : WebhookCodec) (request : WebhookRequest) :
    (∃ delivery, arrive codec request = .checked delivery) ∨
      ∃ error, arrive codec request = .rejected error := by
  unfold arrive
  cases acceptRequest codec request with
  | ok delivery => exact .inl ⟨delivery, rfl⟩
  | error error => exact .inr ⟨error, rfl⟩

/-- A call that holds no row moves on without a transaction. -/
theorem Accounted.released {index : Nat} {state : WebhookCall}
    (accounted : Accounted settings platform ingress)
    (moved : CallAccounted ingress.database ingress.log index state)
    (released : state.holdsRow = false) :
    Accounted settings platform (ingress.setCall index state) := by
  refine accounted.setCall moved fun delivery held => ?_
  rw [held] at released
  cases released

/-- A call after one more arrived. -/
theorem arrived_cases {calls : List WebhookCall} {arrived call : WebhookCall} {index : Nat}
    (found : (calls ++ [arrived])[index]? = some call) :
    calls[index]? = some call ∨ (index = calls.length ∧ call = arrived) := by
  rw [List.getElem?_append] at found
  split at found
  case isTrue => exact .inl found
  case isFalse beyond =>
      have last : index = calls.length := by
        obtain ⟨bound, _⟩ := List.getElem?_eq_some_iff.mp found
        simp only [List.length_cons, List.length_nil] at bound
        omega
      subst last
      exact .inr ⟨rfl, by simpa using found.symm⟩

theorem Accounted.receive (accounted : Accounted settings platform ingress)
    (request : WebhookRequest) :
    Accounted settings platform (ingress.step codec settings platform (.receive request)) where
  replayed := accounted.replayed
  recorded := accounted.recorded
  once := accounted.once
  calls := by
    intro index call found
    rcases arrived_cases found with old | ⟨rfl, rfl⟩
    · exact accounted.calls index call old
    · have silent : Silent ingress.log ingress.calls.length := by
        intro entry member same
        exact Nat.lt_irrefl _ (accounted.callers entry member _ same)
      rcases arrive_cases codec request with ⟨delivery, checked⟩ | ⟨error, rejected⟩
      · rw [checked]
        exact silent
      · rw [rejected]
        exact silent
  holder := by
    have old : ∀ (index : Nat) (delivery : AuthenticDelivery),
        (ingress.calls ++ [arrive codec request])[index]? = some (.inserted delivery) →
        ingress.calls[index]? = some (.inserted delivery) := by
      intro index delivery found
      rcases arrived_cases found with old | ⟨_, last⟩
      · exact old
      · rcases arrive_cases codec request with ⟨checked, state⟩ | ⟨error, state⟩
        · rw [state] at last
          cases last
        · rw [state] at last
          cases last
    intro left right first second leftFound rightFound same
    exact accounted.holder left right first second (old left first leftFound)
      (old right second rightFound) same
  callers := by
    intro entry member index found
    simp only [Ingress.step, List.length_append]
    exact Nat.lt_add_right _ (accounted.callers entry member index found)

/-- A transaction other than a delivery's, of a service or of a call that has
already committed its delivery. -/
theorem Accounted.commit (accounted : Accounted settings platform ingress) (entry : LogEntry)
    (apart : entry.transaction.operation.isHandle = false)
    (caller : ∀ index, entry.call = some index →
      ∃ call, ingress.calls[index]? = some call ∧ call.uncommitted = false) :
    Accounted settings platform (ingress.commit settings platform entry) where
  replayed := by
    rw [Ingress.commit, replay_append, accounted.replayed]
  recorded := by
    have keys := Operation.deliveryKeys settings platform entry.transaction.moment
      ingress.database apart
    rw [Ingress.commit, processedIds_other apart, ← accounted.recorded, ← deliveryKeys_ids,
      ← deliveryKeys_ids]
    exact congrArg (List.map Prod.snd) keys
  once := by
    rw [Ingress.commit, processedIds_other apart]
    exact accounted.once
  calls := by
    intro index call found
    refine (accounted.calls index call found).append ?_ ?_ ?_
    · intro uncommitted same
      obtain ⟨committed, stored, state⟩ := caller index same
      obtain rfl : call = committed := Option.some.inj (found.symm.trans stored)
      rw [uncommitted] at state
      cases state
    · intro key member
      have keys : deliveryKeys (ingress.commit settings platform entry).database =
          deliveryKeys ingress.database :=
        Operation.deliveryKeys settings platform _ _ apart
      rw [keys]
      exact member
    · intro delivery _
      have alone := @processedIds_other [] entry apart
      rw [List.nil_append] at alone
      rw [alone]
      exact List.not_mem_nil
  holder := accounted.holder
  callers := by
    intro candidate member index same
    rcases List.mem_append.mp member with old | new
    · exact accounted.callers candidate old index same
    · rw [List.mem_singleton.mp new] at same
      obtain ⟨call, found, _⟩ := caller index same
      exact (List.getElem?_eq_some_iff.mp found).1

/-- The transaction that processes a delivery whose row the call holds. -/
theorem Accounted.processed (accounted : Accounted settings platform ingress) {index : Nat}
    {delivery : AuthenticDelivery} (found : ingress.calls[index]? = some (.inserted delivery))
    {moment : Moment} {outcome : WebhookOutcome} {job : Option JobId} {stored : Database}
    (handled : handle ingress.database moment.now delivery.deliveryId delivery.eventName
      delivery.payload = some (outcome, job, stored)) {state : WebhookCall}
    (released : state.holdsRow = false)
    (moved : deliveryKeys stored =
        deliveryKeys ingress.database ++ [(newDeliveryRow ingress.database, delivery.deliveryId)] →
      CallAccounted stored (ingress.log ++ [processing index moment delivery]) index state) :
    Accounted settings platform
      ((ingress.commit settings platform (processing index moment delivery)).setCall index
        state) := by
  obtain ⟨silent, unprocessed⟩ := accounted.calls index _ found
  have database : (ingress.commit settings platform (processing index moment delivery)).database =
      stored := by
    simp [Ingress.commit, processing, Operation.apply, handled]
  have ids : processedIds (ingress.log ++ [processing index moment delivery]) =
      processedIds ingress.log ++ [delivery.deliveryId] := by
    rw [processedIds_append]
    rfl
  have unknown : ingress.database.webhookDeliveries.any
      (·.deliveryId == delivery.deliveryId) = false := by
    rw [← accounted.recorded] at unprocessed
    simpa using unprocessed
  have keys := handle_keys unknown handled
  refine ⟨?_, ?_, ?_, ?_, ?_, ?_⟩
  · simp only [Ingress.setCall, Ingress.commit, replay_append, accounted.replayed]
  · simp only [Ingress.setCall, database]
    rw [Ingress.commit, ids, ← accounted.recorded, ← deliveryKeys_ids, ← deliveryKeys_ids, keys,
      List.map_append]
    rfl
  · simp only [Ingress.setCall, Ingress.commit, ids]
    exact List.nodup_append.mpr ⟨accounted.once, by simp, by
      intro left leftMember right rightMember
      rw [List.mem_singleton.mp rightMember]
      rintro rfl
      exact unprocessed leftMember⟩
  · intro other call stands
    simp only [Ingress.setCall, database]
    rcases setCall_cases stands with ⟨rfl, rfl⟩ | ⟨apart, stood⟩
    · exact moved keys
    · refine (accounted.calls other call stood).append ?_ ?_ ?_
      · intro _ same
        exact apart (Option.some.inj same).symm
      · intro key member
        rw [keys]
        exact List.mem_append_left _ member
      · rintro held rfl
        have distinct : held.deliveryId ≠ delivery.deliveryId := fun same =>
          apart (accounted.holder other index held delivery stood found same)
        simpa [processedIds, processing] using distinct
  · intro left right first second leftFound rightFound same
    have elsewhere : ∀ (here : Nat) (held : AuthenticDelivery),
        ((ingress.commit settings platform (processing index moment delivery)).setCall index
          state).calls[here]? = some (.inserted held) →
        ingress.calls[here]? = some (.inserted held) := by
      intro here held stands
      rcases setCall_cases stands with ⟨_, moves⟩ | ⟨_, stood⟩
      · rw [← moves] at released
        cases released
      · exact stood
    exact accounted.holder left right first second (elsewhere left first leftFound)
      (elsewhere right second rightFound) same
  · intro entry member other same
    simp only [Ingress.setCall, Ingress.commit, List.length_set] at member ⊢
    rcases List.mem_append.mp member with old | new
    · exact accounted.callers entry old other same
    · rw [List.mem_singleton.mp new] at same
      cases same
      exact (List.getElem?_eq_some_iff.mp found).1

theorem Accounted.commitDelivery (accounted : Accounted settings platform ingress) {index : Nat}
    {delivery : AuthenticDelivery} (found : ingress.calls[index]? = some (.inserted delivery))
    (moment : Moment) :
    Accounted settings platform
      (ingress.commitDelivery settings platform moment index delivery) := by
  unfold Ingress.commitDelivery
  split
  case h_1 rejected =>
      have silent := (accounted.calls index _ found).1
      exact accounted.released silent rfl
  case h_2 outcome job stored handled =>
      have logged : ∃ at', processing index at' delivery ∈
          ingress.log ++ [processing index moment delivery] :=
        ⟨moment, List.mem_append_right _ (.head _)⟩
      dsimp only
      split
      case h_1 => exact accounted.processed found handled rfl fun _ => logged
      case h_2 jobId =>
          refine accounted.processed found handled rfl fun keys => ⟨logged, ?_⟩
          rw [keys]
          exact List.mem_append_right _ (.head _)

/-- An insert waits, finds the delivery processed, or takes its row. -/
theorem Accounted.insertDelivery (accounted : Accounted settings platform ingress) {index : Nat}
    {delivery : AuthenticDelivery} (found : ingress.calls[index]? = some (.checked delivery)) :
    Accounted settings platform (ingress.insertDelivery index delivery) := by
  have silent : Silent ingress.log index := accounted.calls index _ found
  unfold Ingress.insertDelivery
  split
  case isTrue => exact accounted
  case isFalse free =>
      split
      case isTrue known =>
          refine accounted.released ⟨silent, ?_⟩ rfl
          rw [← accounted.recorded]
          simpa using known
      case isFalse unknown =>
          refine accounted.setCall ⟨silent, ?_⟩ ?_
          · rw [← accounted.recorded]
            simpa using unknown
          · rintro _ ⟨⟩ other second stands same
            refine free (List.any_eq_true.mpr ⟨_, List.mem_of_getElem? stands, ?_⟩)
            simpa [WebhookCall.holds] using same

theorem Accounted.step (accounted : Accounted settings platform ingress)
    (action : IngressAction) :
    Accounted settings platform (ingress.step codec settings platform action) := by
  cases action with
  | receive request => exact accounted.receive request
  | insert index =>
      simp only [Ingress.step]
      split
      case h_1 delivery found => exact accounted.insertDelivery found
      case h_2 => exact accounted
  | commit moment index =>
      simp only [Ingress.step]
      split
      case h_1 delivery found => exact accounted.commitDelivery found moment
      case h_2 => exact accounted
  | rollback index =>
      simp only [Ingress.step]
      split
      case h_1 delivery found =>
          have silent : Silent ingress.log index := accounted.calls index _ found
          exact accounted.released silent rfl
      case h_2 delivery found =>
          have silent := (accounted.calls index _ found).1
          exact accounted.released silent rfl
      case h_3 => exact accounted
  | enqueued moment index =>
      simp only [Ingress.step]
      split
      case h_1 delivery deliveryRow jobId found =>
          have committed := accounted.commit ⟨some index, moment, .recordEnqueued jobId⟩ rfl
            (by rintro _ ⟨⟩; exact ⟨_, found, rfl⟩)
          have logged := (committed.calls index _ found).1
          exact committed.released logged rfl
      case h_2 => exact accounted
  | refused moment index =>
      simp only [Ingress.step]
      split
      case h_1 delivery deliveryRow jobId found =>
          have committed := accounted.commit
            ⟨some index, moment, .recordQueueFailure deliveryRow⟩ rfl
            (by rintro _ ⟨⟩; exact ⟨_, found, rfl⟩)
          have logged := (committed.calls index _ found).1
          exact committed.released logged rfl
      case h_2 => exact accounted
  | unqueued index =>
      simp only [Ingress.step]
      split
      case h_1 delivery deliveryRow jobId found =>
          have logged := (accounted.calls index _ found).1
          exact accounted.released logged rfl
      case h_2 => exact accounted
  | serve moment operation outsideCalls =>
      refine accounted.commit ⟨none, moment, operation⟩ ?_ nofun
      cases operation with
      | handle => cases outsideCalls
      | _ => rfl

theorem Ingress.Reachable.accounted
    (reachable : Ingress.Reachable codec settings platform ingress) :
    Accounted settings platform ingress := by
  induction reachable with
  | start => exact ⟨rfl, rfl, .nil, by simp, by simp, by simp⟩
  | step action _ ih => exact ih.step action

/-! ## The outcome of the enqueue -/

theorem forall₂_updateWhere {Row : Type} {Related : Row → Row → Prop} {guard : Row → Bool}
    {change : Row → Row} {rows : List Row}
    (related : ∀ row ∈ rows, Related row (if guard row then change row else row)) :
    List.Forall₂ Related rows (updateWhere guard change rows) := by
  induction rows with
  | nil => exact .nil
  | cons row rest ih =>
      exact .cons (related row (.head _)) (ih fun other member => related other (.tail _ member))

theorem recordEnqueued_outcome (db : Database) (now : Timestamp) (deliveryRow : DeliveryRowId)
    (jobId : JobId) : QueueOutcome deliveryRow jobId db (recordEnqueued db now jobId) where
  tables := rfl
  deliveries := by
    refine List.forall₂_same.mpr fun row _ => ⟨fun _ => ⟨rfl⟩, fun _ => rfl⟩
  jobs := by
    refine forall₂_updateWhere fun job _ => ?_
    constructor
    · intro same
      rw [if_pos (by simpa using same)]
      exact ⟨rfl⟩
    · intro other
      rw [if_neg (by simpa using other)]

theorem recordQueueFailure_outcome (db : Database) (deliveryRow : DeliveryRowId)
    (jobId : JobId) : QueueOutcome deliveryRow jobId db (recordQueueFailure db deliveryRow) where
  tables := rfl
  deliveries := by
    refine forall₂_updateWhere fun row _ => ?_
    constructor
    · intro same
      rw [if_pos (by simpa using same)]
      exact ⟨rfl⟩
    · intro other
      rw [if_neg (by simpa using other)]
  jobs := by
    refine List.forall₂_same.mpr fun row _ => ⟨fun _ => ⟨rfl⟩, fun _ => rfl⟩

end Step

/-- Processing is exactly-once and atomic: the database is the one of a serial
run that processes each delivery id at most once, in which a call that was
rejected, rolled back or found a duplicate has no part; a step that commits
nothing changes nothing; and the queue's answer touches the delivery's status
fields and the job's enqueue time alone. -/
structure ExactlyOnce (codec : WebhookCodec) (settings : Settings) (platform : Platform)
    (ingress : Ingress) : Prop where
  serial : ingress.database = replay settings platform ingress.log
  once : (processedIds ingress.log).Nodup
  silent : ∀ (index : Nat) (call : WebhookCall), ingress.calls[index]? = some call →
    call.uncommitted = true → ∀ entry ∈ ingress.log, entry.call ≠ some index
  answered : ∀ (index : Nat) (delivery : AuthenticDelivery) (outcome : WebhookOutcome),
    ingress.calls[index]? = some (.answered delivery outcome) →
      ∃ moment, processing index moment delivery ∈ ingress.log
  repeated : ∀ (index : Nat) (delivery : AuthenticDelivery),
    ingress.calls[index]? = some (.duplicate delivery) →
      delivery.deliveryId ∈ processedIds ingress.log
  unlogged : ∀ action, (ingress.step codec settings platform action).log = ingress.log →
    (ingress.step codec settings platform action).database = ingress.database
  enqueueing : ∀ (index : Nat) (delivery : AuthenticDelivery) (deliveryRow : DeliveryRowId)
    (jobId : JobId), ingress.calls[index]? = some (.enqueueing delivery deliveryRow jobId) →
      (deliveryRow, delivery.deliveryId) ∈ deliveryKeys ingress.database ∧
      (∃ moment, processing index moment delivery ∈ ingress.log) ∧
      ∀ moment,
        QueueOutcome deliveryRow jobId ingress.database
          (ingress.step codec settings platform (.enqueued moment index)).database ∧
        QueueOutcome deliveryRow jobId ingress.database
          (ingress.step codec settings platform (.refused moment index)).database

/-- Any number of calls, redeliveries among them, in any interleaving. -/
theorem deliveries_exactly_once {codec : WebhookCodec} {settings : Settings}
    {platform : Platform} {ingress : Ingress}
    (reachable : Ingress.Reachable codec settings platform ingress) :
    ExactlyOnce codec settings platform ingress := by
  have accounted := reachable.accounted
  refine ⟨accounted.replayed, accounted.once, ?_, ?_, ?_, ?_, ?_⟩
  · intro index call found uncommitted
    exact (accounted.calls index call found).silent uncommitted
  · intro index delivery outcome found
    exact accounted.calls index _ found
  · intro index delivery found
    exact (accounted.calls index _ found).2
  · intro action same
    have after : Accounted settings platform (ingress.step codec settings platform action) :=
      accounted.step action
    rw [after.replayed, same, accounted.replayed]
  · intro index delivery deliveryRow jobId found
    obtain ⟨logged, key⟩ := accounted.calls index _ found
    refine ⟨key, logged, fun moment => ⟨?_, ?_⟩⟩
    · simp only [Ingress.step, found]
      exact recordEnqueued_outcome ingress.database moment.now deliveryRow jobId
    · simp only [Ingress.step, found]
      exact recordQueueFailure_outcome ingress.database deliveryRow jobId

namespace Redelivery

/-- A body that is an installation event, under a fixed signature. -/
def codec : WebhookCodec where
  hexdigest := fun _ => "0000000000000000000000000000000000000000000000000000000000000000"
  decode := fun _ =>
    .ok { action := some "created", installation := some Onboarding.installation }

def request : WebhookRequest where
  body := []
  signature :=
    some "sha256=0000000000000000000000000000000000000000000000000000000000000000"
  deliveryId := some "first"
  eventName := some "installation"
  contentType := some "application/json; charset=utf-8"

/-- Two calls of one delivery: the second insert waits for the first commit. -/
def actions : List IngressAction :=
  [.receive request, .receive request, .insert 0, .insert 1, .commit { now := 1 } 0, .insert 1]

def answered : Ingress :=
  Ingress.run codec Onboarding.settings Onboarding.platform {} actions

end Redelivery

open Redelivery in
set_option maxRecDepth 100000 in
/-- The first call stores the installation; the second one finds a duplicate. -/
theorem redelivered_once :
    answered.calls.map WebhookCall.uncommitted = [false, true] ∧
    answered.database.githubInstallations.map (·.githubInstallationId) = [11] ∧
    processedIds answered.log = ["first"] ∧
    ExactlyOnce codec Onboarding.settings Onboarding.platform answered := by
  refine ⟨by decide, by decide, by decide, ?_⟩
  exact deliveries_exactly_once (.run .start actions)

end Codenaut.Services
