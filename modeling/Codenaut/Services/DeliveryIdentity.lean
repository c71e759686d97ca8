import Codenaut.Services.DeliverySettlement

/-!
# Delivery identifiers

A delivery row keeps its key and its delivery id through every transaction, and
only an accepted `handle` adds one.
-/

set_option autoImplicit false

namespace Codenaut.Services

open Codenaut.Core Codenaut.Db Codenaut.Indexing Codenaut.Relational

def deliveryKeys (db : Database) : List (DeliveryRowId × String) :=
  db.webhookDeliveries.map fun row => (row.id, row.deliveryId)

/-- The change of a delivery row that no statement breaks. -/
def SameDelivery (change : WebhookDelivery → WebhookDelivery) : Prop :=
  ∀ row, ((change row).id, (change row).deliveryId) = (row.id, row.deliveryId)

section Keys

variable {db stored : Database}

theorem deliveryKeys_ids (db : Database) :
    (deliveryKeys db).map Prod.snd = db.webhookDeliveries.map (·.deliveryId) := by
  rw [deliveryKeys, List.map_map]
  rfl

theorem deliveryKeys_congr (same : stored.webhookDeliveries = db.webhookDeliveries) :
    deliveryKeys stored = deliveryKeys db := by
  simp only [deliveryKeys, same]

theorem updateDeliveries_keys (db : Database) (guard : WebhookDelivery → Bool)
    {change : WebhookDelivery → WebhookDelivery} (same : SameDelivery change) :
    deliveryKeys (db.updateDeliveries guard change) = deliveryKeys db :=
  map_updateWhere (fun row : WebhookDelivery => (row.id, row.deliveryId)) same _

theorem updateDelivery_keys (db : Database) (deliveryRow : DeliveryRowId)
    {change : WebhookDelivery → WebhookDelivery} (same : SameDelivery change) :
    deliveryKeys (updateDelivery db deliveryRow change) = deliveryKeys db :=
  updateDeliveries_keys db _ same

theorem updateFirstDelivery_keys (db : Database) (jobId : JobId)
    {change : WebhookDelivery → WebhookDelivery} (same : SameDelivery change) :
    deliveryKeys (db.updateFirstDelivery jobId change) = deliveryKeys db := by
  unfold Database.updateFirstDelivery
  split
  · rfl
  · exact updateDeliveries_keys db _ same

/-! ## Endings -/

theorem StoreCall.deliveryKeys {settings : Settings} {platform : Platform} {moment : Moment}
    {claimed : ClaimedJob} {workerId : WorkerId} {call : StoreCall} {reply : call.Reply}
    (success : call.transact settings platform moment claimed workerId db = .ok (reply, stored)) :
    deliveryKeys stored = deliveryKeys db := by
  cases ends : (call.cause claimed workerId).ends with
  | false => exact deliveryKeys_congr (deliveries_kept ends success)
  | true =>
      cases call with
      | markStale code superseded =>
          cases success
          unfold Services.markStale
          split
          · rfl
          · refine updateFirstDelivery_keys _ _ ?_
            exact fun _ => rfl
      | cancelRevoked =>
          cases success
          unfold Services.cancelRevoked
          split
          · rfl
          · refine updateFirstDelivery_keys _ _ ?_
            exact fun _ => rfl
      | fail code safeMessage retryable =>
          have answered := congrArg Prod.snd (Except.ok.inj success)
          dsimp only at answered
          rw [← answered]
          unfold Services.fail
          dsimp only
          split
          · rfl
          · refine updateFirstDelivery_keys _ _ ?_
            exact fun _ => rfl
      | activate commitSha =>
          obtain ⟨job, repository, build, _, _, rfl⟩ := activate_stored success
          have completed : SameDelivery (completedDelivery moment.now) := fun _ => rfl
          rw [updateFirstDelivery_keys _ _ completed]
          unfold activatedDatabase activatedBuilds supersedePrevious
          split <;> rfl
      | _ => cases ends

theorem recoverJobs_keys (settings : Settings) (now : Timestamp) (jobs : List IndexingJob)
    (db : Database) : deliveryKeys (jobs.foldl (recoverJob settings now) db) = deliveryKeys db := by
  induction jobs generalizing db with
  | nil => rfl
  | cons job rest ih =>
      rw [List.foldl_cons, ih]
      exact updateDeliveries_keys _ _ fun _ => rfl

/-! ## Events -/

theorem finishDelivery_keys (db : Database) (now : Timestamp) (deliveryRow : DeliveryRowId)
    (status : WebhookDeliveryStatus) (safeErrorCode : String) :
    deliveryKeys (finishDelivery db now deliveryRow status safeErrorCode) = deliveryKeys db :=
  updateDelivery_keys db deliveryRow fun _ => rfl

theorem pushTo_keys (db : Database) (now : Timestamp) (deliveryRow : DeliveryRowId)
    (repository : Repository) (ref : String) (before after : CommitSha) (forced deleted : Bool) :
    deliveryKeys (pushTo db now deliveryRow repository ref before after forced deleted).2 =
      deliveryKeys db := by
  have noted : deliveryKeys (updateDelivery db deliveryRow fun delivery => { delivery with
      repositoryId := some repository.id
      ref := some ref
      beforeCommitSha := some before
      afterCommitSha := some after }) = deliveryKeys db :=
    updateDelivery_keys db deliveryRow fun _ => rfl
  unfold pushTo
  dsimp only
  split
  · exact (finishDelivery_keys _ now deliveryRow _ _).trans noted
  · split
    · exact (finishDelivery_keys _ now deliveryRow _ _).trans noted
    · split
      · exact (finishDelivery_keys _ now deliveryRow _ _).trans noted
      · split
        · refine (updateDelivery_keys _ deliveryRow ?_).trans noted
          exact fun _ => rfl
        · exact noted

theorem applyPush_keys (db : Database) (now : Timestamp) (deliveryRow : DeliveryRowId)
    (githubInstallationId githubRepositoryId : Nat) (ref : String) (before after : CommitSha)
    (forced deleted : Bool) :
    deliveryKeys (applyPush db now deliveryRow githubInstallationId githubRepositoryId ref before
      after forced deleted).2 = deliveryKeys db := by
  unfold applyPush
  split
  · exact finishDelivery_keys db now deliveryRow _ _
  · split
    · exact finishDelivery_keys db now deliveryRow _ _
    · exact pushTo_keys db now deliveryRow _ ref before after forced deleted

theorem applyRepositoryMetadata_keys {now : Timestamp} {deliveryRow : DeliveryRowId}
    {githubInstallationId : Nat} {external : GitHub.Repository} {result : Option JobId × Database}
    (applied : applyRepositoryMetadata db now deliveryRow githubInstallationId external =
      some result) : deliveryKeys result.2 = deliveryKeys db := by
  unfold applyRepositoryMetadata at applied
  split at applied
  · cases applied
    exact finishDelivery_keys db now deliveryRow _ _
  · split at applied
    · cases applied
      exact finishDelivery_keys db now deliveryRow _ _
    case h_2 repository found =>
      dsimp only at applied
      simp only [Option.map_eq_some_iff] at applied
      obtain ⟨described, flushed, same⟩ := applied
      have kept : deliveryKeys described = deliveryKeys db := by
        rw [flushRepositories_eq flushed]
        exact updateDelivery_keys db deliveryRow fun _ => rfl
      split at same <;> cases same <;> exact kept

theorem applyEvent_keys {now : Timestamp} {deliveryRow : DeliveryRowId} {event : WebhookEvent}
    {result : Option JobId × Database}
    (applied : applyEvent db now deliveryRow event = some result) :
    deliveryKeys result.2 = deliveryKeys db := by
  cases event with
  | installation action external sender =>
      cases applied
      exact deliveryKeys_congr (applyInstallation_deliveries _ _ _ _ _)
  | repositoryAccess external added removed =>
      simp only [applyEvent, Option.map_eq_some_iff] at applied
      obtain ⟨accessed, accepted, rfl⟩ := applied
      exact deliveryKeys_congr (applyRepositoryAccess_deliveries accepted)
  | push githubInstallationId githubRepositoryId ref before after forced deleted =>
      rw [← Option.some.inj applied]
      exact applyPush_keys db now deliveryRow githubInstallationId githubRepositoryId ref before
        after forced deleted
  | repositoryDeleted githubInstallationId external =>
      cases applied
      exact deliveryKeys_congr (deleteRepository_deliveries _ _ _ _)
  | repositoryMetadata githubInstallationId external =>
      exact applyRepositoryMetadata_keys applied
  | unsupported =>
      cases applied
      exact updateDelivery_keys db deliveryRow fun _ => rfl

/-- A handled delivery is a duplicate, or it adds its own row. -/
theorem handle_keys {now : Timestamp} {deliveryId eventName : String}
    {payload : GitHub.WebhookPayload} {outcome : WebhookOutcome} {job : Option JobId}
    (unknown : db.webhookDeliveries.any (·.deliveryId == deliveryId) = false)
    (handled : handle db now deliveryId eventName payload = some (outcome, job, stored)) :
    deliveryKeys stored = deliveryKeys db ++ [(newDeliveryRow db, deliveryId)] := by
  unfold handle at handled
  split at handled
  · cases handled
  · rw [if_neg (by simp [unknown])] at handled
    simp only [Option.map_eq_some_iff] at handled
    obtain ⟨⟨created, applied⟩, event, same⟩ := handled
    cases same
    have settled : SameDelivery (settleDelivery now created) := by
      intro row
      unfold settleDelivery
      split
      · rfl
      · split <;> rfl
    rw [updateDelivery_keys applied (newDeliveryRow db) settled, applyEvent_keys event]
    simp [deliveryKeys, receiveDelivery]

/-! ## Any transaction -/

def Operation.isHandle : Operation → Bool
  | .handle _ _ _ => true
  | _ => false

theorem Operation.deliveryKeys (settings : Settings) (platform : Platform) (moment : Moment)
    (db : Database) {operation : Operation} (apart : operation.isHandle = false) :
    deliveryKeys (operation.apply settings platform moment db) = deliveryKeys db := by
  cases silent : operation.writesDeliveries with
  | false => exact deliveryKeys_congr (deliveries_kept settings platform moment db silent)
  | true =>
      cases operation with
      | claim jobId workerId =>
          simp only [Operation.apply, Services.claim]
          split
          · rfl
          · split
            · rfl
            · exact updateDeliveries_keys _ _ fun _ => rfl
      | store claimed workerId call =>
          simp only [Operation.apply, StoreCall.apply]
          split
          case h_1 stored success => exact StoreCall.deliveryKeys success
          case h_2 => rfl
      | recoverAbandoned => exact recoverJobs_keys settings moment.now _ db
      | recordQueueFailure deliveryRow => exact updateDelivery_keys db deliveryRow fun _ => rfl
      | handle => cases apart
      | _ => cases silent

end Keys

end Codenaut.Services
