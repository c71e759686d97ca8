import Codenaut.Agent.ActiveIndex
import Codenaut.Services.IndexingStatus

/-!
# Statuses from which an index loads

No transaction takes a repository out of the statuses from which its index
loads, except a revocation of its access and the cancellation of a run that was
not authorized.
-/

set_option autoImplicit false

namespace Codenaut.Services

open Codenaut.Agent Codenaut.Core Codenaut.Db Codenaut.Indexing Codenaut.Relational

/-- The status of this repository lets its index load. -/
def Servable (repositoryId : RepositoryId) (row : Repository) : Prop :=
  row.id = repositoryId ∧ unloadable row.indexingStatus = false

/-- The index loads, or the access was revoked. -/
def ServableOrRevoked (repositoryId : RepositoryId) (row : Repository) : Prop :=
  row.id = repositoryId ∧
    (unloadable row.indexingStatus = false ∨ row.accessRevokedAt.isSome = true)

variable {repositoryId : RepositoryId}

theorem Servable.orRevoked (row : Repository) (servable : Servable repositoryId row) :
    ServableOrRevoked repositoryId row :=
  ⟨servable.1, .inl servable.2⟩

/-- A transaction that revokes nothing keeps the index loadable. -/
def KeepsServable (repositoryId : RepositoryId) (old new : List Repository) : Prop :=
  Carries (·.id) (Servable repositoryId) (Servable repositoryId) old new

def KeepsUnlessRevoked (repositoryId : RepositoryId) (old new : List Repository) : Prop :=
  Carries (·.id) (Servable repositoryId) (ServableOrRevoked repositoryId) old new

theorem KeepsServable.orRevoked {old new : List Repository}
    (keeps : KeepsServable repositoryId old new) : KeepsUnlessRevoked repositoryId old new :=
  Carries.weaken keeps Servable.orRevoked

/-- An update to a loadable status, or one that leaves the status. -/
theorem KeepsServable.updateWhere (rows : List Repository) (guard : Repository → Bool)
    {change : Repository → Repository} (sameId : ∀ row, (change row).id = row.id)
    (loadable : ∀ row, guard row = true → unloadable row.indexingStatus = false →
      unloadable (change row).indexingStatus = false) :
    KeepsServable repositoryId rows (Relational.updateWhere guard change rows) :=
  Carries.updateWhere sameId (fun _ => id) fun row matched servable =>
    ⟨(sameId row).trans servable.1, loadable row matched servable.2⟩

theorem KeepsUnlessRevoked.revoke (rows : List Repository) (guard : Repository → Bool)
    {change : Repository → Repository} (sameId : ∀ row, (change row).id = row.id)
    (revoked : ∀ row, (change row).accessRevokedAt.isSome = true) :
    KeepsUnlessRevoked repositoryId rows (Relational.updateWhere guard change rows) :=
  Carries.updateWhere sameId Servable.orRevoked fun row _ servable =>
    ⟨(sameId row).trans servable.1, .inr (revoked row)⟩

/-! ## Webhooks -/

theorem restoredRepository_loadable (row : Repository)
    (loadable : unloadable row.indexingStatus = false) :
    unloadable (restoredRepository row).indexingStatus = false := by
  simp only [restoredRepository]
  split
  case isTrue revoked => simp [revoked, unloadable] at loadable
  case isFalse => exact loadable

section Service

variable {db stored : Database}

theorem addRepositories_servable (rows : List Repository) (installationId : InstallationId)
    (externals : List GitHub.Repository) (db : Database) :
    KeepsServable repositoryId db.repositories
      (externals.foldl (addRepository rows installationId) db).repositories := by
  induction externals generalizing db with
  | nil => exact Carries.refl fun _ => id
  | cons external rest ih =>
      refine Carries.trans ?_ (ih _)
      unfold addRepository
      split
      · exact KeepsServable.updateWhere _ _ (fun _ => rfl)
          fun row _ => restoredRepository_loadable row
      · exact Carries.append _ fun _ => id

theorem applyInstallation_servable (db : Database) (now : Timestamp) (action : Option String)
    (external : GitHub.Installation) (sender : Option GitHub.User) :
    KeepsUnlessRevoked repositoryId db.repositories
      (applyInstallation db now action external sender).repositories := by
  have upserted := upsertInstallation_repositories db external
    (installationStatus action now external)
  unfold applyInstallation
  dsimp only
  split
  · rw [← upserted]
    exact KeepsUnlessRevoked.revoke _ _ (fun _ => rfl) fun _ => rfl
  · split
    · rw [joinSender_repositories, upserted]
      exact Carries.refl Servable.orRevoked
    · rw [upserted]
      exact Carries.refl Servable.orRevoked

/-- A payload that only adds or only removes repositories. -/
theorem applyRepositoryAccess_servable {now : Timestamp} {external : GitHub.Installation}
    {added : List GitHub.Repository} {removed : List Nat}
    (applied : applyRepositoryAccess db now external added removed = some stored)
    (single : added = [] ∨ removed = []) :
    KeepsUnlessRevoked repositoryId db.repositories stored.repositories := by
  rw [flushRepositories_eq applied, ← upsertInstallation_repositories db external id]
  rcases single with rfl | rfl
  · exact KeepsUnlessRevoked.revoke _ _ (fun _ => rfl) fun _ => rfl
  · refine KeepsServable.orRevoked (Carries.trans ?_ (addRepositories_servable _ _ _ _))
    exact KeepsServable.updateWhere _ _ (fun _ => rfl) fun row matched => by simp at matched

/-- The schema check of `installation_repositories`. -/
theorem repositoryAccess_single {eventName : String} {payload : GitHub.WebhookPayload}
    {external : GitHub.Installation} {added : List GitHub.Repository} {removed : List Nat}
    (accepted : webhookEvent eventName payload =
      some (.repositoryAccess external added removed)) : added = [] ∨ removed = [] := by
  unfold webhookEvent at accepted
  dsimp only at accepted
  split at accepted
  · cases accepted
  · split at accepted
    · cases accepted
    · split at accepted
      · split at accepted <;> cases accepted
      · split at accepted
        · split at accepted
          case isTrue valid =>
              cases accepted
              simp only [Bool.and_eq_true, Bool.or_eq_true, List.isEmpty_iff] at valid
              rcases valid.2 with adds | removes
              · exact .inr adds.2
              · exact .inl removes.2
          case isFalse => cases accepted
        · split at accepted
          · split at accepted
            · split at accepted <;> cases accepted
            · cases accepted
          · split at accepted
            · cases accepted
            · split at accepted
              · split at accepted <;> cases accepted
              · cases accepted

theorem deleteRepository_servable (db : Database) (now : Timestamp) (githubInstallationId : Nat)
    (external : GitHub.Repository) :
    KeepsUnlessRevoked repositoryId db.repositories
      (deleteRepository db now githubInstallationId external).repositories := by
  unfold deleteRepository
  split
  · exact Carries.refl Servable.orRevoked
  · exact KeepsUnlessRevoked.revoke _ _ (fun _ => rfl) fun _ => rfl

theorem pushTo_servable (db : Database) (now : Timestamp) (deliveryRow : DeliveryRowId)
    (repository : Repository) (ref : String) (before after : CommitSha) (forced deleted : Bool) :
    KeepsServable repositoryId db.repositories
      (pushTo db now deliveryRow repository ref before after forced deleted).2.repositories := by
  unfold pushTo
  dsimp only
  split
  · exact Carries.refl fun _ => id
  · split
    · exact Carries.refl fun _ => id
    · split
      · exact KeepsServable.updateWhere _ _ (fun _ => rfl) fun _ _ => id
      · split
        · exact Carries.refl fun _ => id
        · exact KeepsServable.updateWhere _ _ (fun _ => rfl) fun _ _ _ => rfl

theorem applyPush_servable (db : Database) (now : Timestamp) (deliveryRow : DeliveryRowId)
    (githubInstallationId githubRepositoryId : Nat) (ref : String) (before after : CommitSha)
    (forced deleted : Bool) :
    KeepsServable repositoryId db.repositories
      (applyPush db now deliveryRow githubInstallationId githubRepositoryId ref before after forced
        deleted).2.repositories := by
  unfold applyPush
  split
  · exact Carries.refl fun _ => id
  · split
    · exact Carries.refl fun _ => id
    · exact pushTo_servable db now deliveryRow _ ref before after forced deleted

theorem applyRepositoryMetadata_servable {now : Timestamp} {deliveryRow : DeliveryRowId}
    {githubInstallationId : Nat} {external : GitHub.Repository} {job : Option JobId}
    (applied : applyRepositoryMetadata db now deliveryRow githubInstallationId external =
      some (job, stored)) : KeepsServable repositoryId db.repositories stored.repositories := by
  unfold applyRepositoryMetadata at applied
  split at applied
  · cases applied
    exact Carries.refl fun _ => id
  · split at applied
    · cases applied
      exact Carries.refl fun _ => id
    · dsimp only at applied
      simp only [Option.map_eq_some_iff] at applied
      obtain ⟨described, flushed, same⟩ := applied
      rw [flushRepositories_eq flushed] at same
      have kept : ∀ guard, KeepsServable repositoryId db.repositories
          (updateWhere guard (metadataRepository external) db.repositories) := by
        intro guard
        refine KeepsServable.updateWhere _ _ (fun row => (metadataRepository_kept external row).id) ?_
        intro row _ loadable
        simp only [metadataRepository]
        split
        · rfl
        · exact loadable
      split at same <;> cases same <;> exact kept _

theorem applyEvent_servable {now : Timestamp} {deliveryRow : DeliveryRowId} {event : WebhookEvent}
    {eventName : String} {payload : GitHub.WebhookPayload} {job : Option JobId}
    (accepted : webhookEvent eventName payload = some event)
    (applied : applyEvent db now deliveryRow event = some (job, stored)) :
    KeepsUnlessRevoked repositoryId db.repositories stored.repositories := by
  cases event with
  | installation action external sender =>
      cases applied
      exact applyInstallation_servable db now action external sender
  | repositoryAccess external added removed =>
      simp only [applyEvent, Option.map_eq_some_iff, Prod.mk.injEq] at applied
      obtain ⟨_, accessed, _, rfl⟩ := applied
      exact applyRepositoryAccess_servable accessed (repositoryAccess_single accepted)
  | push githubInstallationId githubRepositoryId ref before after forced deleted =>
      refine KeepsServable.orRevoked ?_
      have pushed := congrArg (·.2.repositories) (Option.some.inj applied)
      dsimp only at pushed
      rw [← pushed]
      exact applyPush_servable db now deliveryRow githubInstallationId githubRepositoryId ref before
        after forced deleted
  | repositoryDeleted githubInstallationId external =>
      cases applied
      exact deleteRepository_servable db now githubInstallationId external
  | repositoryMetadata githubInstallationId external =>
      exact (applyRepositoryMetadata_servable applied).orRevoked
  | unsupported =>
      cases applied
      exact Carries.refl Servable.orRevoked

theorem handle_servable {now : Timestamp} {deliveryId eventName : String}
    {payload : GitHub.WebhookPayload} {outcome : WebhookOutcome} {job : Option JobId}
    (handled : handle db now deliveryId eventName payload = some (outcome, job, stored)) :
    KeepsUnlessRevoked repositoryId db.repositories stored.repositories := by
  unfold handle at handled
  split at handled
  · cases handled
  case h_2 event accepted =>
    split at handled
    · cases handled
      exact Carries.refl Servable.orRevoked
    · simp only [Option.map_eq_some_iff] at handled
      obtain ⟨⟨created, applied⟩, settled, same⟩ := handled
      cases same
      have kept : KeepsUnlessRevoked repositoryId
          (receiveDelivery db now deliveryId eventName payload).repositories applied.repositories :=
        applyEvent_servable accepted settled
      exact kept

/-! ## Repository services -/

theorem upsertRepository_servable {installationId : InstallationId} {external : GitHub.Repository}
    (upserted : upsertRepository installationId db external = some stored) :
    KeepsServable repositoryId db.repositories stored.repositories := by
  unfold upsertRepository at upserted
  split at upserted
  · rw [flushRepositories_eq upserted]
    exact KeepsServable.updateWhere _ _ (fun _ => rfl) fun row _ => restoredRepository_loadable _
  · rw [flushRepositories_eq upserted]
    exact Carries.append _ fun _ => id

theorem upsertRepositories_servable {installationId : InstallationId}
    (externals : List GitHub.Repository) {db stored : Database}
    (upserted : externals.foldlM (upsertRepository installationId) db = some stored) :
    KeepsServable repositoryId db.repositories stored.repositories := by
  induction externals generalizing db with
  | nil =>
      cases upserted
      exact Carries.refl fun _ => id
  | cons external rest ih =>
      simp only [List.foldlM_cons, Option.bind_eq_bind, Option.bind_eq_some_iff] at upserted
      obtain ⟨middle, first, later⟩ := upserted
      exact (upsertRepository_servable first).trans (ih later)

theorem synchronizeRepositories_servable {settings : Settings} {now : Timestamp} {userId : UserId}
    {installationId : InstallationId} {externals : List GitHub.Repository}
    (synchronized : synchronizeRepositories settings db now userId installationId externals =
      some stored) : KeepsUnlessRevoked repositoryId db.repositories stored.repositories := by
  unfold synchronizeRepositories at synchronized
  split at synchronized
  · cases synchronized
  · simp only [Option.map_eq_some_iff] at synchronized
    obtain ⟨listed, upserted, rfl⟩ := synchronized
    exact Carries.trans (upsertRepositories_servable externals upserted)
      (KeepsUnlessRevoked.revoke _ _ (fun _ => rfl) fun _ => rfl)

theorem revokePublicAccess_servable (db : Database) (now : Timestamp) (revoked : RepositoryId) :
    KeepsUnlessRevoked repositoryId db.repositories
      (revokePublicAccess db now revoked).repositories :=
  KeepsUnlessRevoked.revoke _ _ (fun _ => rfl) fun _ => rfl

theorem revalidatePublic_servable (db : Database) (now : Timestamp) (userId : UserId)
    (revalidated : RepositoryId) (answer : PublicAnswer) :
    KeepsUnlessRevoked repositoryId db.repositories
      (revalidatePublic db now userId revalidated answer).repositories := by
  unfold revalidatePublic
  split
  · exact Carries.refl Servable.orRevoked
  · split
    · exact revokePublicAccess_servable db now revalidated
    · split
      · exact revokePublicAccess_servable db now revalidated
      · split
        · refine KeepsServable.orRevoked ?_
          exact KeepsServable.updateWhere _ _ (fun _ => rfl) fun _ _ => id
        · exact Carries.refl Servable.orRevoked

theorem selectRepository_servable {settings : Settings} {now : Timestamp} {userId : UserId}
    {installationId : InstallationId} {selected : RepositoryId} {job : JobId}
    (accepted : selectRepository settings db now userId installationId selected =
      some (job, stored)) : KeepsServable repositoryId db.repositories stored.repositories := by
  cases selectRepository_outcome accepted with
  | reused _ database =>
      rw [database]
      exact Carries.refl fun _ => id
  | queued _ _ _ database =>
      rw [database]
      exact KeepsServable.updateWhere _ _ (fun _ => rfl) fun _ _ _ => rfl

theorem reindex_servable {now : Timestamp} {userId : UserId} {reindexed : RepositoryId}
    {job : JobId} (accepted : reindex db now userId reindexed = some (job, stored)) :
    KeepsServable repositoryId db.repositories stored.repositories := by
  obtain ⟨repository, -, rfl⟩ := reindex_queued accepted
  exact KeepsServable.updateWhere _ _ (fun _ => rfl) fun _ _ _ => rfl

theorem importRow_servable (db : Database) (now : Timestamp) (metadata : GitHub.PublicRepository) :
    KeepsServable repositoryId db.repositories (importRow db now metadata).2.repositories := by
  unfold importRow
  split
  · exact KeepsServable.updateWhere _ _ (fun _ => rfl) fun _ _ => id
  · exact Carries.append _ fun _ => id

theorem attach_servable {settings : Settings} {now : Timestamp} {userId : UserId}
    {metadata : GitHub.PublicRepository} {expectedRepositoryId : Option RepositoryId}
    {manual : Bool} {result : AttachResult}
    (accepted : attach settings db now userId metadata expectedRepositoryId manual =
      some (result, stored)) : KeepsServable repositoryId db.repositories stored.repositories := by
  have joined : ∀ member, KeepsServable repositoryId db.repositories
      (importJoined db now metadata member userId).repositories := by
    intro member
    rw [importJoined, joinUser_repositories]
    exact importRow_servable db now metadata
  cases attach_outcome accepted with
  | joined member database =>
      rw [database]
      exact joined member
  | queued member _ database =>
      rw [database]
      exact Carries.trans (joined member)
        (KeepsServable.updateWhere _ _ (fun _ => rfl) fun _ _ _ => rfl)

theorem Operation.service_servable {settings : Settings} {platform : Platform} {moment : Moment}
    {operation : Operation} (service : operation.cause = .service) :
    KeepsUnlessRevoked repositoryId db.repositories
      (operation.apply settings platform moment db).repositories := by
  have idle : KeepsUnlessRevoked repositoryId db.repositories db.repositories :=
    Carries.refl Servable.orRevoked
  cases operation with
  | claim jobId workerId => cases service
  | store claimed workerId call => cases call <;> cases service
  | recoverAbandoned => cases service
  | markEnqueued jobId => cases service
  | recordEnqueued jobId => cases service
  | handle deliveryId eventName payload =>
      simp only [Operation.apply]
      cases handled : Services.handle db moment.now deliveryId eventName payload with
      | none => exact idle
      | some result => exact handle_servable handled
  | recordQueueFailure deliveryRow => exact idle
  | synchronizeRepositories userId installationId externals =>
      simp only [Operation.apply]
      cases synchronized : Services.synchronizeRepositories settings db moment.now userId
          installationId externals with
      | none => exact idle
      | some stored => exact synchronizeRepositories_servable synchronized
  | revalidatePublic userId revalidated answer =>
      exact revalidatePublic_servable db moment.now userId revalidated answer
  | revokePublic revoked => exact revokePublicAccess_servable db moment.now revoked
  | selectRepository userId installationId selected =>
      simp only [Operation.apply]
      cases accepted : Services.selectRepository settings db moment.now userId installationId
          selected with
      | none => exact idle
      | some result => exact (selectRepository_servable accepted).orRevoked
  | reindex userId reindexed =>
      simp only [Operation.apply]
      cases accepted : Services.reindex db moment.now userId reindexed with
      | none => exact idle
      | some result => exact (reindex_servable accepted).orRevoked
  | attach userId metadata expectedRepositoryId manual =>
      simp only [Operation.apply]
      cases accepted : Services.attach settings db moment.now userId metadata
          expectedRepositoryId manual with
      | none => exact idle
      | some result => exact (attach_servable accepted).orRevoked
  | githubLogin resolved githubUser installations =>
      refine Carries.ofEq Servable.orRevoked ?_
      simp only [Operation.apply, synchronizeGithubLogin, signInInstallations_repositories]
  | googleLogin resolved =>
      simp only [Operation.apply, synchronizeGoogleLogin]
      split <;> exact idle

end Service

/-! ## Workers and the reconciler -/

section Work

variable {settings : Settings} {platform : Platform} {moment : Moment} {db stored : Database}

theorem claim_servable (db : Database) (now : Timestamp) (jobId : JobId) (workerId : WorkerId) :
    KeepsServable repositoryId db.repositories (claim db now jobId workerId).2.repositories := by
  unfold claim
  split
  · exact Carries.refl fun _ => id
  · split
    · exact Carries.refl fun _ => id
    · exact KeepsServable.updateWhere _ _ (fun _ => rfl) fun _ _ _ => rfl

theorem stage_servable (db : Database) (now : Timestamp) (claimed : ClaimedJob)
    (workerId : WorkerId) {status : RepositoryIndexingStatus} (stageName : String)
    (progress : Nat) (commitSha : Option CommitSha) (loadable : unloadable status = false) :
    KeepsServable repositoryId db.repositories
      (stage db now claimed workerId status stageName progress commitSha).repositories := by
  unfold stage
  split
  · exact Carries.refl fun _ => id
  · exact KeepsServable.updateWhere _ _ (fun _ => rfl) fun _ _ _ => loadable

theorem activate_servable {now : Timestamp} {claimed : ClaimedJob} {workerId : WorkerId}
    {commitSha : CommitSha} {previous : Nat}
    (success : activate db now claimed workerId commitSha = .ok (previous, stored)) :
    KeepsServable repositoryId db.repositories stored.repositories := by
  obtain ⟨job, repository, build, guards, _, deliveries, rfl⟩ := activate_ok success
  have repositories : ((activatedBuilds db now claimed repository commitSha)).repositories =
      db.repositories := by
    unfold activatedBuilds supersedePrevious
    split <;> rfl
  simp only [activatedDatabase, Database.updateJobs, Database.updateRepositories, repositories]
  exact KeepsServable.updateWhere _ _ (fun _ => rfl) fun _ _ _ => rfl

theorem failedRepository_loadable (code safeMessage : String) (retry : Bool) (row : Repository) :
    unloadable (failedRepository code safeMessage retry row).indexingStatus = false := by
  cases retry <;> rfl

theorem fail_servable (db : Database) (now : Timestamp) (jitter : Nat) (claimed : ClaimedJob)
    (workerId : WorkerId) (code safeMessage : String) (retryable : Bool) :
    KeepsServable repositoryId db.repositories
      (fail settings db now jitter claimed workerId code safeMessage retryable).2.repositories := by
  unfold fail
  dsimp only
  split
  · exact Carries.refl fun _ => id
  · obtain ⟨deliveries, same⟩ := updateFirstDelivery_eq _ _ _
    rw [same]
    exact KeepsServable.updateWhere _ _ (fun _ => rfl)
      fun row _ _ => failedRepository_loadable code safeMessage _ row

theorem recoverJobs_servable (now : Timestamp) (jobs : List IndexingJob) (db : Database) :
    KeepsServable repositoryId db.repositories
      (jobs.foldl (recoverJob settings now) db).repositories := by
  induction jobs generalizing db with
  | nil => exact Carries.refl fun _ => id
  | cons job rest ih =>
      refine Carries.trans ?_ (ih (recoverJob settings now db job))
      exact KeepsServable.updateWhere _ _ (fun _ => rfl)
        fun row _ _ => failedRepository_loadable _ _ _ row

/-- The cancellation of a run that was not authorized leaves other repositories alone. -/
theorem cancelRevoked_servable (db : Database) (now : Timestamp) (claimed : ClaimedJob)
    (workerId : WorkerId)
    (spared : ∀ job ∈ db.indexingJobs, heldBy claimed workerId job = true →
      job.repositoryId ≠ repositoryId) :
    KeepsServable repositoryId db.repositories
      (cancelRevoked db now claimed workerId).repositories := by
  unfold cancelRevoked
  split
  · exact Carries.refl fun _ => id
  case h_2 job found =>
    obtain ⟨deliveries, same⟩ := updateFirstDelivery_eq _ _ _
    rw [same]
    obtain ⟨member, held⟩ := held_of_find found
    refine Carries.updateWhere (fun _ => rfl) (fun _ => id) fun row here servable => ?_
    have place : row.id = job.repositoryId := by simpa using here
    exact absurd (place.symm.trans servable.1) (spared job member held)

theorem StoreCall.transact_servable {claimed : ClaimedJob} {workerId : WorkerId} {call : StoreCall}
    {reply : call.Reply}
    (staged : ∀ status stageName progress commitSha,
      call = .stage status stageName progress commitSha → unloadable status = false)
    (spared : call = .cancelRevoked → ∀ job ∈ db.indexingJobs,
      heldBy claimed workerId job = true → job.repositoryId ≠ repositoryId)
    (success : call.transact settings platform moment claimed workerId db = .ok (reply, stored)) :
    KeepsUnlessRevoked repositoryId db.repositories stored.repositories := by
  cases call with
  | revokePublicAccess revoked =>
      cases success
      exact revokePublicAccess_servable db moment.now revoked
  | stage status stageName progress commitSha =>
      cases success
      exact (stage_servable db moment.now claimed workerId stageName progress commitSha
        (staged _ _ _ _ rfl)).orRevoked
  | prepareBuild commitSha discovery processing fingerprint =>
      obtain ⟨_, prepared, answer⟩ := map_ok success
      cases answer
      obtain ⟨job, repository, _, rfl⟩ := prepareBuild_ok prepared
      unfold preparedDatabase clearedForBuild
      rw [storeBuild_eq]
      refine KeepsServable.orRevoked ?_
      exact KeepsServable.updateWhere _ _ (fun _ => rfl) fun _ _ => id
  | activate commitSha => exact (activate_servable success).orRevoked
  | cancelRevoked =>
      cases success
      exact (cancelRevoked_servable db moment.now claimed workerId (spared rfl)).orRevoked
  | fail code safeMessage retryable =>
      have failed := congrArg (·.2.repositories) (Except.ok.inj success)
      dsimp only at failed
      rw [← failed]
      exact (fail_servable db moment.now moment.jitter claimed workerId code safeMessage
        retryable).orRevoked
  | _ => exact Carries.ofEq Servable.orRevoked (transact_repositoriesKept rfl success)

theorem Operation.apply_servable {operation : Operation}
    (staged : ∀ claimed workerId status stageName progress commitSha,
      operation = .store claimed workerId (.stage status stageName progress commitSha) →
      unloadable status = false)
    (spared : ∀ claimed workerId, operation = .store claimed workerId .cancelRevoked →
      ∀ job ∈ db.indexingJobs, heldBy claimed workerId job = true →
        job.repositoryId ≠ repositoryId) :
    KeepsUnlessRevoked repositoryId db.repositories
      (operation.apply settings platform moment db).repositories := by
  by_cases service : operation.cause = .service
  · exact operation.service_servable service
  · cases operation with
    | claim jobId workerId => exact (claim_servable db moment.now jobId workerId).orRevoked
    | store claimed workerId call =>
        simp only [Operation.apply, StoreCall.apply]
        split
        case h_1 stored success =>
            refine StoreCall.transact_servable ?_ ?_ success
            · rintro status stageName progress commitSha rfl
              exact staged _ _ _ _ _ _ rfl
            · rintro rfl
              exact spared _ _ rfl
        case h_2 => exact Carries.refl Servable.orRevoked
    | recoverAbandoned => exact (recoverJobs_servable moment.now _ db).orRevoked
    | markEnqueued jobId => exact Carries.refl Servable.orRevoked
    | recordEnqueued jobId => exact Carries.refl Servable.orRevoked
    | _ => exact (service rfl).elim

end Work

end Codenaut.Services
