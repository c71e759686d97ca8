import Codenaut.Services.IndexingJobs.BuildsProperties
import Codenaut.Services.Operation
import Codenaut.Services.RepositoriesProperties

/-!
# What one transaction can do

Every transaction moves jobs and repositories only as its cause allows, and only
the build calls of the job store touch the build and graph tables.
-/

set_option autoImplicit false

namespace Codenaut.Services

open Codenaut.Core Codenaut.Db Codenaut.Indexing Codenaut.Relational

/-- The cause under which a store call moves its own job. -/
def StoreCall.cause (claimed : ClaimedJob) (workerId : WorkerId) : StoreCall → Cause
  | .authorizedContext => .authorize claimed
  | .markStale _ _ => .cancel claimed workerId
  | .activate _ => .activate claimed workerId
  | .cancelRevoked => .cancel claimed workerId
  | .fail _ _ _ => .fail claimed workerId
  | _ => .work

def Operation.cause : Operation → Cause
  | .claim jobId workerId => .claim jobId workerId
  | .store claimed workerId call => call.cause claimed workerId
  | .recoverAbandoned => .recover
  | .markEnqueued _ | .recordEnqueued _ => .work
  | _ => .service

/-- The calls that write builds or graph rows. -/
def StoreCall.writesBuilds : StoreCall → Bool
  | .prepareBuild _ _ _ _ | .validateGraph | .recordVectorCounts _ _ _ _ | .markBuildReady
  | .activate _ | .recordFailedBuildCleanup _ _ _ | .completeSupersededCleanup _ _ => true
  | _ => false

/-- The calls that write repository rows. -/
def StoreCall.writesRepositories : StoreCall → Bool
  | .revokePublicAccess _ | .stage _ _ _ _ | .prepareBuild _ _ _ _ | .activate _ | .cancelRevoked
  | .fail _ _ _ => true
  | _ => false

def Operation.writesBuilds : Operation → Bool
  | .store _ _ call => call.writesBuilds
  | _ => false

section Transaction

variable {settings : Settings} {platform : Platform} {moment : Moment} {claimed : ClaimedJob}
  {workerId : WorkerId} {db stored : Database}

theorem map_ok {Error Value Result : Type} {source : Except Error Value}
    {change : Value → Result} {result : Result} (success : source.map change = .ok result) :
    ∃ value, source = .ok value ∧ change value = result := by
  cases source with
  | error error => cases success
  | ok value => exact ⟨value, rfl, Except.ok.inj success⟩

theorem StoreCall.transact_effect (jobIds : UniqueKey (·.id) db.indexingJobs)
    (repositoryIds : UniqueKey (·.id) db.repositories) {call : StoreCall} {reply : call.Reply}
    (success : call.transact settings platform moment claimed workerId db = .ok (reply, stored)) :
    WorkerEffect (call.cause claimed workerId) db stored := by
  cases call with
  | authorizedContext =>
      have effect := authorizedContext_effect settings db moment.now claimed jobIds
      rw [Except.ok.inj success] at effect
      exact effect
  | revokePublicAccess repositoryId =>
      cases success
      exact revokePublicAccess_effect db moment.now repositoryId
  | heartbeat =>
      cases success
      exact heartbeat_effect db moment.now claimed workerId
  | isCurrent =>
      cases success
      exact .refl db
  | markStale code superseded =>
      cases success
      exact markStale_effect db moment.now claimed workerId code superseded
  | recordFreshnessPlan actualMode fallbackReason changedCounts changedFileCount =>
      cases success
      exact recordFreshnessPlan_effect db claimed workerId _ _ _ _
  | stage status stageName progress commitSha =>
      cases success
      exact stage_effect db moment.now claimed workerId _ _ _ _
  | prepareBuild commitSha discovery processing fingerprint =>
      obtain ⟨_, prepared, same⟩ := map_ok success
      cases same
      obtain ⟨job, repository, _, rfl⟩ := prepareBuild_ok prepared
      exact preparedDatabase_effect
  | validateGraph =>
      obtain ⟨_, validated, same⟩ := map_ok success
      cases same
      exact validateGraph_effect validated
  | recordVectorCounts embedded vectors reused reembedded =>
      obtain ⟨_, recorded, same⟩ := map_ok success
      cases same
      exact recordVectorCounts_effect recorded
  | markBuildReady =>
      obtain ⟨_, ready, same⟩ := map_ok success
      cases same
      exact markBuildReady_effect ready
  | activate commitSha => exact activate_effect jobIds repositoryIds success
  | canCleanupInactive repositoryId indexVersion =>
      cases success
      exact .refl db
  | recordFailedBuildCleanup repositoryId indexVersion cleanupComplete =>
      cases success
      exact recordFailedBuildCleanup_effect db moment.now _ _ _
  | completeSupersededCleanup repositoryId indexVersion =>
      obtain ⟨_, cleaned, same⟩ := map_ok success
      cases same
      exact completeSupersededCleanup_effect cleaned
  | cancelRevoked =>
      cases success
      exact cancelRevoked_effect db moment.now claimed workerId
  | fail code safeMessage retryable =>
      have effect := fail_effect settings db moment.now moment.jitter claimed workerId code
        safeMessage retryable
      rw [Except.ok.inj success] at effect
      exact effect

theorem StoreCall.transact_buildsKept {call : StoreCall} {reply : call.Reply}
    (other : call.writesBuilds = false)
    (success : call.transact settings platform moment claimed workerId db = .ok (reply, stored)) :
    BuildsKept db stored := by
  cases call with
  | authorizedContext =>
      have kept := authorizedContext_buildsKept settings db moment.now claimed
      rw [Except.ok.inj success] at kept
      exact kept
  | revokePublicAccess repositoryId => cases success; exact ⟨rfl, rfl, rfl⟩
  | heartbeat => cases success; exact ⟨rfl, rfl, rfl⟩
  | isCurrent => cases success; exact .refl db
  | markStale code superseded =>
      cases success
      exact markStale_buildsKept db moment.now claimed workerId code superseded
  | recordFreshnessPlan actualMode fallbackReason changedCounts changedFileCount =>
      cases success
      exact ⟨rfl, rfl, rfl⟩
  | stage status stageName progress commitSha =>
      cases success
      exact stage_buildsKept db moment.now claimed workerId _ _ _ _
  | canCleanupInactive repositoryId indexVersion => cases success; exact .refl db
  | cancelRevoked =>
      cases success
      exact cancelRevoked_buildsKept db moment.now claimed workerId
  | fail code safeMessage retryable =>
      have kept := fail_buildsKept settings db moment.now moment.jitter claimed workerId code
        safeMessage retryable
      rw [Except.ok.inj success] at kept
      exact kept
  | _ => simp [StoreCall.writesBuilds] at other

theorem StoreCall.transact_repositoriesKept {call : StoreCall} {reply : call.Reply}
    (other : call.writesRepositories = false)
    (success : call.transact settings platform moment claimed workerId db = .ok (reply, stored)) :
    stored.repositories = db.repositories := by
  cases call with
  | authorizedContext =>
      have answered := congrArg Prod.snd (Except.ok.inj success)
      dsimp only at answered
      rw [← answered]
      unfold Services.authorizedContext
      split
      · rfl
      · split
        · rfl
        · dsimp only
          split <;> rfl
  | heartbeat => cases success; rfl
  | isCurrent => cases success; rfl
  | markStale code superseded =>
      cases success
      unfold Services.markStale
      split
      · rfl
      · obtain ⟨deliveries, same⟩ := updateFirstDelivery_eq _ _ _
        rw [same]
        rfl
  | recordFreshnessPlan => cases success; rfl
  | validateGraph =>
      obtain ⟨_, validated, answer⟩ := map_ok success
      cases answer
      obtain ⟨_, _, _, _, _, _, rfl⟩ := validateGraph_ok validated
      rfl
  | recordVectorCounts =>
      obtain ⟨_, recorded, answer⟩ := map_ok success
      cases answer
      obtain ⟨_, _, _, _, rfl⟩ := recordVectorCounts_ok recorded
      rfl
  | markBuildReady =>
      obtain ⟨_, ready, answer⟩ := map_ok success
      cases answer
      obtain ⟨_, _, _, rfl⟩ := markBuildReady_ok ready
      rfl
  | canCleanupInactive => cases success; rfl
  | recordFailedBuildCleanup =>
      cases success
      unfold Services.recordFailedBuildCleanup
      dsimp only
      split
      · rfl
      · split <;> rfl
  | completeSupersededCleanup =>
      obtain ⟨_, cleaned, answer⟩ := map_ok success
      cases answer
      rw [completeSupersededCleanup_ok cleaned]
      rfl
  | _ => cases other

end Transaction

section Apply

variable (settings : Settings) (platform : Platform) (moment : Moment) {db : Database}

theorem StoreCall.apply_effect (claimed : ClaimedJob) (workerId : WorkerId)
    (jobIds : UniqueKey (·.id) db.indexingJobs)
    (repositoryIds : UniqueKey (·.id) db.repositories) (call : StoreCall) :
    WorkerEffect (call.cause claimed workerId) db
      (call.apply settings platform moment claimed workerId db) := by
  unfold StoreCall.apply
  split
  case h_1 stored success => exact transact_effect jobIds repositoryIds success
  case h_2 => exact .refl db

/-- A transaction that returned, or else left the database alone. -/
private theorem committed {Result : Type} {source : Option Result} {commit : Result → Database}
    {Effects : Database → Prop} (idle : Effects db)
    (effect : ∀ result, source = some result → Effects (commit result)) :
    Effects ((source.map commit).getD db) := by
  cases source with
  | none => exact idle
  | some result => exact effect result rfl

/-- The services' transactions. -/
theorem Operation.serviceEffect {operation : Operation} (service : operation.cause = .service) :
    ServiceEffect db (operation.apply settings platform moment db) := by
  cases operation with
  | claim jobId workerId => cases service
  | store claimed workerId call => cases call <;> cases service
  | recoverAbandoned => cases service
  | markEnqueued jobId => cases service
  | recordEnqueued jobId => cases service
  | handle deliveryId eventName payload =>
      exact committed (.refl db) fun _ handled => handle_effect handled
  | recordQueueFailure deliveryRow => exact (updateDelivery_effect db deliveryRow _).service
  | synchronizeRepositories userId installationId externals =>
      simp only [Operation.apply]
      cases synchronized : Services.synchronizeRepositories settings db moment.now userId
          installationId externals with
      | none => exact .refl db
      | some stored => exact (synchronizeRepositories_effect synchronized).service
  | revalidatePublic userId repositoryId answer =>
      exact (revalidatePublic_effect db moment.now userId repositoryId answer).service
  | revokePublic repositoryId => exact (revokePublicAccess_service db moment.now repositoryId).service
  | selectRepository userId installationId repositoryId =>
      exact committed (.refl db) fun _ selected => selectRepository_effect selected
  | reindex userId repositoryId =>
      exact committed (.refl db) fun _ reindexed => reindex_effect reindexed
  | attach userId metadata expectedRepositoryId manual =>
      exact committed (.refl db) fun _ accepted => attach_effect accepted
  | githubLogin resolved githubUser installations =>
      exact (synchronizeGithubLogin_effect db moment.now resolved githubUser installations).service
  | googleLogin resolved => exact (synchronizeGoogleLogin_effect db resolved).service

/-- The transactions of workers and the reconciler. -/
theorem Operation.workerEffect (jobIds : UniqueKey (·.id) db.indexingJobs)
    (repositoryIds : UniqueKey (·.id) db.repositories) {operation : Operation}
    (work : operation.cause ≠ .service) :
    WorkerEffect operation.cause db (operation.apply settings platform moment db) := by
  cases operation with
  | claim jobId workerId => exact claim_effect db moment.now jobId workerId
  | store claimed workerId call =>
      exact call.apply_effect settings platform moment claimed workerId jobIds repositoryIds
  | recoverAbandoned => exact recoverAbandoned_effect settings db moment.now jobIds
  | markEnqueued jobId => exact markEnqueued_effect db moment.now jobId
  | recordEnqueued jobId => exact recordEnqueued_effect db moment.now jobId
  | _ => exact (work rfl).elim

theorem Operation.effect (jobIds : UniqueKey (·.id) db.indexingJobs)
    (repositoryIds : UniqueKey (·.id) db.repositories) (operation : Operation) :
    Effect operation.cause db (operation.apply settings platform moment db) := by
  by_cases service : operation.cause = .service
  · rw [service]
    exact (operation.serviceEffect settings platform moment service).effect
  · exact (operation.workerEffect settings platform moment jobIds repositoryIds service).effect

theorem Operation.buildsKept {operation : Operation} (other : operation.writesBuilds = false) :
    BuildsKept db (operation.apply settings platform moment db) := by
  by_cases service : operation.cause = .service
  · exact (operation.serviceEffect settings platform moment service).builds
  · cases operation with
    | claim jobId workerId => exact claim_buildsKept db moment.now jobId workerId
    | store claimed workerId call =>
        simp only [Operation.apply, StoreCall.apply]
        split
        case h_1 stored success => exact StoreCall.transact_buildsKept other success
        case h_2 => exact .refl db
    | recoverAbandoned => exact recoverAbandoned_buildsKept settings db moment.now
    | markEnqueued jobId => exact ⟨rfl, rfl, rfl⟩
    | recordEnqueued jobId => exact ⟨rfl, rfl, rfl⟩
    | _ => exact (service rfl).elim

end Apply

end Codenaut.Services
