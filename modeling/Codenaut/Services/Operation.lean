import Codenaut.Services.Auth
import Codenaut.Services.IndexingJobs.Builds
import Codenaut.Services.IndexingJobs.Endings
import Codenaut.Services.PublicRepositories

/-!
# Transactions on the database

Every transaction of the job store, the webhooks and the repository services as
one step of the committed database. The journal adds the history that the
properties speak about: the graph rows each `prepare_build` stored, and the rows
each activation read.
-/

set_option autoImplicit false

namespace Codenaut.Services

open Codenaut.Core Codenaut.Db Codenaut.Indexing

/-- The job-store calls of a claimed run. -/
inductive StoreCall where
  | authorizedContext
  | revokePublicAccess (repositoryId : RepositoryId)
  | heartbeat
  | isCurrent
  | markStale (code : String) (superseded : Bool)
  | recordFreshnessPlan (actualMode : IndexingMode) (fallbackReason : Option String)
      (changedCounts : List (String × Nat)) (changedFileCount : Nat)
  | stage (status : RepositoryIndexingStatus) (stageName : String) (progress : Nat)
      (commitSha : Option CommitSha)
  | prepareBuild (commitSha : CommitSha) (discovery : DiscoveryResult)
      (processing : ProcessingResult) (preprocessingFingerprint : String)
  | validateGraph
  | recordVectorCounts (embedded vectors reused : Nat) (reembedded : Option Nat)
  | markBuildReady
  | activate (commitSha : CommitSha)
  | canCleanupInactive (repositoryId : RepositoryId) (indexVersion : Nat)
  | recordFailedBuildCleanup (repositoryId : RepositoryId) (indexVersion : Nat)
      (cleanupComplete : Bool)
  | completeSupersededCleanup (repositoryId : RepositoryId) (indexVersion : Nat)
  | cancelRevoked
  | fail (code safeMessage : String) (retryable : Bool)

/-- The value that a store call returns. -/
abbrev StoreCall.Reply : StoreCall → Type
  | .authorizedContext => Option JobContext
  | .isCurrent => Bool
  | .activate _ => Nat
  | .canCleanupInactive _ _ => Bool
  | .fail _ _ _ => Bool
  | _ => Unit

/-- What a transaction reads besides the database. -/
structure Moment where
  now : Timestamp
  jitter : Nat := 0
  deriving DecidableEq, Repr

/-- Run one store call of a claim as a transaction. -/
def StoreCall.transact (settings : Settings) (platform : Platform) (moment : Moment)
    (claimed : ClaimedJob) (workerId : WorkerId) (db : Database) :
    (call : StoreCall) → Except Failure (call.Reply × Database)
  | .authorizedContext => .ok (Services.authorizedContext settings db moment.now claimed)
  | .revokePublicAccess repositoryId =>
      .ok ((), Services.revokePublicAccess db moment.now repositoryId)
  | .heartbeat => .ok ((), Services.heartbeat db moment.now claimed workerId)
  | .isCurrent => .ok (Services.isCurrent db claimed workerId, db)
  | .markStale code superseded =>
      .ok ((), Services.markStale db moment.now claimed workerId code superseded)
  | .recordFreshnessPlan actualMode fallbackReason changedCounts changedFileCount =>
      .ok ((), Services.recordFreshnessPlan db claimed workerId actualMode fallbackReason
        changedCounts changedFileCount)
  | .stage status stageName progress commitSha =>
      .ok ((), Services.stage db moment.now claimed workerId status stageName progress commitSha)
  | .prepareBuild commitSha discovery processing preprocessingFingerprint =>
      (Services.prepareBuild settings platform db claimed workerId commitSha discovery processing
        preprocessingFingerprint).map fun stored => ((), stored)
  | .validateGraph =>
      (Services.validateGraph platform db claimed workerId).map fun stored => ((), stored)
  | .recordVectorCounts embedded vectors reused reembedded =>
      (Services.recordVectorCounts db claimed workerId embedded vectors reused reembedded).map
        fun stored => ((), stored)
  | .markBuildReady =>
      (Services.markBuildReady db claimed workerId).map fun stored => ((), stored)
  | .activate commitSha => Services.activate db moment.now claimed workerId commitSha
  | .canCleanupInactive repositoryId indexVersion =>
      .ok (Services.canCleanupInactive db repositoryId indexVersion, db)
  | .recordFailedBuildCleanup repositoryId indexVersion cleanupComplete =>
      .ok ((), Services.recordFailedBuildCleanup db moment.now repositoryId indexVersion
        cleanupComplete)
  | .completeSupersededCleanup repositoryId indexVersion =>
      (Services.completeSupersededCleanup db moment.now repositoryId indexVersion).map
        fun stored => ((), stored)
  | .cancelRevoked => .ok ((), Services.cancelRevoked db moment.now claimed workerId)
  | .fail code safeMessage retryable =>
      .ok (Services.fail settings db moment.now moment.jitter claimed workerId code safeMessage
        retryable)

/-- The database after a store call; an error rolls it back. -/
def StoreCall.apply (settings : Settings) (platform : Platform) (moment : Moment)
    (claimed : ClaimedJob) (workerId : WorkerId) (db : Database) (call : StoreCall) : Database :=
  match call.transact settings platform moment claimed workerId db with
  | .ok (_, stored) => stored
  | .error _ => db

inductive Operation where
  | claim (jobId : JobId) (workerId : WorkerId)
  | store (claimed : ClaimedJob) (workerId : WorkerId) (call : StoreCall)
  | recoverAbandoned
  | markEnqueued (jobId : JobId)
  | handle (deliveryId eventName : String) (payload : GitHub.WebhookPayload)
  | recordQueueFailure (deliveryRow : DeliveryRowId)
  | recordEnqueued (jobId : JobId)
  | synchronizeRepositories (userId : UserId) (installationId : InstallationId)
      (externals : List GitHub.Repository)
  | revalidatePublic (userId : UserId) (repositoryId : RepositoryId) (answer : PublicAnswer)
  | revokePublic (repositoryId : RepositoryId)
  | selectRepository (userId : UserId) (installationId : InstallationId)
      (repositoryId : RepositoryId)
  | reindex (userId : UserId) (repositoryId : RepositoryId)
  | attach (userId : UserId) (metadata : GitHub.PublicRepository)
      (expectedRepositoryId : Option RepositoryId) (manual : Bool)
  | githubLogin (resolved : Option UserId) (githubUser : GitHub.User)
      (installations : List GitHub.Installation)
  | googleLogin (resolved : Option UserId)

/-- One transaction, committed or rolled back. -/
def Operation.apply (settings : Settings) (platform : Platform) (moment : Moment)
    (db : Database) : Operation → Database
  | .claim jobId workerId => (Services.claim db moment.now jobId workerId).2
  | .store claimed workerId call => call.apply settings platform moment claimed workerId db
  | .recoverAbandoned => (Services.recoverAbandoned settings db moment.now).2
  | .markEnqueued jobId => Services.markEnqueued db moment.now jobId
  | .handle deliveryId eventName payload =>
      ((Services.handle db moment.now deliveryId eventName payload).map (·.2.2)).getD db
  | .recordQueueFailure deliveryRow => Services.recordQueueFailure db deliveryRow
  | .recordEnqueued jobId => Services.recordEnqueued db moment.now jobId
  | .synchronizeRepositories userId installationId externals =>
      (Services.synchronizeRepositories settings db moment.now userId installationId
        externals).getD db
  | .revalidatePublic userId repositoryId answer =>
      Services.revalidatePublic db moment.now userId repositoryId answer
  | .revokePublic repositoryId => Services.revokePublicAccess db moment.now repositoryId
  | .selectRepository userId installationId repositoryId =>
      ((Services.selectRepository settings db moment.now userId installationId
        repositoryId).map (·.2)).getD db
  | .reindex userId repositoryId =>
      ((Services.reindex db moment.now userId repositoryId).map (·.2)).getD db
  | .attach userId metadata expectedRepositoryId manual =>
      ((Services.attach settings db moment.now userId metadata expectedRepositoryId manual).map
        (·.2)).getD db
  | .githubLogin resolved githubUser installations =>
      synchronizeGithubLogin db moment.now resolved githubUser installations
  | .googleLogin resolved => synchronizeGoogleLogin db resolved

/-! ## History -/

/-- The rows that a committed activation read, and the commit it activated. -/
structure Activation where
  job : IndexingJob
  repository : Repository
  installation : Option GitHubInstallation
  commitSha : CommitSha
  deriving DecidableEq, Repr

/-- The version that an activation made active. -/
def Activation.version (activation : Activation) : Nat :=
  activation.repository.indexVersion + 1

/-- The graph rows that a committed `prepare_build` stored for a version. -/
structure Preparation where
  repositoryId : RepositoryId
  indexVersion : Nat
  symbols : List SymbolDefinition
  edges : List CallEdge
  deriving DecidableEq, Repr

structure History where
  preparations : List Preparation := []
  activations : List Activation := []
  deriving DecidableEq, Repr

structure Journal where
  database : Database
  history : History := {}
  deriving DecidableEq, Repr

def activationOf (db : Database) (claimed : ClaimedJob) (commitSha : CommitSha) :
    Option Activation := do
  let job ← db.job? claimed.id
  let repository ← db.repository? job.repositoryId
  some ⟨job, repository, repository.installationId.bind db.installation?, commitSha⟩

def preparationOf (platform : Platform) (db : Database) (claimed : ClaimedJob)
    (processing : ProcessingResult) : Option Preparation := do
  let job ← db.job? claimed.id
  some ⟨job.repositoryId, processing.indexVersion,
    graphSymbols platform job.repositoryId processing, graphEdges job.repositoryId processing⟩

/-- The newest entry comes first. -/
def History.record (settings : Settings) (platform : Platform) (moment : Moment) (db : Database)
    (history : History) : Operation → History
  | .store claimed workerId (.prepareBuild commitSha discovery processing fingerprint) =>
      match StoreCall.transact settings platform moment claimed workerId db
          (.prepareBuild commitSha discovery processing fingerprint) with
      | .ok _ => { history with
          preparations := (preparationOf platform db claimed processing).toList ++
            history.preparations }
      | .error _ => history
  | .store claimed workerId (.activate commitSha) =>
      match StoreCall.transact settings platform moment claimed workerId db
          (.activate commitSha) with
      | .ok _ => { history with
          activations := (activationOf db claimed commitSha).toList ++ history.activations }
      | .error _ => history
  | _ => history

def Journal.apply (settings : Settings) (platform : Platform) (moment : Moment)
    (journal : Journal) (operation : Operation) : Journal where
  database := operation.apply settings platform moment journal.database
  history := journal.history.record settings platform moment journal.database operation

/-- What the last `prepare_build` of a version stored. -/
def History.lastPreparation (history : History) (repositoryId : RepositoryId)
    (indexVersion : Nat) : Option Preparation :=
  history.preparations.find? fun entry =>
    entry.repositoryId == repositoryId && entry.indexVersion == indexVersion

/-- The activations of one repository, newest first. -/
def History.activationsOf (history : History) (repositoryId : RepositoryId) : List Activation :=
  history.activations.filter (·.repository.id == repositoryId)

/-- A superseded cleanup is called with a version that an activation of the
same repository returned as its previous one. No other call is restricted. -/
def Operation.admissible (history : History) : Operation → Prop
  | .store _ _ (.completeSupersededCleanup repositoryId indexVersion) =>
      ∃ activation ∈ history.activationsOf repositoryId,
        activation.repository.indexVersion = indexVersion
  | _ => True

/-- The states of any sequence of transactions, from an empty database. -/
inductive Journal.Reachable (settings : Settings) (platform : Platform) : Journal → Prop where
  | start : Reachable settings platform { database := {} }
  | step {journal : Journal} (moment : Moment) (operation : Operation)
      (prior : Reachable settings platform journal)
      (admissible : operation.admissible journal.history) :
      Reachable settings platform (journal.apply settings platform moment operation)

end Codenaut.Services
