import Codenaut.Db.Enums
import Codenaut.Relational.Table

/-!
# Relational rows

The rows of `app/db/models` that indexing jobs, webhooks, installation
synchronization and repository import read or write. Keys are natural numbers
standing for the application-generated UUIDs; times are milliseconds on one clock.
-/

set_option autoImplicit false

namespace Codenaut.Db

open Codenaut.Relational

abbrev RepositoryId := Nat
abbrev JobId := Nat
abbrev InstallationId := Nat
abbrev UserId := Nat
abbrev DeliveryRowId := Nat
abbrev SymbolId := Nat
abbrev EdgeId := Nat
abbrev WorkerId := String
abbrev CommitSha := String
abbrev Timestamp := Nat

/-- Counters of an `indexing_jobs` row. They are reported, never read back by
a transition. -/
structure JobMetrics where
  changedFileCount : Nat := 0
  changedFilesJson : List (String × Nat) := []
  reusedChunkCount : Nat := 0
  reembeddedChunkCount : Nat := 0
  graphRebuilt : Bool := false
  discoveredFileCount : Nat := 0
  discoveredTotalBytes : Nat := 0
  skippedFilesJson : List (String × Nat) := []
  parsedFileCount : Nat := 0
  partialFileCount : Nat := 0
  parserSkippedFileCount : Nat := 0
  symbolCount : Nat := 0
  chunkCount : Nat := 0
  embeddedChunkCount : Nat := 0
  vectorCount : Nat := 0
  embeddingModelIdentifier : Option String := none
  embeddingModelRevision : Option String := none
  embeddingDimension : Option Nat := none
  preprocessingFingerprint : Option String := none
  parserWarningsJson : List (String × Nat) := []
  callSiteCount : Nat := 0
  exactEdgeCount : Nat := 0
  ambiguousEdgeCount : Nat := 0
  unresolvedCallCount : Nat := 0
  graphWarningCount : Nat := 0
  deriving DecidableEq, Repr

structure IndexingJob where
  id : JobId
  repositoryId : RepositoryId
  requestedByUserId : Option UserId := none
  jobType : IndexingJobType
  status : IndexingJobStatus := .queued
  attempt : Nat := 0
  progress : Nat := 0
  stage : Option String := none
  sourceCommitSha : Option CommitSha := none
  targetCommitSha : Option CommitSha := none
  targetBranch : Option String := none
  requestedMode : Option IndexingMode := none
  actualMode : Option IndexingMode := none
  fullRebuildReason : Option String := none
  refreshGeneration : Nat := 0
  errorCode : Option String := none
  safeErrorMessage : Option String := none
  lockedBy : Option WorkerId := none
  nextAttemptAt : Option Timestamp := none
  lastEnqueuedAt : Option Timestamp := none
  targetIndexVersion : Option Nat := none
  startedAt : Option Timestamp := none
  heartbeatAt : Option Timestamp := none
  completedAt : Option Timestamp := none
  createdAt : Timestamp := 0
  metrics : JobMetrics := {}
  deriving DecidableEq, Repr

structure Repository where
  id : RepositoryId
  installationId : Option InstallationId
  accessMode : RepositoryAccessMode := .githubInstallation
  githubRepositoryId : Nat
  githubOwner : String
  githubName : String
  githubFullName : String
  githubUrl : String
  isPrivate : Bool
  defaultBranch : String
  indexedBranch : Option String := none
  refreshGeneration : Nat := 0
  latestWebhookCommitSha : Option CommitSha := none
  lastDeliveryStatus : Option WebhookDeliveryStatus := none
  lastDeliveryAt : Option Timestamp := none
  currentRemoteSha : Option CommitSha := none
  lastIndexedCommitSha : Option CommitSha := none
  indexVersion : Nat := 0
  indexingStatus : RepositoryIndexingStatus := .notIndexed
  indexingProgress : Nat := 0
  indexingStage : Option String := none
  indexingErrorCode : Option String := none
  indexingErrorMessage : Option String := none
  sizeBytes : Option Nat := none
  primaryLanguage : Option String := none
  visibilityCheckedAt : Option Timestamp := none
  lastIndexedAt : Option Timestamp := none
  activeVectorCount : Nat := 0
  accessRevokedAt : Option Timestamp := none
  deletedAt : Option Timestamp := none
  deriving DecidableEq, Repr

/-- One row for each (repository, version); it outlives the job that wrote it. -/
structure RepositoryIndexBuild where
  repositoryId : RepositoryId
  jobId : Option JobId
  indexVersion : Nat
  state : IndexBuildState := .building
  cleanupStatus : IndexCleanupStatus := .notRequired
  commitSha : CommitSha
  embeddingModelIdentifier : String
  embeddingModelRevision : String
  embeddingDimension : Nat
  preprocessingFingerprint : String
  expectedChunkCount : Nat
  embeddedChunkCount : Nat := 0
  vectorCount : Nat := 0
  failedChunkCount : Nat := 0
  skippedChunkCount : Nat := 0
  callSiteCount : Nat := 0
  exactEdgeCount : Nat := 0
  ambiguousEdgeCount : Nat := 0
  unresolvedCallCount : Nat := 0
  graphWarningCount : Nat := 0
  graphFingerprint : Option String := none
  graphValidated : Bool := false
  activatedAt : Option Timestamp := none
  cleanupCompletedAt : Option Timestamp := none
  deriving DecidableEq, Repr

structure SymbolDefinition where
  id : SymbolId
  repositoryId : RepositoryId
  indexVersion : Nat
  filePath : String
  language : String
  symbolName : String
  qualifiedName : String
  symbolType : SymbolType
  startLine : Nat
  endLine : Nat
  contentHash : String
  commitSha : CommitSha
  deriving DecidableEq, Repr

structure CallEdge where
  id : EdgeId
  repositoryId : RepositoryId
  indexVersion : Nat
  callerSymbolId : SymbolId
  calleeSymbolId : Option SymbolId
  unresolvedCalleeName : Option String
  filePath : String
  callLine : Nat
  callEndLine : Nat
  callExpression : String
  callSiteFingerprint : String
  resolutionType : ResolutionType
  confidence : Confidence
  commitSha : CommitSha
  deriving DecidableEq, Repr

structure WebhookDelivery where
  id : DeliveryRowId
  deliveryId : String
  eventName : String
  action : Option String := none
  githubInstallationId : Option Nat := none
  githubRepositoryId : Option Nat := none
  repositoryId : Option RepositoryId := none
  indexingJobId : Option JobId := none
  ref : Option String := none
  beforeCommitSha : Option CommitSha := none
  afterCommitSha : Option CommitSha := none
  retryCount : Nat := 0
  status : WebhookDeliveryStatus := .received
  safeErrorCode : Option String := none
  receivedAt : Timestamp
  processedAt : Option Timestamp := none
  deriving DecidableEq, Repr

structure GitHubInstallation where
  id : InstallationId
  githubInstallationId : Nat
  accountType : GitHubAccountType
  accountGithubId : Nat
  accountLogin : String
  installedByUserId : Option UserId := none
  status : InstallationStatus := .active
  permissionsJson : List (String × String) := []
  repositorySelection : RepositorySelection
  suspendedAt : Option Timestamp := none
  deletedAt : Option Timestamp := none
  deriving DecidableEq, Repr

structure InstallationMember where
  installationId : InstallationId
  userId : UserId
  role : InstallationMemberRole
  verifiedAt : Timestamp
  deriving DecidableEq, Repr

structure UserRepository where
  userId : UserId
  repositoryId : RepositoryId
  deriving DecidableEq, Repr

structure User where
  id : UserId
  githubUserId : Option Nat
  deriving DecidableEq, Repr

/-- The committed relational state. -/
structure Database where
  indexingJobs : List IndexingJob := []
  repositories : List Repository := []
  builds : List RepositoryIndexBuild := []
  symbolDefinitions : List SymbolDefinition := []
  callEdges : List CallEdge := []
  webhookDeliveries : List WebhookDelivery := []
  githubInstallations : List GitHubInstallation := []
  installationMembers : List InstallationMember := []
  userRepositories : List UserRepository := []
  users : List User := []
  deriving DecidableEq, Repr

namespace Database

def job? (db : Database) (id : JobId) : Option IndexingJob :=
  db.indexingJobs.find? (·.id == id)

def repository? (db : Database) (id : RepositoryId) : Option Repository :=
  db.repositories.find? (·.id == id)

def build? (db : Database) (repositoryId : RepositoryId) (indexVersion : Nat) :
    Option RepositoryIndexBuild :=
  db.builds.find? fun build =>
    build.repositoryId == repositoryId && build.indexVersion == indexVersion

def installation? (db : Database) (id : InstallationId) : Option GitHubInstallation :=
  db.githubInstallations.find? (·.id == id)

/-- The symbol rows of one index version, in stored order. -/
def symbolsAt (db : Database) (repositoryId : RepositoryId) (indexVersion : Nat) :
    List SymbolDefinition :=
  db.symbolDefinitions.filter fun row =>
    row.repositoryId == repositoryId && row.indexVersion == indexVersion

/-- The call-edge rows of one index version, in stored order. -/
def edgesAt (db : Database) (repositoryId : RepositoryId) (indexVersion : Nat) :
    List CallEdge :=
  db.callEdges.filter fun row =>
    row.repositoryId == repositoryId && row.indexVersion == indexVersion

def updateJobs (db : Database) (guard : IndexingJob → Bool)
    (change : IndexingJob → IndexingJob) : Database :=
  { db with indexingJobs := updateWhere guard change db.indexingJobs }

def updateRepositories (db : Database) (guard : Repository → Bool)
    (change : Repository → Repository) : Database :=
  { db with repositories := updateWhere guard change db.repositories }

def updateBuilds (db : Database) (guard : RepositoryIndexBuild → Bool)
    (change : RepositoryIndexBuild → RepositoryIndexBuild) : Database :=
  { db with builds := updateWhere guard change db.builds }

def updateDeliveries (db : Database) (guard : WebhookDelivery → Bool)
    (change : WebhookDelivery → WebhookDelivery) : Database :=
  { db with webhookDeliveries := updateWhere guard change db.webhookDeliveries }

def updateInstallations (db : Database) (guard : GitHubInstallation → Bool)
    (change : GitHubInstallation → GitHubInstallation) : Database :=
  { db with githubInstallations := updateWhere guard change db.githubInstallations }

/-- `session.scalar(select(WebhookDelivery).where(indexing_job_id == job))`
followed by attribute writes: only the selected row changes. -/
def updateFirstDelivery (db : Database) (jobId : JobId)
    (change : WebhookDelivery → WebhookDelivery) : Database :=
  match db.webhookDeliveries.find? (·.indexingJobId == some jobId) with
  | none => db
  | some delivery => db.updateDeliveries (·.id == delivery.id) change

/-- Delete the symbols of one version. The foreign keys of `call_edges` cascade
to every edge whose caller or callee is deleted. -/
def deleteSymbols (db : Database) (repositoryId : RepositoryId) (indexVersion : Nat) :
    Database :=
  let deleted := db.symbolsAt repositoryId indexVersion
  let referenced := fun (edge : CallEdge) => deleted.any fun symbol =>
    symbol.repositoryId == edge.repositoryId && symbol.indexVersion == edge.indexVersion &&
      (symbol.id == edge.callerSymbolId || some symbol.id == edge.calleeSymbolId)
  { db with
    symbolDefinitions := deleteWhere
      (fun row => row.repositoryId == repositoryId && row.indexVersion == indexVersion)
      db.symbolDefinitions
    callEdges := deleteWhere referenced db.callEdges }

end Database

end Codenaut.Db
