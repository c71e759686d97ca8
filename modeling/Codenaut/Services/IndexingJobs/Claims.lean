import Codenaut.Core.Settings
import Codenaut.Indexing.Models

/-!
# Job store: claiming and following a job

`IndexingJobStore` transactions that take, authorize, follow and supersede a
claimed job. Each is a function from the committed database to its result and
the database it commits; `now` is the clock reading of the transaction.
-/

set_option autoImplicit false

namespace Codenaut.Services

open Codenaut.Core Codenaut.Db Codenaut.Indexing

structure ClaimedJob where
  id : JobId
  repositoryId : RepositoryId
  attempt : Nat
  deriving DecidableEq, Repr

structure JobContext where
  jobId : JobId
  repositoryId : RepositoryId
  installationId : Option InstallationId
  githubInstallationId : Option Nat
  owner : String
  name : String
  defaultBranch : String
  indexVersion : Nat
  githubRepositoryId : Nat := 1
  refreshGeneration : Nat := 0
  activeIndexVersion : Nat := 0
  activeCommitSha : Option CommitSha := none
  indexedBranch : Option String := none
  requestedMode : IndexingMode := .full
  accessMode : RepositoryAccessMode := .githubInstallation
  deriving DecidableEq, Repr

/-- The ownership guard of a claim: still RUNNING and locked by this worker. -/
def heldBy (claimed : ClaimedJob) (workerId : WorkerId) (job : IndexingJob) : Bool :=
  job.id == claimed.id && job.status == .running && job.lockedBy == some workerId

def claimable (jobId : JobId) (now : Timestamp) (job : IndexingJob) : Bool :=
  job.id == jobId && (job.status == .queued || job.status == .retrying) &&
    job.nextAttemptAt.all fun due => decide (due ≤ now)

def claimValues (workerId : WorkerId) (now : Timestamp) (job : IndexingJob) : IndexingJob :=
  { job with
    status := .running
    attempt := job.attempt + 1
    lockedBy := some workerId
    startedAt := some now
    heartbeatAt := some now
    nextAttemptAt := none
    errorCode := none
    safeErrorMessage := none }

/-- Another job of the repository is RUNNING, so that a second one would break
`uq_indexing_jobs_repository_active`. -/
def runningElsewhere (db : Database) (job : IndexingJob) : Bool :=
  db.indexingJobs.any fun other =>
    other.id != job.id && other.repositoryId == job.repositoryId && other.status == .running

def cloningValues (repository : Repository) : Repository :=
  { repository with
    indexingStatus := .cloning
    indexingProgress := 5
    indexingStage := some "cloning"
    indexingErrorCode := none
    indexingErrorMessage := none }

def claim (db : Database) (now : Timestamp) (jobId : JobId) (workerId : WorkerId) :
    Option ClaimedJob × Database :=
  match db.indexingJobs.find? (claimable jobId now) with
  | none => (none, db)
  | some job =>
      if runningElsewhere db job then
        -- the unique index raises IntegrityError and the update is rolled back
        (none, db)
      else
        (some ⟨job.id, job.repositoryId, job.attempt + 1⟩,
          ((db.updateJobs (claimable jobId now) (claimValues workerId now)).updateRepositories
            (·.id == job.repositoryId) cloningValues).updateDeliveries
              (·.indexingJobId == some job.id)
              fun delivery => { delivery with status := .processing })

/-- Durable access to a repository: not revoked, not deleted, and for an
installation repository an active installation. -/
def accessGranted (repository : Repository) (installation : Option GitHubInstallation) : Bool :=
  repository.accessRevokedAt.isNone && repository.deletedAt.isNone &&
    match repository.accessMode with
    | .publicAccess => true
    | .githubInstallation =>
        installation.any fun row => row.status == .active && row.deletedAt.isNone

/-- The membership half of the authorization query: some attached user, or a
member verified within the TTL, and the requester when the job has one. -/
def memberGranted (settings : Settings) (db : Database) (now : Timestamp) (job : IndexingJob)
    (repository : Repository) (installation : Option GitHubInstallation) : Bool :=
  match repository.accessMode with
  | .publicAccess =>
      db.userRepositories.any fun row =>
        row.repositoryId == repository.id &&
          job.requestedByUserId.all fun requester => row.userId == requester
  | .githubInstallation =>
      installation.any fun owner =>
        db.installationMembers.any fun row =>
          row.installationId == owner.id &&
            decide (now - settings.membershipTtl ≤ row.verifiedAt) &&
            job.requestedByUserId.all fun requester => row.userId == requester

def contextOf (claimed : ClaimedJob) (job : IndexingJob) (repository : Repository)
    (installation : Option GitHubInstallation) (target : Nat) : JobContext where
  jobId := claimed.id
  repositoryId := repository.id
  installationId := installation.map (·.id)
  githubInstallationId := installation.map (·.githubInstallationId)
  owner := repository.githubOwner
  name := repository.githubName
  defaultBranch := repository.defaultBranch
  indexVersion := target
  githubRepositoryId := repository.githubRepositoryId
  refreshGeneration := job.refreshGeneration
  activeIndexVersion := repository.indexVersion
  activeCommitSha := repository.lastIndexedCommitSha
  indexedBranch := repository.indexedBranch
  requestedMode := job.requestedMode.getD .full
  accessMode := repository.accessMode

/-- Authorize a claim and fix its target version at the first success. The
query asks for a RUNNING job but not for this worker's lock. -/
def authorizedContext (settings : Settings) (db : Database) (now : Timestamp)
    (claimed : ClaimedJob) : Option JobContext × Database :=
  match db.indexingJobs.find? fun job => job.id == claimed.id && job.status == .running with
  | none => (none, db)
  | some job =>
      match db.repository? job.repositoryId with
      | none => (none, db)
      | some repository =>
          let installation := repository.installationId.bind db.installation?
          if accessGranted repository installation &&
              memberGranted settings db now job repository installation then
            let target := job.targetIndexVersion.getD (repository.indexVersion + 1)
            (some (contextOf claimed job repository installation target),
              db.updateJobs (·.id == job.id) fun row =>
                { row with targetIndexVersion := some target })
          else (none, db)

def revokedValues (now : Timestamp) (repository : Repository) : Repository :=
  { repository with
    accessRevokedAt := some now
    indexingStatus := .accessRevoked
    indexingStage := some "public_access_unavailable" }

def revokePublicAccess (db : Database) (now : Timestamp) (repositoryId : RepositoryId) :
    Database :=
  db.updateRepositories (fun row => row.id == repositoryId && row.accessMode == .publicAccess)
    (revokedValues now)

def heartbeatValues (now : Timestamp) (job : IndexingJob) : IndexingJob :=
  { job with heartbeatAt := some now }

def heartbeat (db : Database) (now : Timestamp) (claimed : ClaimedJob) (workerId : WorkerId) :
    Database :=
  db.updateJobs (heldBy claimed workerId) (heartbeatValues now)

/-- The freshness fence: same generation, and the target branch, when set, is
the default branch. -/
def fenceAllows (job : IndexingJob) (repository : Repository) : Bool :=
  job.refreshGeneration == repository.refreshGeneration &&
    job.targetBranch.all fun branch => branch == repository.defaultBranch

def isCurrent (db : Database) (claimed : ClaimedJob) (workerId : WorkerId) : Bool :=
  match db.indexingJobs.find? (heldBy claimed workerId) with
  | none => false
  | some job => (db.repository? job.repositoryId).any fun repository => fenceAllows job repository

def staleValues (now : Timestamp) (code : String) (superseded : Bool) (job : IndexingJob) :
    IndexingJob :=
  { job with
    status := .cancelled
    stage := some (if superseded then "superseded" else "stale")
    errorCode := some code
    safeErrorMessage := some "A newer repository state superseded this refresh"
    completedAt := some now
    heartbeatAt := some now
    lockedBy := none }

/-- The repository row is not written: its status stays what it was. -/
def markStale (db : Database) (now : Timestamp) (claimed : ClaimedJob) (workerId : WorkerId)
    (code : String) (superseded : Bool) : Database :=
  match db.indexingJobs.find? (heldBy claimed workerId) with
  | none => db
  | some job =>
      (db.updateJobs (heldBy claimed workerId) (staleValues now code superseded)).updateFirstDelivery
        job.id fun delivery =>
          { delivery with
            status := if superseded then .superseded else .stale
            safeErrorCode := some code
            processedAt := some now }

def recordFreshnessPlan (db : Database) (claimed : ClaimedJob) (workerId : WorkerId)
    (actualMode : IndexingMode) (fallbackReason : Option String)
    (changedCounts : List (String × Nat)) (changedFileCount : Nat) : Database :=
  db.updateJobs (heldBy claimed workerId) fun job =>
    { job with
      actualMode := some actualMode
      fullRebuildReason := fallbackReason
      metrics := { job.metrics with
        changedFilesJson := changedCounts
        changedFileCount := changedFileCount
        graphRebuilt := true } }

def stage (db : Database) (now : Timestamp) (claimed : ClaimedJob) (workerId : WorkerId)
    (status : RepositoryIndexingStatus) (stageName : String) (progress : Nat)
    (commitSha : Option CommitSha) : Database :=
  match db.indexingJobs.find? (heldBy claimed workerId) with
  | none => db
  | some job =>
      (db.updateJobs (heldBy claimed workerId) fun row =>
        { row with
          stage := some stageName
          progress := progress
          heartbeatAt := some now
          sourceCommitSha := commitSha.or row.sourceCommitSha }).updateRepositories
        (·.id == job.repositoryId) fun row =>
          { row with
            indexingStatus := status
            indexingStage := some stageName
            indexingProgress := progress
            currentRemoteSha := commitSha.or row.currentRemoteSha }

end Codenaut.Services
