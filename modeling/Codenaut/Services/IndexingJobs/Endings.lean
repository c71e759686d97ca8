import Codenaut.Services.IndexingJobs.Claims

/-!
# Job store: ending, recovering and requeueing a job

The transactions that end a claim without activation, and the reconciliation
queries.
-/

set_option autoImplicit false

namespace Codenaut.Services

open Codenaut.Core Codenaut.Db

def revokedJob (now : Timestamp) (job : IndexingJob) : IndexingJob :=
  { job with
    status := .cancelled
    errorCode := some "repository_access_revoked"
    safeErrorMessage := some "Repository access is no longer authorized"
    completedAt := some now
    heartbeatAt := some now
    lockedBy := none }

def cancelRevoked (db : Database) (now : Timestamp) (claimed : ClaimedJob)
    (workerId : WorkerId) : Database :=
  match db.indexingJobs.find? (heldBy claimed workerId) with
  | none => db
  | some job =>
      ((db.updateJobs (heldBy claimed workerId) (revokedJob now)).updateRepositories
        (·.id == job.repositoryId) fun row =>
          { row with
            indexingStatus := .accessRevoked
            indexingErrorCode := some "repository_access_revoked"
            indexingErrorMessage := some "Repository access is no longer authorized" }).updateFirstDelivery
        claimed.id fun delivery =>
          { delivery with
            status := .unauthorized
            safeErrorCode := some "repository_access_revoked"
            processedAt := some now }

/-- `fail` decides on the attempt recorded at claim time. -/
def shouldRetry (settings : Settings) (claimed : ClaimedJob) (retryable : Bool) : Bool :=
  retryable && decide (claimed.attempt < settings.workerMaxAttempts)

def failedJob (settings : Settings) (now : Timestamp) (claimed : ClaimedJob) (code : String)
    (safeMessage : String) (retry : Bool) (jitter : Nat) (job : IndexingJob) : IndexingJob :=
  { job with
    status := if retry then .retrying else .failed
    errorCode := some code
    safeErrorMessage := some safeMessage
    nextAttemptAt :=
      if retry then some (now + settings.retryDelay claimed.attempt jitter) else none
    completedAt := if retry then none else some now
    heartbeatAt := some now
    lockedBy := none
    stage := some (if retry then "retry_wait" else "failed") }

/-- The repository columns written when a job ends by failure or recovery. -/
def failedRepository (code safeMessage : String) (retry : Bool) (row : Repository) : Repository :=
  { row with
    indexingStatus := if retry then .queued else .failed
    indexingStage := some (if retry then "retry_wait" else "failed")
    indexingErrorCode := some code
    indexingErrorMessage := some safeMessage }

def fail (settings : Settings) (db : Database) (now : Timestamp) (jitter : Nat)
    (claimed : ClaimedJob) (workerId : WorkerId) (code safeMessage : String)
    (retryable : Bool) : Bool × Database :=
  let retry := shouldRetry settings claimed retryable
  match db.indexingJobs.find? (heldBy claimed workerId) with
  | none => (retry, db)
  | some job =>
      (retry,
        ((db.updateJobs (heldBy claimed workerId)
            (failedJob settings now claimed code safeMessage retry jitter)).updateRepositories
          (·.id == job.repositoryId) (failedRepository code safeMessage retry)).updateFirstDelivery
          claimed.id fun delivery =>
            { delivery with
              status := if retry then .retryable else .failed
              safeErrorCode := some code
              retryCount := claimed.attempt
              processedAt := if retry then none else some now })

/-! ## `recover_abandoned` -/

def abandoned (settings : Settings) (now : Timestamp) (job : IndexingJob) : Bool :=
  job.status == .running &&
    job.heartbeatAt.all fun beat => decide (beat < now - settings.abandonedAfter)

def recoveredJob (settings : Settings) (now : Timestamp) (job : IndexingJob) : IndexingJob :=
  let retry := decide (job.attempt < settings.workerMaxAttempts)
  { job with
    status := if retry then .retrying else .failed
    nextAttemptAt := if retry then some now else none
    lockedBy := none
    errorCode := some "worker_abandoned"
    safeErrorMessage := some "Worker stopped before the job completed"
    stage := some (if retry then "retry_wait" else "failed")
    completedAt := if retry then job.completedAt else some now }

/-- One iteration of the recovery loop, on a selected job. -/
def recoverJob (settings : Settings) (now : Timestamp) (db : Database) (job : IndexingJob) :
    Database :=
  let retry := decide (job.attempt < settings.workerMaxAttempts)
  ((db.updateJobs (·.id == job.id) (recoveredJob settings now)).updateRepositories
    (·.id == job.repositoryId)
    (failedRepository "worker_abandoned" "Worker stopped before the job completed" retry)).updateDeliveries
    (·.indexingJobId == some job.id) fun delivery =>
      { delivery with
        status := if retry then .retryable else .failed
        retryCount := job.attempt
        safeErrorCode := some "worker_abandoned"
        processedAt := if retry then none else some now }

def recoverAbandoned (settings : Settings) (db : Database) (now : Timestamp) : Nat × Database :=
  let jobs := db.indexingJobs.filter (abandoned settings now)
  (jobs.length, jobs.foldl (recoverJob settings now) db)

/-! ## Requeueing -/

def markEnqueued (db : Database) (now : Timestamp) (jobId : JobId) : Database :=
  db.updateJobs
    (fun job => job.id == jobId && (job.status == .queued || job.status == .retrying))
    fun job => { job with lastEnqueuedAt := some now }

end Codenaut.Services
