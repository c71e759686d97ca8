import Codenaut.Services.Installations

/-!
# Repository selection and manual reindexing

The job-creating transactions of `RepositoryService`.
-/

set_option autoImplicit false

namespace Codenaut.Services

open Codenaut.Core Codenaut.Db

/-- `ORDER BY created_at DESC LIMIT 1`. -/
def latestJob (jobs : List IndexingJob) : Option IndexingJob :=
  jobs.foldl
    (fun latest job => if latest.all (·.createdAt < job.createdAt) then some job else latest) none

def initialJob (id : JobId) (now : Timestamp) (userId : UserId) (repository : Repository) :
    IndexingJob where
  id := id
  repositoryId := repository.id
  requestedByUserId := some userId
  jobType := .initialIndex
  status := .queued
  stage := some "queued"
  targetBranch := some repository.defaultBranch
  refreshGeneration := repository.refreshGeneration
  createdAt := now

/-- The repository columns written when its initial job is created. -/
def selectedRepository (row : Repository) : Repository :=
  { row with
    indexingStatus := .queued
    indexingProgress := 0
    indexingStage := some "queued"
    indexingErrorCode := none
    indexingErrorMessage := none }

/-- The second transaction of `select_repository`, after synchronization. -/
def selectRepository (settings : Settings) (db : Database) (now : Timestamp) (userId : UserId)
    (installationId : InstallationId) (repositoryId : RepositoryId) :
    Option (JobId × Database) :=
  match authorizedInstallation settings db now userId installationId with
  | none => none
  | some _ =>
      match db.repositories.find? fun row =>
          row.id == repositoryId && row.installationId == some installationId &&
            row.accessRevokedAt.isNone && row.deletedAt.isNone with
      | none => none
      | some repository =>
          match latestJob (db.indexingJobs.filter fun job =>
              job.repositoryId == repository.id && job.jobType == .initialIndex) with
          | some job => some (job.id, db)
          | none =>
              let job := initialJob (newJobId db) now userId repository
              some (job.id,
                insertJob (db.updateRepositories (·.id == repository.id) selectedRepository) job)

def reindexedRepository (row : Repository) : Repository :=
  { row with
    refreshGeneration := row.refreshGeneration + 1
    indexingStatus := .queued
    indexingProgress := 0
    indexingStage := some "queued_full_rebuild" }

def reindexJob (id : JobId) (now : Timestamp) (userId : UserId) (repository : Repository) :
    IndexingJob where
  id := id
  repositoryId := repository.id
  requestedByUserId := some userId
  jobType := .manualReindex
  status := .queued
  stage := some "queued"
  targetCommitSha := repository.currentRemoteSha
  targetBranch := some repository.defaultBranch
  requestedMode := some .full
  fullRebuildReason := some "manual_reindex"
  refreshGeneration := repository.refreshGeneration
  createdAt := now

/-- The job-creating transaction of `reindex`; the caller was authorized in an
earlier one. -/
def reindex (db : Database) (now : Timestamp) (userId : UserId) (repositoryId : RepositoryId) :
    Option (JobId × Database) :=
  match db.repository? repositoryId with
  | none => none
  | some repository =>
      let job := reindexJob (newJobId db) now userId (reindexedRepository repository)
      some (job.id,
        insertJob (db.updateRepositories (·.id == repositoryId) reindexedRepository) job)

end Codenaut.Services
