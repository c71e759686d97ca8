import Codenaut.Services.Repositories

/-!
# Public repository import

`PublicRepositoryService._attach`: one transaction under an advisory lock that
finds or inserts the shared repository row, attaches the user and queues a
refresh when one is needed.
-/

set_option autoImplicit false

namespace Codenaut.Services

open Codenaut.Core Codenaut.Db

def newPublicRepository (id : RepositoryId) (now : Timestamp)
    (metadata : GitHub.PublicRepository) : Repository where
  id := id
  installationId := none
  accessMode := .publicAccess
  githubRepositoryId := metadata.repository.id
  githubOwner := metadata.repository.ownerLogin
  githubName := metadata.repository.name
  githubFullName := metadata.repository.fullName
  githubUrl := metadata.repository.htmlUrl
  isPrivate := false
  defaultBranch := metadata.repository.defaultBranch
  currentRemoteSha := some metadata.defaultBranchSha
  primaryLanguage := metadata.repository.language
  sizeBytes := metadata.repository.size.map (· * 1024)
  visibilityCheckedAt := some now

def importedRepository (now : Timestamp) (metadata : GitHub.PublicRepository)
    (row : Repository) : Repository :=
  { row with
    githubOwner := metadata.repository.ownerLogin
    githubName := metadata.repository.name
    githubFullName := metadata.repository.fullName
    githubUrl := metadata.repository.htmlUrl
    isPrivate := false
    defaultBranch := metadata.repository.defaultBranch
    currentRemoteSha := some metadata.defaultBranchSha
    primaryLanguage := metadata.repository.language
    sizeBytes := metadata.repository.size.map (· * 1024)
    visibilityCheckedAt := some now
    accessRevokedAt := none
    deletedAt := none }

/-- The columns written when `_attach` queues a job; only a manual refresh
raises the generation. -/
def importQueued (manual : Bool) (row : Repository) : Repository :=
  { row with
    refreshGeneration := row.refreshGeneration + if manual then 1 else 0
    indexingStatus := .queued
    indexingProgress := 0
    indexingStage := some "queued" }

def importJob (id : JobId) (now : Timestamp) (userId : UserId) (manual : Bool)
    (metadata : GitHub.PublicRepository) (repository : Repository) : IndexingJob where
  id := id
  repositoryId := repository.id
  requestedByUserId := some userId
  jobType := if manual then .manualReindex else .initialIndex
  status := .queued
  stage := some "queued"
  targetCommitSha := some metadata.defaultBranchSha
  targetBranch := some metadata.repository.defaultBranch
  requestedMode := some (if manual then .incremental else .full)
  refreshGeneration := repository.refreshGeneration
  createdAt := now

/-- The per-user bounds on attachments and active imports. -/
def attachLimitReached (settings : Settings) (db : Database) (userId : UserId) : Bool :=
  decide (settings.publicRepositoryLimitPerUser ≤ db.userRepositories.countP (·.userId == userId)) ||
    decide (settings.publicImportActiveLimitPerUser ≤
      db.indexingJobs.countP fun job => job.requestedByUserId == some userId && live job)

def publicRepositoryRow (githubRepositoryId : Nat) (row : Repository) : Bool :=
  row.accessMode == .publicAccess && row.githubRepositoryId == githubRepositoryId

/-- The repository row that `_attach` works on, written with the provider's
metadata, and the database holding it. -/
def importRow (db : Database) (now : Timestamp) (metadata : GitHub.PublicRepository) :
    Repository × Database :=
  match db.repositories.find? (publicRepositoryRow metadata.repository.id) with
  | some row =>
      (importedRepository now metadata row,
        db.updateRepositories (·.id == row.id) (importedRepository now metadata))
  | none =>
      let row := importedRepository now metadata
        (newPublicRepository (newRepositoryId db) now metadata)
      (row, { db with repositories := db.repositories ++ [row] })

/-- The active build is the provider's current commit. -/
def alreadyCurrent (db : Database) (repository : Repository) (sha : CommitSha) : Bool :=
  (db.builds.find? fun build =>
      build.repositoryId == repository.id && build.indexVersion == repository.indexVersion &&
        build.state == .active).any (·.commitSha == sha) &&
    repository.lastIndexedCommitSha == some sha

/-- The user's attachment, inserted unless stored. -/
def joinUser (db : Database) (member : Bool) (userId : UserId) (repositoryId : RepositoryId) :
    Database :=
  if member then db
  else { db with userRepositories := db.userRepositories ++ [{ userId, repositoryId }] }

structure AttachResult where
  repositoryId : RepositoryId
  job : Option JobId
  alreadyCurrent : Bool
  enqueue : Option JobId
  deriving DecidableEq, Repr

/-- `none` is a raised limit or access error, which rolls the transaction back. -/
def attach (settings : Settings) (db : Database) (now : Timestamp) (userId : UserId)
    (metadata : GitHub.PublicRepository) (expectedRepositoryId : Option RepositoryId)
    (manual : Bool) : Option (AttachResult × Database) :=
  let existing := db.repositories.find? (publicRepositoryRow metadata.repository.id)
  if expectedRepositoryId.isSome ∧ existing.map (·.id) ≠ expectedRepositoryId then none
  else
    let member := existing.any fun row => attached db userId row.id
    if !member && attachLimitReached settings db userId then none
    else
      let imported := importRow db now metadata
      let repository := imported.1
      let joined := joinUser imported.2 member userId repository.id
      let current := alreadyCurrent joined repository metadata.defaultBranchSha
      match latestJob (joined.indexingJobs.filter fun job =>
          job.repositoryId == repository.id && live job) with
      | some job => some (⟨repository.id, some job.id, current, none⟩, joined)
      | none =>
          if current then some (⟨repository.id, none, current, none⟩, joined)
          else
            let job := importJob (newJobId db) now userId manual metadata
              (importQueued manual repository)
            some (⟨repository.id, some job.id, current, some job.id⟩,
              insertJob (joined.updateRepositories (·.id == repository.id) (importQueued manual))
                job)

end Codenaut.Services
