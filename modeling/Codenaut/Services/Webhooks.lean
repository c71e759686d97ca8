import Codenaut.GitHub.Schemas
import Codenaut.Services.IndexingJobs.Claims

/-!
# Webhook deliveries

`WebhookService`: the transaction that records one authenticated delivery and
applies it, and the transactions that record the outcome of enqueueing its job.
A transaction that the database rejects is rolled back (`none`).
-/

set_option autoImplicit false

namespace Codenaut.Services

open Codenaut.Db Codenaut.Relational

/-! ## Rows a refresh writes -/

/-- The repository columns a push writes when it creates a refresh job. -/
def pushedRepository (now : Timestamp) (after : CommitSha) (repository : Repository) :
    Repository :=
  { repository with
    refreshGeneration := repository.refreshGeneration + 1
    latestWebhookCommitSha := some after
    currentRemoteSha := some after
    lastDeliveryStatus := some .queued
    lastDeliveryAt := some now
    indexingStatus := .queued
    indexingProgress := 0
    indexingStage := some "queued_refresh" }

/-- `requested_mode` of a push. -/
def pushMode (repository : Repository) (before : CommitSha) (forced : Bool) : IndexingMode :=
  if forced || repository.indexVersion == 0 || repository.lastIndexedCommitSha != some before then
    .full
  else .incremental

/-- The refresh job of a push, written after the generation was raised. -/
def pushJob (id : JobId) (now : Timestamp) (before after : CommitSha) (forced : Bool)
    (repository : Repository) : IndexingJob where
  id := id
  repositoryId := repository.id
  jobType :=
    match pushMode repository before forced with
    | .full => .fullRebuild
    | .incremental => .incrementalReindex
  status := .queued
  stage := some "queued"
  targetCommitSha := some after
  targetBranch := some repository.defaultBranch
  requestedMode := some (pushMode repository before forced)
  refreshGeneration := repository.refreshGeneration
  createdAt := now

/-- The provider columns of a metadata webhook, and the rebuild it schedules
when the default branch changed. -/
def metadataRepository (external : GitHub.Repository) (repository : Repository) : Repository :=
  let described := { repository with
    githubOwner := external.ownerLogin
    githubName := external.name
    githubFullName := external.fullName
    githubUrl := external.htmlUrl
    defaultBranch := external.defaultBranch
    isPrivate := external.isPrivate }
  if repository.defaultBranch ≠ external.defaultBranch then
    { described with
      refreshGeneration := described.refreshGeneration + 1
      indexingStatus := .queued
      indexingStage := some "queued_full_rebuild" }
  else described

def branchJob (id : JobId) (now : Timestamp) (repository : Repository) : IndexingJob where
  id := id
  repositoryId := repository.id
  jobType := .fullRebuild
  status := .queued
  stage := some "queued"
  targetBranch := some repository.defaultBranch
  requestedMode := some .full
  fullRebuildReason := some "default_branch_changed"
  refreshGeneration := repository.refreshGeneration
  createdAt := now

/-! ## Database constraints on repositories -/

/-- `uq_repositories_installation_github_repository`,
`uq_repositories_installation_full_name` (NULL installations never collide) and
`uq_repositories_public_github_repository`. -/
def repositoryKeysUnique (rows : List Repository) : Bool :=
  let owned := rows.filter (·.installationId.isSome)
  decide (owned.map fun row => (row.installationId, row.githubRepositoryId)).Nodup &&
    decide (owned.map fun row => (row.installationId, row.githubFullName)).Nodup &&
    decide ((rows.filter (·.accessMode == .publicAccess)).map (·.githubRepositoryId)).Nodup

/-- A flush of repository rows: rejected when a unique constraint breaks. -/
def flushRepositories (db : Database) : Option Database :=
  if repositoryKeysUnique db.repositories then some db else none

def newJobId (db : Database) : JobId :=
  freshKey (db.indexingJobs.map (·.id))

def newRepositoryId (db : Database) : RepositoryId :=
  freshKey (db.repositories.map (·.id))

def insertJob (db : Database) (job : IndexingJob) : Database :=
  { db with indexingJobs := db.indexingJobs ++ [job] }

/-! ## Deliveries -/

def updateDelivery (db : Database) (deliveryRow : DeliveryRowId)
    (change : WebhookDelivery → WebhookDelivery) : Database :=
  db.updateDeliveries (·.id == deliveryRow) change

/-- `_finish_delivery`. -/
def finishDelivery (db : Database) (now : Timestamp) (deliveryRow : DeliveryRowId)
    (status : WebhookDeliveryStatus) (safeErrorCode : String) : Database :=
  updateDelivery db deliveryRow fun delivery =>
    { delivery with
      status := status
      safeErrorCode := some safeErrorCode
      processedAt := some now }

def activeInstallation (githubInstallationId : Nat) (row : GitHubInstallation) : Bool :=
  row.githubInstallationId == githubInstallationId && row.status == .active &&
    row.deletedAt.isNone

def reachableRepository (installationId : InstallationId) (githubRepositoryId : Nat)
    (row : Repository) : Bool :=
  row.installationId == some installationId && row.githubRepositoryId == githubRepositoryId &&
    row.accessRevokedAt.isNone && row.deletedAt.isNone

/-! ## `_apply_push` -/

def live (job : IndexingJob) : Bool :=
  job.status == .queued || job.status == .running || job.status == .retrying

/-- A live job of the repository that already targets the pushed commit. -/
def existingJob (repositoryId : RepositoryId) (after : CommitSha) (job : IndexingJob) : Bool :=
  job.repositoryId == repositoryId && job.targetCommitSha == some after && live job

def zeroSha : CommitSha := "0000000000000000000000000000000000000000"

/-- A push to a located repository: the terminal shortcuts, then the refresh. -/
def pushTo (db : Database) (now : Timestamp) (deliveryRow : DeliveryRowId)
    (repository : Repository) (ref : String) (before after : CommitSha) (forced deleted : Bool) :
    Option JobId × Database :=
  let noted := updateDelivery db deliveryRow fun delivery =>
    { delivery with
      repositoryId := some repository.id
      ref := some ref
      beforeCommitSha := some before
      afterCommitSha := some after }
  if ref ≠ "refs/heads/" ++ repository.defaultBranch then
    (none, finishDelivery noted now deliveryRow .ignored "non_default_branch")
  else if deleted ∨ after = zeroSha then
    (none, finishDelivery noted now deliveryRow .ignored "branch_deleted")
  else if repository.lastIndexedCommitSha = some after then
    (none, (finishDelivery noted now deliveryRow .stale "already_active").updateRepositories
      (·.id == repository.id) fun row =>
        { row with
          lastDeliveryStatus := some .stale
          lastDeliveryAt := some now })
  else
    match db.indexingJobs.find? (existingJob repository.id after) with
    | some existing =>
        (none, updateDelivery noted deliveryRow fun delivery =>
          { delivery with
            status := .queued
            indexingJobId := some existing.id })
    | none =>
        let raised := pushedRepository now after repository
        let job := pushJob (newJobId db) now before after forced raised
        (some job.id,
          insertJob (noted.updateRepositories (·.id == repository.id) (pushedRepository now after))
            job)

def applyPush (db : Database) (now : Timestamp) (deliveryRow : DeliveryRowId)
    (githubInstallationId githubRepositoryId : Nat) (ref : String) (before after : CommitSha)
    (forced deleted : Bool) : Option JobId × Database :=
  match db.githubInstallations.find? (activeInstallation githubInstallationId) with
  | none => (none, finishDelivery db now deliveryRow .unauthorized "installation_unauthorized")
  | some installation =>
      match db.repositories.find? (reachableRepository installation.id githubRepositoryId) with
      | none => (none, finishDelivery db now deliveryRow .unauthorized "repository_unauthorized")
      | some repository => pushTo db now deliveryRow repository ref before after forced deleted

/-! ## `_apply_repository_metadata` -/

def applyRepositoryMetadata (db : Database) (now : Timestamp) (deliveryRow : DeliveryRowId)
    (githubInstallationId : Nat) (external : GitHub.Repository) :
    Option (Option JobId × Database) :=
  match db.githubInstallations.find? (activeInstallation githubInstallationId) with
  | none =>
      some (none, finishDelivery db now deliveryRow .unauthorized "installation_unauthorized")
  | some installation =>
      match db.repositories.find? (reachableRepository installation.id external.id) with
      | none =>
          some (none, finishDelivery db now deliveryRow .unauthorized "repository_unauthorized")
      | some repository =>
          let noted := updateDelivery db deliveryRow fun delivery =>
            { delivery with repositoryId := some repository.id }
          (flushRepositories (noted.updateRepositories (·.id == repository.id)
            (metadataRepository external))).map fun described =>
              if repository.defaultBranch ≠ external.defaultBranch then
                let job := branchJob (newJobId db) now (metadataRepository external repository)
                (some job.id, insertJob described job)
              else (none, described)

/-! ## Installation access -/

def installationKey (githubInstallationId : Nat) (row : GitHubInstallation) : Bool :=
  row.githubInstallationId == githubInstallationId

def describedInstallation (external : GitHub.Installation) (row : GitHubInstallation) :
    GitHubInstallation :=
  { row with
    accountType := external.account.type
    accountGithubId := external.account.id
    accountLogin := external.account.login
    permissionsJson := external.permissions
    repositorySelection := external.repositorySelection }

def newInstallation (db : Database) (external : GitHub.Installation) : GitHubInstallation where
  id := freshKey (db.githubInstallations.map (·.id))
  githubInstallationId := external.id
  accountType := external.account.type
  accountGithubId := external.account.id
  accountLogin := external.account.login
  repositorySelection := external.repositorySelection

/-- `_upsert_installation`, with the row's later attribute writes in `change`. -/
def upsertInstallation (db : Database) (external : GitHub.Installation)
    (change : GitHubInstallation → GitHubInstallation) : InstallationId × Database :=
  match db.githubInstallations.find? (installationKey external.id) with
  | some row =>
      (row.id, db.updateInstallations (·.id == row.id) fun stored =>
        change (describedInstallation external stored))
  | none =>
      let row := newInstallation db external
      (row.id, { db with githubInstallations := db.githubInstallations ++
        [change (describedInstallation external row)] })

def revokedRepository (now : Timestamp) (row : Repository) : Repository :=
  { row with
    accessRevokedAt := some now
    indexingStatus := .accessRevoked }

def revokeInstallationRepositories (db : Database) (installationId : InstallationId)
    (now : Timestamp) : Database :=
  db.updateRepositories (·.installationId == some installationId) (revokedRepository now)

/-- The status columns that an installation action writes. -/
def installationStatus (action : Option String) (now : Timestamp)
    (external : GitHub.Installation) (row : GitHubInstallation) : GitHubInstallation :=
  if action = some "deleted" then { row with status := .deleted, deletedAt := some now }
  else if action = some "suspend" then
    { row with status := .suspended, suspendedAt := some (external.suspendedAt.getD now) }
  else if action = some "created" ∨ action = some "unsuspend" then
    { row with status := .active, suspendedAt := none, deletedAt := none }
  else row

/-- The sender of an installation becomes an owner of it, unless a member. -/
def joinSender (db : Database) (now : Timestamp) (installationId : InstallationId)
    (sender : Option GitHub.User) : Database :=
  match sender.bind fun author => db.users.find? (·.githubUserId == some author.id) with
  | none => db
  | some user =>
      if db.installationMembers.any fun row =>
          row.installationId == installationId && row.userId == user.id then db
      else
        { db with installationMembers := db.installationMembers ++
          [{ installationId, userId := user.id, role := .owner, verifiedAt := now }] }

def applyInstallation (db : Database) (now : Timestamp) (action : Option String)
    (external : GitHub.Installation) (sender : Option GitHub.User) : Database :=
  let upserted := upsertInstallation db external (installationStatus action now external)
  if action = some "deleted" ∨ action = some "suspend" then
    revokeInstallationRepositories upserted.2 upserted.1 now
  else if action = some "created" then joinSender upserted.2 now upserted.1 sender
  else upserted.2

/-- Access granted again: the revocation columns are cleared, and a revoked
status starts over as not indexed. -/
def restoredRepository (row : Repository) : Repository :=
  { row with
    accessRevokedAt := none
    deletedAt := none
    indexingStatus :=
      if row.indexingStatus = .accessRevoked then .notIndexed else row.indexingStatus
    indexingProgress :=
      if row.indexingStatus = .accessRevoked then 0 else row.indexingProgress }

def newRepository (id : RepositoryId) (installationId : InstallationId)
    (external : GitHub.Repository) : Repository where
  id := id
  installationId := some installationId
  githubRepositoryId := external.id
  githubOwner := external.ownerLogin
  githubName := external.name
  githubFullName := external.fullName
  githubUrl := external.htmlUrl
  isPrivate := external.isPrivate
  defaultBranch := external.defaultBranch

/-- One iteration over `repositories_added`. The rows selected are those of the
database before the loop, because new rows are flushed only at commit. -/
def addRepository (stored : List Repository) (installationId : InstallationId) (db : Database)
    (external : GitHub.Repository) : Database :=
  match stored.find? fun row =>
      row.installationId == some installationId && row.githubRepositoryId == external.id with
  | some row => db.updateRepositories (·.id == row.id) restoredRepository
  | none =>
      { db with repositories := db.repositories ++
        [newRepository (newRepositoryId db) installationId external] }

def applyRepositoryAccess (db : Database) (now : Timestamp) (external : GitHub.Installation)
    (added : List GitHub.Repository) (removed : List Nat) : Option Database :=
  let upserted := upsertInstallation db external id
  let withdrawn := upserted.2.updateRepositories
    (fun row => row.installationId == some upserted.1 && removed.contains row.githubRepositoryId)
    (revokedRepository now)
  flushRepositories (added.foldl (addRepository withdrawn.repositories upserted.1) withdrawn)

/-- The repository action `deleted`. -/
def deleteRepository (db : Database) (now : Timestamp) (githubInstallationId : Nat)
    (external : GitHub.Repository) : Database :=
  match db.githubInstallations.find? (installationKey githubInstallationId) with
  | none => db
  | some installation =>
      db.updateRepositories
        (fun row => row.githubRepositoryId == external.id &&
          row.installationId == some installation.id)
        fun row => { revokedRepository now row with deletedAt := some now }

/-! ## `handle` -/

def installationActions : List String := ["created", "deleted", "suspend", "unsuspend"]

def repositoryActions : List String :=
  ["archived", "deleted", "edited", "privatized", "publicized", "renamed", "unarchived"]

def supportedEvents : List String :=
  ["installation", "installation_repositories", "push", "repository"]

/-- What an authenticated body asks for, once `_validate_supported_payload`
accepted its event name and fields. -/
inductive WebhookEvent where
  | installation (action : Option String) (external : GitHub.Installation)
      (sender : Option GitHub.User)
  | repositoryAccess (external : GitHub.Installation) (added : List GitHub.Repository)
      (removed : List Nat)
  | push (githubInstallationId githubRepositoryId : Nat) (ref : String)
      (before after : CommitSha) (forced deleted : Bool)
  | repositoryDeleted (githubInstallationId : Nat) (external : GitHub.Repository)
  | repositoryMetadata (githubInstallationId : Nat) (external : GitHub.Repository)
  | unsupported
  deriving DecidableEq, Repr

/-- `_validate_supported_payload` and the dispatch of `_apply_event`; `none` is
`WebhookPayloadError`. -/
def webhookEvent (eventName : String) (payload : GitHub.WebhookPayload) : Option WebhookEvent :=
  let noCommits := payload.ref.isNone && payload.before.isNone && payload.after.isNone
  let noLists := payload.repositoriesAdded.isEmpty && payload.repositoriesRemoved.isEmpty
  if !supportedEvents.contains eventName then some .unsupported
  else
    match payload.installation with
    | none => none
    | some installation =>
        if eventName = "installation" then
          if payload.action.any installationActions.contains && payload.repository.isNone &&
              noLists && noCommits then
            some (.installation payload.action installation payload.sender)
          else none
        else if eventName = "installation_repositories" then
          if payload.repository.isNone && noCommits &&
              ((payload.action = some "added" && !payload.repositoriesAdded.isEmpty &&
                  payload.repositoriesRemoved.isEmpty) ||
                (payload.action = some "removed" && !payload.repositoriesRemoved.isEmpty &&
                  payload.repositoriesAdded.isEmpty)) then
            some (.repositoryAccess installation payload.repositoriesAdded
              payload.repositoriesRemoved)
          else none
        else if eventName = "push" then
          match payload.repository, payload.ref, payload.before, payload.after with
          | some repository, some ref, some before, some after =>
              if payload.action.isNone && noLists then
                some (.push installation.id repository.id ref before after payload.forced
                  payload.deleted)
              else none
          | _, _, _, _ => none
        else
          match payload.repository with
          | none => none
          | some repository =>
              if payload.action.any repositoryActions.contains && noLists && noCommits then
                if payload.action = some "deleted" then
                  some (.repositoryDeleted installation.id repository)
                else some (.repositoryMetadata installation.id repository)
              else none

/-- `_apply_event`, inside the delivery's transaction. -/
def applyEvent (db : Database) (now : Timestamp) (deliveryRow : DeliveryRowId) :
    WebhookEvent → Option (Option JobId × Database)
  | .installation action external sender =>
      some (none, applyInstallation db now action external sender)
  | .repositoryAccess external added removed =>
      (applyRepositoryAccess db now external added removed).map fun applied => (none, applied)
  | .push githubInstallationId githubRepositoryId ref before after forced deleted =>
      some (applyPush db now deliveryRow githubInstallationId githubRepositoryId ref before after
        forced deleted)
  | .repositoryDeleted githubInstallationId external =>
      some (none, deleteRepository db now githubInstallationId external)
  | .repositoryMetadata githubInstallationId external =>
      applyRepositoryMetadata db now deliveryRow githubInstallationId external
  | .unsupported => some (none, finishIgnored db)
where
  finishIgnored (db : Database) : Database :=
    updateDelivery db deliveryRow fun delivery =>
      { delivery with
        status := .ignored
        processedAt := some now }

/-- The delivery row as the event left it: queued with its job, or processed
when no branch settled it. -/
def settleDelivery (now : Timestamp) (job : Option JobId) (delivery : WebhookDelivery) :
    WebhookDelivery :=
  match job with
  | some id => { delivery with status := .queued, indexingJobId := some id }
  | none =>
      if delivery.status = .received then
        { delivery with status := .processed, processedAt := some now }
      else delivery

inductive WebhookOutcome where
  | accepted
  | duplicate
  | ignored
  deriving DecidableEq, Repr

def newDeliveryRow (db : Database) : DeliveryRowId :=
  freshKey (db.webhookDeliveries.map (·.id))

/-- The delivery row is inserted first, as received. -/
def receiveDelivery (db : Database) (now : Timestamp) (deliveryId eventName : String)
    (payload : GitHub.WebhookPayload) : Database :=
  { db with webhookDeliveries := db.webhookDeliveries ++
    [{ id := newDeliveryRow db
       deliveryId := deliveryId
       eventName := eventName
       action := payload.action
       githubInstallationId := payload.installation.map (·.id)
       githubRepositoryId := payload.repository.map (·.id)
       receivedAt := now }] }

/-- `handle` up to its first commit. `none` is a rejected or failed request,
whose transaction is rolled back. The delivery keys say which installation and
repository the payload names. -/
def handle (db : Database) (now : Timestamp) (deliveryId eventName : String)
    (payload : GitHub.WebhookPayload) : Option (WebhookOutcome × Option JobId × Database) :=
  match webhookEvent eventName payload with
  | none => none
  | some event =>
      if db.webhookDeliveries.any (·.deliveryId == deliveryId) then some (.duplicate, none, db)
      else
        let deliveryRow := newDeliveryRow db
        (applyEvent (receiveDelivery db now deliveryId eventName payload) now deliveryRow event).map
          fun (job, applied) =>
            (if event = .unsupported then .ignored else .accepted, job,
              updateDelivery applied deliveryRow (settleDelivery now job))

/-- The queue refused the job of a delivery. -/
def recordQueueFailure (db : Database) (deliveryRow : DeliveryRowId) : Database :=
  updateDelivery db deliveryRow fun delivery =>
    { delivery with
      status := .retryable
      safeErrorCode := some "queue_unavailable"
      retryCount := delivery.retryCount + 1 }

/-- The queue accepted a job: webhooks, selection, reindexing and import. -/
def recordEnqueued (db : Database) (now : Timestamp) (jobId : JobId) : Database :=
  db.updateJobs (·.id == jobId) fun job => { job with lastEnqueuedAt := some now }

end Codenaut.Services
