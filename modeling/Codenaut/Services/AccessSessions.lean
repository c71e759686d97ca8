import Codenaut.Services.Auth
import Codenaut.Services.Installations
import Codenaut.Transaction.Insertion

/-!
# Access under concurrency

The transactions of `synchronize_repositories`, of a GitHub sign-in and of the
webhooks that withdraw access, statement by statement on `github_installations`
and `repositories` under READ COMMITTED. A flush writes the columns whose value
differs from the loaded one, and is not executed when none does.
-/

set_option autoImplicit false

namespace Codenaut.Services

open Codenaut.Db Codenaut.Relational Codenaut.Transaction

inductive AccessRow where
  | installation (row : GitHubInstallation)
  | repository (row : Repository)
  deriving DecidableEq, Repr

inductive AccessKey where
  | installation (id : InstallationId)
  | repository (id : RepositoryId)
  deriving DecidableEq, Repr

def accessKey : AccessRow → AccessKey
  | .installation row => .installation row.id
  | .repository row => .repository row.id

/-- One call. The listing of a synchronization and of a sign-in was fetched
before the session starts; `member` answers the join with the memberships. -/
inductive AccessCall where
  | synchronize (now : Timestamp) (installationId : InstallationId) (member : Bool)
      (externals : List GitHub.Repository)
  | signIn (userId : UserId) (githubUserId : Nat) (externals : List GitHub.Installation)
  | suspended (now : Timestamp) (external : GitHub.Installation)
  | deleted (now : Timestamp) (external : GitHub.Installation)
  | repositoriesRemoved (now : Timestamp) (external : GitHub.Installation) (removed : List Nat)
  | repositoryDeleted (now : Timestamp) (githubInstallationId githubRepositoryId : Nat)
  deriving DecidableEq, Repr

/-- The columns of a row to insert; its id is drawn at the commit. -/
abbrev AccessNote := AccessRow

abbrev AccessScript := Script AccessRow AccessNote

/-! ## Rows -/

def onInstallation (change : GitHubInstallation → GitHubInstallation) : AccessRow → AccessRow
  | .installation row => .installation (change row)
  | row => row

def onRepository (change : Repository → Repository) : AccessRow → AccessRow
  | .repository row => .repository (change row)
  | row => row

def isInstallation (guard : GitHubInstallation → Bool) : AccessRow → Bool
  | .installation row => guard row
  | .repository _ => false

def isRepository (guard : Repository → Bool) : AccessRow → Bool
  | .repository row => guard row
  | .installation _ => false

/-- Access is withdrawn: a revoked repository, or an installation that is not active. -/
def AccessRow.withdrawn : AccessRow → Bool
  | .installation row => row.status != .active
  | .repository row => row.accessRevokedAt.isSome

/-! ## Flushes -/

/-- A column after a flush: unchanged columns are not written. -/
def writtenColumn {Column : Type} [DecidableEq Column] (loaded new current : Column) : Column :=
  if new = loaded then current else new

def flushedInstallation (loaded new current : GitHubInstallation) : GitHubInstallation :=
  { current with
    accountType := writtenColumn loaded.accountType new.accountType current.accountType
    accountGithubId :=
      writtenColumn loaded.accountGithubId new.accountGithubId current.accountGithubId
    accountLogin := writtenColumn loaded.accountLogin new.accountLogin current.accountLogin
    installedByUserId :=
      writtenColumn loaded.installedByUserId new.installedByUserId current.installedByUserId
    status := writtenColumn loaded.status new.status current.status
    permissionsJson :=
      writtenColumn loaded.permissionsJson new.permissionsJson current.permissionsJson
    repositorySelection :=
      writtenColumn loaded.repositorySelection new.repositorySelection current.repositorySelection
    suspendedAt := writtenColumn loaded.suspendedAt new.suspendedAt current.suspendedAt
    deletedAt := writtenColumn loaded.deletedAt new.deletedAt current.deletedAt }

def flushedRepository (loaded new current : Repository) : Repository :=
  { current with
    githubOwner := writtenColumn loaded.githubOwner new.githubOwner current.githubOwner
    githubName := writtenColumn loaded.githubName new.githubName current.githubName
    githubFullName := writtenColumn loaded.githubFullName new.githubFullName current.githubFullName
    githubUrl := writtenColumn loaded.githubUrl new.githubUrl current.githubUrl
    isPrivate := writtenColumn loaded.isPrivate new.isPrivate current.isPrivate
    defaultBranch := writtenColumn loaded.defaultBranch new.defaultBranch current.defaultBranch
    primaryLanguage :=
      writtenColumn loaded.primaryLanguage new.primaryLanguage current.primaryLanguage
    accessRevokedAt :=
      writtenColumn loaded.accessRevokedAt new.accessRevokedAt current.accessRevokedAt
    deletedAt := writtenColumn loaded.deletedAt new.deletedAt current.deletedAt
    indexingStatus := writtenColumn loaded.indexingStatus new.indexingStatus current.indexingStatus
    indexingProgress :=
      writtenColumn loaded.indexingProgress new.indexingProgress current.indexingProgress }

def flushInstallation (loaded new : GitHubInstallation) (next : AccessScript) : AccessScript :=
  if new = loaded then next
  else .flush (.installation loaded) (onInstallation (flushedInstallation loaded new)) next

def flushRepository (loaded new : Repository) (next : AccessScript) : AccessScript :=
  if new = loaded then next
  else .flush (.repository loaded) (onRepository (flushedRepository loaded new)) next

/-- The writes of a bulk UPDATE on the repositories it selected; a row that was
locked meanwhile is checked again. -/
def updateRows (guard : Repository → Bool) (change : Repository → Repository)
    (next : AccessScript) : List AccessRow → AccessScript
  | [] => next
  | row :: rest =>
      .flush row (onRepository fun current => if guard current then change current else current)
        (updateRows guard change next rest)

def updateRepositoriesWhere (guard : Repository → Bool) (change : Repository → Repository) :
    AccessScript :=
  .scan (isRepository guard) (updateRows guard change .commit)

/-! ## Calls -/

def repositoryIdentity (installationId : InstallationId) (githubRepositoryId : Nat)
    (row : Repository) : Bool :=
  row.installationId == some installationId && row.githubRepositoryId == githubRepositoryId

/-- `InstallationService._upsert_repository`. -/
def upsertListed (installationId : InstallationId) (external : GitHub.Repository)
    (next : AccessScript) : AccessScript :=
  .fetch (isRepository (repositoryIdentity installationId external.id)) fun
    | some (.repository loaded) => flushRepository loaded (listedRepository external loaded) next
    | _ =>
        .note (.repository (listedRepository external (newRepository 0 installationId external)))
          next

def synchronizeScript (now : Timestamp) (installationId : InstallationId) (member : Bool)
    (externals : List GitHub.Repository) : AccessScript :=
  .fetch (isInstallation fun row =>
      row.id == installationId && row.status == .active && row.deletedAt.isNone && member) fun
    | some (.installation reauthorized) =>
        externals.foldr (upsertListed reauthorized.id)
          (updateRepositoriesWhere (unlisted reauthorized.id externals) (revokedRepository now))
    | _ => .rollback

def unstoredInstallation (external : GitHub.Installation) : GitHubInstallation :=
  newInstallation {} external

/-- `AuthService._upsert_installation`. -/
def upsertSignedIn (userId : UserId) (githubUserId : Nat) (external : GitHub.Installation)
    (next : AccessScript) : AccessScript :=
  .fetch (isInstallation (installationKey external.id)) fun
    | some (.installation loaded) =>
        flushInstallation loaded (signedInInstallation userId githubUserId external
          (describedInstallation external loaded)) next
    | _ =>
        .note (.installation (signedInInstallation userId githubUserId external
          (describedInstallation external (unstoredInstallation external)))) next

/-- `_apply_installation` for the actions `suspend` and `deleted`. -/
def withdrawInstallation (action : String) (now : Timestamp) (external : GitHub.Installation) :
    AccessScript :=
  .fetch (isInstallation (installationKey external.id)) fun
    | some (.installation loaded) =>
        let described := describedInstallation external loaded
        flushInstallation loaded described
          (flushInstallation described (installationStatus (some action) now external described)
            (updateRepositoriesWhere (·.installationId == some loaded.id) (revokedRepository now)))
    | _ =>
        .note (.installation (installationStatus (some action) now external
          (describedInstallation external (unstoredInstallation external)))) .commit

/-- `_apply_repository_access` for removed repositories. -/
def removeRepositories (now : Timestamp) (external : GitHub.Installation) (removed : List Nat) :
    AccessScript :=
  .fetch (isInstallation (installationKey external.id)) fun
    | some (.installation loaded) =>
        flushInstallation loaded (describedInstallation external loaded)
          (updateRepositoriesWhere
            (fun row => row.installationId == some loaded.id &&
              removed.contains row.githubRepositoryId) (revokedRepository now))
    | _ =>
        .note (.installation (describedInstallation external (unstoredInstallation external)))
          .commit

def deleteRepositoryScript (now : Timestamp) (githubInstallationId githubRepositoryId : Nat) :
    AccessScript :=
  .fetch (isInstallation (installationKey githubInstallationId)) fun
    | some (.installation stored) =>
        updateRepositoriesWhere
          (fun row => row.githubRepositoryId == githubRepositoryId &&
            row.installationId == some stored.id)
          fun row => { revokedRepository now row with deletedAt := some now }
    | _ => .commit

def accessProgram : AccessCall → AccessScript
  | .synchronize now installationId member externals =>
      synchronizeScript now installationId member externals
  | .signIn userId githubUserId externals =>
      externals.foldr (upsertSignedIn userId githubUserId) .commit
  | .suspended now external => withdrawInstallation "suspend" now external
  | .deleted now external => withdrawInstallation "deleted" now external
  | .repositoriesRemoved now external removed => removeRepositories now external removed
  | .repositoryDeleted now githubInstallationId githubRepositoryId =>
      deleteRepositoryScript now githubInstallationId githubRepositoryId

def AccessCall.webhook : AccessCall → Bool
  | .synchronize _ _ _ _ | .signIn _ _ _ => false
  | _ => true

/-! ## Insertion -/

def AccessRow.sameIdentity : AccessRow → AccessRow → Bool
  | .installation left, .installation right =>
      left.githubInstallationId == right.githubInstallationId
  | .repository left, .repository right =>
      left.installationId == right.installationId &&
        left.githubRepositoryId == right.githubRepositoryId
  | _, _ => false

/-- The row with the id of another one. -/
def AccessRow.identifiedAs : AccessRow → AccessRow → AccessRow
  | .installation row, .installation other => .installation { row with id := other.id }
  | .repository row, .repository other => .repository { row with id := other.id }
  | _, other => other

def storedInstallations (table : List AccessRow) : List GitHubInstallation :=
  table.filterMap fun
    | .installation row => some row
    | .repository _ => none

def storedRepositories (table : List AccessRow) : List Repository :=
  table.filterMap fun
    | .repository row => some row
    | .installation _ => none

def freshRow (table : List AccessRow) : AccessRow → AccessRow
  | .installation row =>
      .installation { row with id := freshKey ((storedInstallations table).map (·.id)) }
  | .repository row =>
      .repository { row with id := freshKey ((storedRepositories table).map (·.id)) }

/-- The rows that the notes insert; a second note about a row rewrites it. -/
def insertedRows (table : List AccessRow) : List AccessNote → List AccessRow
  | [] => []
  | row :: earlier =>
      let rows := insertedRows table earlier
      if rows.any row.sameIdentity then
        rows.map fun other => if row.sameIdentity other then row.identifiedAs other else other
      else rows ++ [freshRow (table ++ rows) row]

/-- The unique constraints of the two tables. -/
def accessConstraints (table : List AccessRow) : Bool :=
  decide ((storedInstallations table).map (·.githubInstallationId)).Nodup &&
    repositoryKeysUnique (storedRepositories table)

def accessInsertion : Insertion AccessRow AccessNote := fun table notes =>
  let rows := insertedRows table notes
  if accessConstraints (table ++ rows) then some rows else none

abbrev AccessState := State AccessRow AccessNote AccessCall

/-! ## Withdrawals since a point of the log -/

/-- What a webhook is about: the installation that it suspends or deletes, or
the repositories that it removes. -/
def AccessCall.withdraws : AccessCall → AccessRow → Bool
  | .suspended _ _, .installation _ | .deleted _ _, .installation _ => true
  | .repositoriesRemoved _ _ _, .repository _ | .repositoryDeleted _ _ _, .repository _ => true
  | _, _ => false

/-- The commit withdrew the row, by an UPDATE of it or by the INSERT of a row with
its identity. -/
def withdrew (commit : Commit AccessRow AccessNote AccessCall) (row : AccessRow) : Bool :=
  (commit.writes.any fun write => commit.label.withdraws write.base &&
    write.current.withdrawn && accessKey write.base == accessKey row) ||
  commit.notes.any fun note => commit.label.withdraws note && note.withdrawn &&
    note.sameIdentity row

def withdrawnBy (log : List (Commit AccessRow AccessNote AccessCall)) (row : AccessRow) : Bool :=
  log.any (withdrew · row)

/-- The commits since the log had a length. -/
def logSince (since : Nat) (log : List (Commit AccessRow AccessNote AccessCall)) :
    List (Commit AccessRow AccessNote AccessCall) :=
  log.take (log.length - since)

/-- The next statement does not grant a row that it loaded as withdrawn and
that a webhook has withdrawn since. -/
def spares (since : Nat) (state : AccessState) : Action AccessCall → Bool
  | .step place =>
      match state.sessions[place]? with
      | none => true
      | some session =>
          match session.script with
          | .flush loaded change _ =>
              session.label.webhook || !loaded.withdrawn || (change loaded).withdrawn ||
                state.table.all fun row => accessKey row != accessKey loaded ||
                  !withdrawnBy (logSince since state.log) row
          | _ => true
  | _ => true

/-- What webhooks have withdrawn since is still withdrawn, and still stored. -/
structure WithdrawalsKept (since : Nat) (state : AccessState) : Prop where
  withdrawn : ∀ row ∈ state.table, withdrawnBy (logSince since state.log) row = true →
    row.withdrawn = true
  updated : ∀ commit ∈ logSince since state.log, ∀ write ∈ commit.writes,
    ∃ row ∈ state.table, accessKey row = accessKey write.base
  inserted : ∀ commit ∈ logSince since state.log, ∀ note ∈ commit.notes,
    ∃ row ∈ state.table, note.sameIdentity row = true

end Codenaut.Services
