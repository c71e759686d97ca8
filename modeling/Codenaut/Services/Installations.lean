import Codenaut.Services.Webhooks

/-!
# Installation synchronization

`InstallationService`: the transaction that stores a repository listing, and
the one that applies the provider's answer about a public repository.
-/

set_option autoImplicit false

namespace Codenaut.Services

open Codenaut.Core Codenaut.Db

/-- A membership that has not outlived its verification. -/
def freshMember (settings : Settings) (now : Timestamp) (installationId : InstallationId)
    (userId : UserId) (row : InstallationMember) : Bool :=
  row.installationId == installationId && row.userId == userId &&
    decide (now - settings.membershipTtl ≤ row.verifiedAt)

/-- `_authorized_installation_query` for one installation. -/
def authorizedInstallation (settings : Settings) (db : Database) (now : Timestamp)
    (userId : UserId) (installationId : InstallationId) : Option GitHubInstallation :=
  db.githubInstallations.find? fun row =>
    row.id == installationId && row.status == .active && row.deletedAt.isNone &&
      db.installationMembers.any (freshMember settings now installationId userId)

/-- The columns that a listed repository receives. -/
def listedRepository (external : GitHub.Repository) (row : Repository) : Repository :=
  restoredRepository { row with
    githubOwner := external.ownerLogin
    githubName := external.name
    githubFullName := external.fullName
    githubUrl := external.htmlUrl
    isPrivate := external.isPrivate
    defaultBranch := external.defaultBranch
    primaryLanguage := external.language }

/-- `_upsert_repository`: the default branch is overwritten without a refresh. -/
def upsertRepository (installationId : InstallationId) (db : Database)
    (external : GitHub.Repository) : Option Database :=
  match db.repositories.find? fun row =>
      row.installationId == some installationId && row.githubRepositoryId == external.id with
  | some row =>
      flushRepositories (db.updateRepositories (·.id == row.id) (listedRepository external))
  | none =>
      flushRepositories { db with repositories := db.repositories ++
        [listedRepository external (newRepository (newRepositoryId db) installationId external)] }

/-- An accessible repository of the installation that the listing leaves out. -/
def unlisted (installationId : InstallationId) (externals : List GitHub.Repository)
    (row : Repository) : Bool :=
  row.installationId == some installationId && row.accessRevokedAt.isNone &&
    !(externals.map (·.id)).contains row.githubRepositoryId

/-- The transaction of `synchronize_repositories`. -/
def synchronizeRepositories (settings : Settings) (db : Database) (now : Timestamp)
    (userId : UserId) (installationId : InstallationId) (externals : List GitHub.Repository) :
    Option Database :=
  match authorizedInstallation settings db now userId installationId with
  | none => none
  | some reauthorized =>
      (externals.foldlM (upsertRepository reauthorized.id) db).map fun stored =>
        stored.updateRepositories (unlisted reauthorized.id externals) (revokedRepository now)

/-- What the provider says about a public repository. Other provider errors
reach no transaction. -/
inductive PublicAnswer where
  | unavailable
  | found (metadata : GitHub.PublicRepository)
  deriving DecidableEq, Repr

def attached (db : Database) (userId : UserId) (repositoryId : RepositoryId) : Bool :=
  db.userRepositories.any fun row => row.repositoryId == repositoryId && row.userId == userId

def revalidatedRepository (now : Timestamp) (metadata : GitHub.PublicRepository)
    (row : Repository) : Repository :=
  { row with
    githubOwner := metadata.repository.ownerLogin
    githubName := metadata.repository.name
    githubFullName := metadata.repository.fullName
    githubUrl := metadata.repository.htmlUrl
    defaultBranch := metadata.repository.defaultBranch
    currentRemoteSha := some metadata.defaultBranchSha
    visibilityCheckedAt := some now }

/-- The write of `_get_authorized_public_repository` for one provider answer. -/
def revalidatePublic (db : Database) (now : Timestamp) (userId : UserId)
    (repositoryId : RepositoryId) (answer : PublicAnswer) : Database :=
  match db.repository? repositoryId with
  | none => db
  | some repository =>
      match answer with
      | .unavailable => revokePublicAccess db now repositoryId
      | .found metadata =>
          if metadata.repository.id ≠ repository.githubRepositoryId then
            revokePublicAccess db now repositoryId
          else if repository.accessMode = .publicAccess ∧ repository.accessRevokedAt.isNone ∧
              attached db userId repositoryId then
            db.updateRepositories (·.id == repositoryId) (revalidatedRepository now metadata)
          else db

end Codenaut.Services
