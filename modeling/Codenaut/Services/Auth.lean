import Codenaut.Services.Webhooks

/-!
# Sign-in synchronization

`AuthService._synchronize_github_login`: the installations and memberships that
a completed sign-in writes. `_resolve_identity` is the `resolved` argument:
the stored user it found, or `none` when it inserts one.
-/

set_option autoImplicit false

namespace Codenaut.Services

open Codenaut.Db Codenaut.Relational

/-- The installation columns that the provider's listing overwrites at sign-in. -/
def signedInInstallation (userId : UserId) (githubUserId : Nat)
    (external : GitHub.Installation) (row : GitHubInstallation) : GitHubInstallation :=
  { row with
    suspendedAt := external.suspendedAt
    deletedAt := none
    status := if external.suspendedAt.isSome then .suspended else .active
    installedByUserId :=
      if external.account.type = .user ∧ external.account.id = githubUserId then some userId
      else row.installedByUserId }

def signedInRole (githubUserId : Nat) (external : GitHub.Installation) : InstallationMemberRole :=
  if external.account.type = .user ∧ external.account.id = githubUserId then .owner else .member

def memberRow (installationId : InstallationId) (userId : UserId) (row : InstallationMember) :
    Bool :=
  row.installationId == installationId && row.userId == userId

/-- `_upsert_installation` of the sign-in, with its membership. -/
def signInInstallation (now : Timestamp) (userId : UserId) (githubUserId : Nat)
    (state : List InstallationId × Database) (external : GitHub.Installation) :
    List InstallationId × Database :=
  let (installationId, upserted) :=
    upsertInstallation state.2 external (signedInInstallation userId githubUserId external)
  let role := signedInRole githubUserId external
  let verified := fun (row : InstallationMember) => { row with role, verifiedAt := now }
  let members := upserted.installationMembers
  let joined :=
    if members.any (memberRow installationId userId) then
      updateWhere (memberRow installationId userId) verified members
    else members ++ [{ installationId, userId, role, verifiedAt := now }]
  (state.1 ++ [installationId], { upserted with installationMembers := joined })

def newUserId (db : Database) : UserId :=
  freshKey (db.users.map (·.id))

/-- The users with the signed-in one found or inserted. -/
def identifiedUsers (db : Database) (resolved : Option UserId) (githubUser : GitHub.User) :
    List User :=
  let identified := fun (row : User) => { row with githubUserId := some githubUser.id }
  match resolved with
  | some id => updateWhere (·.id == id) identified db.users
  | none => db.users ++ [{ id := newUserId db, githubUserId := some githubUser.id }]

def synchronizeGithubLogin (db : Database) (now : Timestamp) (resolved : Option UserId)
    (githubUser : GitHub.User) (installations : List GitHub.Installation) : Database :=
  let userId := resolved.getD (newUserId db)
  let identified := { db with users := identifiedUsers db resolved githubUser }
  let signedIn := installations.foldl (signInInstallation now userId githubUser.id)
    ([], identified)
  let left := fun (row : InstallationMember) =>
    row.userId == userId && !signedIn.1.contains row.installationId
  { signedIn.2 with installationMembers := deleteWhere left signedIn.2.installationMembers }

/-- A Google sign-in stores a user without a GitHub identity. -/
def synchronizeGoogleLogin (db : Database) (resolved : Option UserId) : Database :=
  match resolved with
  | some _ => db
  | none => { db with users := db.users ++ [{ id := newUserId db, githubUserId := none }] }

end Codenaut.Services
