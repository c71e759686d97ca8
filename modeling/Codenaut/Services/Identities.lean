import Codenaut.Db.Auth
import Codenaut.Services.Auth

/-!
# Identities

`AuthService._resolve_identity` and the account columns that
`_synchronize_github_login` and `_synchronize_google_login` write, each as one
transaction on `users` and `auth_identities`. A raised error rolls it back.
-/

set_option autoImplicit false

namespace Codenaut.Services

open Codenaut.Db Codenaut.Relational

/-- `GoogleIdentity`: the validated claims of a Google sign-in. -/
structure GoogleIdentity where
  subject : String
  email : String
  emailVerified : Bool
  displayName : Option String := none
  avatarUrl : Option String := none
  deriving DecidableEq, Repr

inductive SignInError where
  | identityConflict
  | accountLinkRequired
  /-- The unique `users.github_user_id` rejects the flush. -/
  | integrity
  deriving DecidableEq, Repr

structure Accounts where
  users : List Account := []
  identities : List AuthIdentity := []
  deriving DecidableEq, Repr

/-- The arguments of `_resolve_identity`. -/
structure ResolveRequest where
  provider : AuthProvider
  providerSubject : String
  providerEmail : Option String
  emailVerified : Bool
  displayName : Option String
  avatarUrl : Option String
  linkingUserId : Option UserId
  legacyGithubUserId : Option Nat := none
  deriving DecidableEq, Repr

namespace Accounts

variable (accounts : Accounts)

def stored (userId : UserId) : Bool :=
  accounts.users.any (·.id == userId)

def identity? (provider : AuthProvider) (subject : String) : Option AuthIdentity :=
  accounts.identities.find? fun row => row.provider == provider && row.providerSubject == subject

/-- The user that a provider subject maps to. -/
def userOf (provider : AuthProvider) (subject : String) : Option UserId :=
  (accounts.identity? provider subject).map (·.userId)

/-- Insert the identity for a user. -/
def attach (request : ResolveRequest) (userId : UserId) : Accounts :=
  { accounts with identities := accounts.identities ++
      [{ id := freshKey (accounts.identities.map (·.id))
         userId
         provider := request.provider
         providerSubject := request.providerSubject
         providerEmail := request.providerEmail
         emailVerified := request.emailVerified }] }

def newUser (request : ResolveRequest) : Account where
  id := freshKey (accounts.users.map (·.id))
  displayName := request.displayName
  avatarUrl := request.avatarUrl
  email := request.providerEmail

/-- The stored user of a first sign-in: who started the link, or a legacy row. -/
def knownUser? (request : ResolveRequest) : Option UserId :=
  match request.linkingUserId.filter accounts.stored with
  | some userId => some userId
  | none => request.legacyGithubUserId.bind fun githubUserId =>
      (accounts.users.find? (·.githubUserId == some githubUserId)).map (·.id)

/-- Another identity has the same verified email. -/
def verifiedElsewhere (request : ResolveRequest) : Bool :=
  request.emailVerified && request.providerEmail.isSome &&
    accounts.identities.any fun row =>
      row.providerEmail == request.providerEmail && row.emailVerified

def resolveIdentity (request : ResolveRequest) : Except SignInError (UserId × Accounts) :=
  match accounts.identity? request.provider request.providerSubject with
  | some identity =>
      if request.linkingUserId.any (· != identity.userId) then .error .identityConflict
      else if !accounts.stored identity.userId then .error .identityConflict
      else
        .ok (identity.userId, { accounts with
          identities := updateWhere (·.id == identity.id) (fun row => { row with
            providerEmail := request.providerEmail
            emailVerified := request.emailVerified }) accounts.identities })
  | none =>
      match accounts.knownUser? request with
      | some userId => .ok (userId, accounts.attach request userId)
      | none =>
          if accounts.verifiedElsewhere request then .error .accountLinkRequired
          else
            let user := accounts.newUser request
            .ok (user.id, { accounts with users := accounts.users ++ [user] }.attach request user.id)

def setUser (userId : UserId) (change : Account → Account) : Accounts :=
  { accounts with users := updateWhere (·.id == userId) change accounts.users }

def githubRequest (githubUser : GitHub.AuthenticatedUser) (linkingUserId : Option UserId) :
    ResolveRequest where
  provider := .github
  providerSubject := toString githubUser.id
  providerEmail := githubUser.email
  emailVerified := false
  displayName := githubUser.name
  avatarUrl := githubUser.avatarUrl
  linkingUserId := linkingUserId
  legacyGithubUserId := some githubUser.id

/-- The columns of a GitHub sign-in. -/
def githubColumns (now : Timestamp) (githubUser : GitHub.AuthenticatedUser) (row : Account) :
    Account :=
  { row with
    githubUserId := some githubUser.id
    githubLogin := some githubUser.login
    displayName := githubUser.name
    avatarUrl := githubUser.avatarUrl
    email := githubUser.email
    lastLoginAt := some now }

/-- Another user has the GitHub id. -/
def githubTaken (userId : UserId) (githubUserId : Nat) : Bool :=
  accounts.users.any fun row => row.id != userId && row.githubUserId == some githubUserId

def synchronizeGithubLogin (now : Timestamp) (githubUser : GitHub.AuthenticatedUser)
    (linkingUserId : Option UserId) : Except SignInError (UserId × Accounts) :=
  match accounts.resolveIdentity (githubRequest githubUser linkingUserId) with
  | .error failure => .error failure
  | .ok (userId, resolved) =>
      if resolved.githubTaken userId githubUser.id then .error .integrity
      else .ok (userId, resolved.setUser userId (githubColumns now githubUser))

def googleRequest (identity : GoogleIdentity) (linkingUserId : Option UserId) :
    ResolveRequest where
  provider := .google
  providerSubject := identity.subject
  providerEmail := some identity.email
  emailVerified := identity.emailVerified
  displayName := identity.displayName
  avatarUrl := identity.avatarUrl
  linkingUserId := linkingUserId

/-- `new or old` on optional texts: an empty text counts as absent. -/
def orElseText (new old : Option String) : Option String :=
  match new with
  | some text => if text.isEmpty then old else some text
  | none => old

/-- The columns of a Google sign-in. -/
def googleColumns (now : Timestamp) (identity : GoogleIdentity) (row : Account) : Account :=
  { row with
    displayName := orElseText identity.displayName row.displayName
    avatarUrl := orElseText identity.avatarUrl row.avatarUrl
    email := some identity.email
    lastLoginAt := some now }

def synchronizeGoogleLogin (now : Timestamp) (identity : GoogleIdentity)
    (linkingUserId : Option UserId) : Except SignInError (UserId × Accounts) :=
  match accounts.resolveIdentity (googleRequest identity linkingUserId) with
  | .error failure => .error failure
  | .ok (userId, resolved) => .ok (userId, resolved.setUser userId (googleColumns now identity))

end Accounts

/-! ## Providers -/

/-- What a provider answers to the code of a callback. -/
inductive ProviderAnswer where
  | github (user : GitHub.AuthenticatedUser)
  | google (identity : GoogleIdentity)
  deriving DecidableEq, Repr

namespace ProviderAnswer

def provider : ProviderAnswer → AuthProvider
  | .github _ => .github
  | .google _ => .google

def subject : ProviderAnswer → String
  | .github user => toString user.id
  | .google identity => identity.subject

/-- The user id that GitHub reports. -/
def githubUserId : ProviderAnswer → Option Nat
  | .github user => some user.id
  | .google _ => none

def request (linkingUserId : Option UserId) : ProviderAnswer → ResolveRequest
  | .github user => Accounts.githubRequest user linkingUserId
  | .google identity => Accounts.googleRequest identity linkingUserId

end ProviderAnswer

/-- The transaction of a completed callback. -/
def Accounts.signIn (accounts : Accounts) (now : Timestamp) (linkingUserId : Option UserId) :
    ProviderAnswer → Except SignInError (UserId × Accounts)
  | .github user => accounts.synchronizeGithubLogin now user linkingUserId
  | .google identity => accounts.synchronizeGoogleLogin now identity linkingUserId

end Codenaut.Services
