import Codenaut.Db.Models

/-!
# Authentication rows

The rows of `app/db/models/auth.py`, and the columns of `users` that a sign-in
writes.
-/

set_option autoImplicit false

namespace Codenaut.Db

abbrev TokenId := Nat
abbrev FamilyId := Nat
abbrev OAuthStateId := Nat
abbrev IdentityId := Nat

inductive AuthProvider where
  | github
  | google
  deriving DecidableEq, Repr

inductive OAuthFlow where
  | signIn
  | link
  deriving DecidableEq, Repr

/-- A row of `users`. -/
structure Account where
  id : UserId
  githubUserId : Option Nat := none
  githubLogin : Option String := none
  displayName : Option String := none
  avatarUrl : Option String := none
  email : Option String := none
  lastLoginAt : Option Timestamp := none
  deriving DecidableEq, Repr

structure AuthIdentity where
  id : IdentityId
  userId : UserId
  provider : AuthProvider
  providerSubject : String
  providerEmail : Option String
  emailVerified : Bool := false
  deriving DecidableEq, Repr

structure OAuthState where
  id : OAuthStateId
  stateHash : String
  codeVerifierHash : String
  provider : AuthProvider
  flow : OAuthFlow
  nonceHash : Option String
  intendedUserId : Option UserId
  expiresAt : Timestamp
  usedAt : Option Timestamp := none
  deriving DecidableEq, Repr

structure RefreshToken where
  id : TokenId
  familyId : FamilyId
  userId : UserId
  tokenHash : String
  parentTokenId : Option TokenId := none
  expiresAt : Timestamp
  usedAt : Option Timestamp := none
  revokedAt : Option Timestamp := none
  revocationReason : Option String := none
  deriving DecidableEq, Repr

/-- Neither used nor revoked. -/
def RefreshToken.active (token : RefreshToken) : Bool :=
  token.usedAt.isNone && token.revokedAt.isNone

end Codenaut.Db
