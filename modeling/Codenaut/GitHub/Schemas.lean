import Codenaut.Db.Models

/-!
# Provider records

The validated subsets of GitHub API and webhook data (`app/github/schemas.py`)
that reach the database.
-/

set_option autoImplicit false

namespace Codenaut.GitHub

open Codenaut.Db

structure User where
  id : Nat
  deriving DecidableEq, Repr

/-- The answer of `GET /user`. -/
structure AuthenticatedUser extends User where
  login : String
  name : Option String := none
  avatarUrl : Option String := none
  email : Option String := none
  deriving DecidableEq, Repr

structure Account where
  id : Nat
  login : String
  type : GitHubAccountType
  deriving DecidableEq, Repr

structure Installation where
  id : Nat
  account : Account
  permissions : List (String × String) := []
  repositorySelection : RepositorySelection
  suspendedAt : Option Timestamp := none
  deriving DecidableEq, Repr

structure Repository where
  id : Nat
  ownerLogin : String
  name : String
  fullName : String
  htmlUrl : String
  isPrivate : Bool
  defaultBranch : String
  language : Option String := none
  size : Option Nat := none
  deriving DecidableEq, Repr

structure PublicRepository where
  repository : Repository
  defaultBranchSha : CommitSha
  deriving DecidableEq, Repr

inductive CompareFileStatus where
  | added
  | modified
  | removed
  | renamed
  | copied
  | changed
  deriving DecidableEq, Repr

def CompareFileStatus.value : CompareFileStatus → String
  | .added => "added"
  | .modified => "modified"
  | .removed => "removed"
  | .renamed => "renamed"
  | .copied => "copied"
  | .changed => "changed"

structure CompareFile where
  filename : String
  previousFilename : Option String := none
  status : CompareFileStatus
  changes : Nat := 0
  deriving DecidableEq, Repr

inductive ComparisonStatus where
  | ahead
  | behind
  | diverged
  | identical
  deriving DecidableEq, Repr

structure CommitComparison where
  status : ComparisonStatus
  files : List CompareFile := []
  deriving DecidableEq, Repr

/-- The body of a signed webhook request, after schema validation. -/
structure WebhookPayload where
  action : Option String := none
  installation : Option Installation := none
  sender : Option User := none
  repository : Option Repository := none
  repositoriesAdded : List Repository := []
  repositoriesRemoved : List Nat := []
  ref : Option String := none
  before : Option CommitSha := none
  after : Option CommitSha := none
  forced : Bool := false
  deleted : Bool := false
  deriving DecidableEq, Repr

end Codenaut.GitHub
