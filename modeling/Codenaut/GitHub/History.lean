import Codenaut.Db.Models
import Codenaut.GitHub.PublicUrls

/-!
# Provider history

The validated history records of `app/github/schemas.py`, and the checks that bind
the commits and pull requests of an answer to the repository that was asked for
(`_get_repository_history` and `_validate_history_identity` in `app/github/client.py`).
A date is its ISO text.
-/

set_option autoImplicit false

namespace Codenaut.GitHub

open Codenaut.Db

/-! ## Records -/

structure CommitPayload where
  message : String
  authorDate : Option String := none
  committerDate : Option String := none
  deriving DecidableEq, Repr

structure CommitFile where
  filename : String
  status : String
  patch : Option String := none
  deriving DecidableEq, Repr

structure Commit where
  sha : CommitSha
  htmlUrl : String
  commit : CommitPayload
  parents : List CommitSha := []
  files : List CommitFile := []
  authorLogin : Option String := none
  deriving DecidableEq, Repr

structure PullRequest where
  number : Nat
  title : String
  body : Option String := none
  state : String
  htmlUrl : String
  userLogin : Option String := none
  mergedAt : Option String := none
  mergeCommitSha : Option CommitSha := none
  deriving DecidableEq, Repr

/-- One commit and its directly associated pull requests. -/
structure HistoryBundle where
  commit : Commit
  pullRequests : List PullRequest := []
  deriving DecidableEq, Repr

/-! ## Identity -/

def maxHistoryLimit : Nat := 10

def githubFront : List Char := "https://github.com/".toList

def isLowerHex (char : Char) : Bool := char.isDigit || ('a' ≤ char && char ≤ 'f')

/-- `^[0-9a-f]{40}$`. -/
def isCommitSha (text : List Char) : Bool := decide (text.length = 40) && text.all isLowerHex

/-- `[0-9a-f]{7,40}`. -/
def isRevision (text : List Char) : Bool :=
  decide (7 ≤ text.length ∧ text.length ≤ 40) && text.all isLowerHex

/-- The fields of a commit that name it. -/
def Commit.Named (commit : Commit) : Prop :=
  isCommitSha commit.sha.toList = true ∧ githubFront <+: commit.htmlUrl.toList

def PullRequest.Named (pull : PullRequest) : Prop :=
  0 < pull.number ∧ githubFront <+: pull.htmlUrl.toList

instance (commit : Commit) : Decidable commit.Named := inferInstanceAs (Decidable (_ ∧ _))

instance (pull : PullRequest) : Decidable pull.Named := inferInstanceAs (Decidable (_ ∧ _))

/-- `url.rstrip("/")`. -/
def withoutSlashes (url : String) : List Char := url.toList.rdropWhile (· = '/')

def commitUrl (owner repository : String) (sha : String) : List Char :=
  githubFront ++ (owner.toList ++ '/' :: (repository.toList ++ '/' ::
    ("commit".toList ++ '/' :: sha.toList)))

def pullUrl (owner repository : String) (number : Nat) : List Char :=
  githubFront ++ (owner.toList ++ '/' :: (repository.toList ++ '/' ::
    ("pull".toList ++ '/' :: (toString number).toList)))

/-- `_validate_history_identity`, where it does not raise. -/
def validateHistoryIdentity (owner repository : String) (expectedSha : String) (commit : Commit)
    (pullRequests : List PullRequest) : Bool :=
  decide (commit.sha = expectedSha) &&
    decide (withoutSlashes commit.htmlUrl = commitUrl owner repository commit.sha) &&
    pullRequests.all fun pull =>
      decide (withoutSlashes pull.htmlUrl = pullUrl owner repository pull.number)

/-- The answers of the API, whose other fields have passed their checks. -/
structure HistoryAnswers where
  summaries : List Commit
  detail : Commit → Commit
  pulls : Commit → List PullRequest

/-- One commit with at most three pull requests. -/
def readBundle (owner repository : String) (answers : HistoryAnswers) (summary : Commit) :
    Option HistoryBundle :=
  let commit := answers.detail summary
  let pullRequests := (answers.pulls summary).take 3
  if commit.Named ∧ (∀ pull ∈ pullRequests, pull.Named) ∧
      validateHistoryIdentity owner repository summary.sha commit pullRequests = true then
    some ⟨commit, pullRequests⟩
  else none

/-- `_get_repository_history`, or nothing where it raises. -/
def getRepositoryHistory (owner repository revision : String) (limit : Nat)
    (answers : HistoryAnswers) : Option (List HistoryBundle) :=
  if isSegment owner.toList = false ∨ isSegment repository.toList = false ∨
      isRevision revision.toList = false ∨ limit < 1 ∨ maxHistoryLimit < limit then none
  else if ∀ summary ∈ answers.summaries, summary.Named then
    (answers.summaries.take limit).mapM (readBundle owner repository answers)
  else none

/-- The links of a bundle. -/
def HistoryBundle.urls (bundle : HistoryBundle) : List String :=
  bundle.commit.htmlUrl :: bundle.pullRequests.map PullRequest.htmlUrl

end Codenaut.GitHub
