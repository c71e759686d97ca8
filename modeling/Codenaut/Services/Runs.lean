import Codenaut.Services.Operation
import Mathlib.Logic.Relation

/-!
# Runs of transactions

A list of operations applied in order. The onboarding run takes one
installation repository from sign-in to its first active index.
-/

set_option autoImplicit false

namespace Codenaut.Services

open Codenaut.Core Codenaut.Db Codenaut.Indexing

/-- One operation with what its transaction reads besides the database. -/
structure Transaction where
  moment : Moment
  operation : Operation

def Journal.run (settings : Settings) (platform : Platform) (journal : Journal)
    (transactions : List Transaction) : Journal :=
  transactions.foldl
    (fun current entry => current.apply settings platform entry.moment entry.operation) journal

/-- The one call that is restricted to versions an activation returned. -/
def Operation.clearsSuperseded : Operation → Bool
  | .store _ _ (.completeSupersededCleanup _ _) => true
  | _ => false

theorem Operation.admissible_of_unrestricted {operation : Operation}
    (unrestricted : operation.clearsSuperseded = false) (history : History) :
    operation.admissible history := by
  unfold Operation.admissible
  split
  case h_1 => cases unrestricted
  case h_2 => trivial

theorem Journal.Reachable.run {settings : Settings} {platform : Platform} {journal : Journal}
    {transactions : List Transaction}
    (unrestricted : ∀ entry ∈ transactions, entry.operation.clearsSuperseded = false)
    (reachable : Journal.Reachable settings platform journal) :
    Journal.Reachable settings platform (journal.run settings platform transactions) := by
  induction transactions generalizing journal with
  | nil => exact reachable
  | cons entry rest ih =>
      refine ih (fun other member => unrestricted other (.tail _ member)) ?_
      exact .step entry.moment entry.operation reachable
        (Operation.admissible_of_unrestricted (unrestricted entry (.head _)) _)

/-- One admissible transaction that meets a condition on the state before it. -/
def Journal.Moves (settings : Settings) (platform : Platform)
    (condition : Database → Operation → Prop) (before after : Journal) : Prop :=
  ∃ moment operation, operation.admissible before.history ∧
    condition before.database operation ∧
    after = before.apply settings platform moment operation

/-- Any number of admissible transactions that each meet the condition. -/
def Journal.Path (settings : Settings) (platform : Platform)
    (condition : Database → Operation → Prop) : Journal → Journal → Prop :=
  Relation.ReflTransGen (Moves settings platform condition)

theorem Journal.Path.reachable {settings : Settings} {platform : Platform}
    {condition : Database → Operation → Prop} {before after : Journal}
    (reachable : Journal.Reachable settings platform before)
    (path : Journal.Path settings platform condition before after) :
    Journal.Reachable settings platform after := by
  induction path with
  | refl => exact reachable
  | tail _ moves ih =>
      obtain ⟨moment, operation, admissible, _, rfl⟩ := moves
      exact .step moment operation ih admissible

/-! ## Onboarding -/

namespace Onboarding

def settings : Settings where
  embeddingModelIdentifier := "model"
  embeddingModelRevision := "revision"
  embeddingDimension := 1

def platform : Platform where
  sha256Hex := fun _ => "digest"
  uuid5 := fun _ _ => 0
  textLe := fun _ _ => true

def installation : GitHub.Installation where
  id := 11
  account := { id := 5, login := "acme", type := .user }
  repositorySelection := .all

def repository (branch : String) : GitHub.Repository where
  id := 21
  ownerLogin := "acme"
  name := "app"
  fullName := "acme/app"
  htmlUrl := "https://github.com/acme/app"
  isPrivate := true
  defaultBranch := branch

/-- An analysis result with one chunk and no symbols. -/
def processing (indexVersion : Nat) (commitSha : CommitSha) : ProcessingResult where
  repositoryId := 1
  indexVersion := indexVersion
  commitSha := commitSha
  chunkCount := 1
  chunks := [{
    repositoryId := 1
    indexVersion := indexVersion
    ordinal := 0
    filePath := "README.md"
    language := "markdown"
    chunkType := .markdown
    startLine := 1
    endLine := 1
    commitSha := commitSha
    contentHash := "digest"
    content := "text" }]
  graphFingerprint := "digest"
  chunksCounted := rfl
  edgesStamped := no_edges_stamped commitSha

/-- Sign-in, repository listing and selection: job 1 of repository 1 waits. -/
def selection (now : Timestamp) : List Transaction :=
  [⟨{ now }, .githubLogin none { id := 5 } [installation]⟩,
    ⟨{ now }, .synchronizeRepositories 1 1 [repository "main"]⟩,
    ⟨{ now }, .selectRepository 1 1 1⟩]

/-- One worker takes a job to activation. -/
def indexing (now : Timestamp) (claimed : ClaimedJob) (workerId : WorkerId)
    (indexVersion : Nat) (commitSha : CommitSha) : List Transaction :=
  [⟨{ now }, .claim claimed.id workerId⟩,
    ⟨{ now }, .store claimed workerId .authorizedContext⟩,
    ⟨{ now }, .store claimed workerId
      (.prepareBuild commitSha {} (processing indexVersion commitSha) "digest")⟩,
    ⟨{ now }, .store claimed workerId .validateGraph⟩,
    ⟨{ now }, .store claimed workerId (.recordVectorCounts 1 1 0 none)⟩,
    ⟨{ now }, .store claimed workerId .markBuildReady⟩,
    ⟨{ now }, .store claimed workerId (.activate commitSha)⟩]

def transactions : List Transaction :=
  selection 0 ++ indexing 0 ⟨1, 1, 1⟩ "worker" 1 "first"

def indexed : Journal :=
  ({ database := {} } : Journal).run settings platform transactions

theorem indexed_reachable : Journal.Reachable settings platform indexed :=
  .run (by decide) .start

end Onboarding

end Codenaut.Services
