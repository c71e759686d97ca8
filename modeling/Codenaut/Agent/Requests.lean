import Codenaut.Agent.ActiveIndex
import Codenaut.Agent.Prompt
import Codenaut.GitHub.History
import Codenaut.Interaction.Histories
import Codenaut.Rag.Evidence

/-!
# Requests of the question paths

What the two question paths ask of the rest of the system, one request for each
awaited call. Any call may raise anything; a timeout is one of its replies.
-/

set_option autoImplicit false

namespace Codenaut.Agent

open Codenaut.Core Codenaut.Db Codenaut.Indexing Codenaut.Interaction Codenaut.Rag Codenaut.Vector

/-- Exceptions, as far as some handler distinguishes them. `cancelled` is the
expiry of the timeout around the whole path, which no inner handler sees. -/
inductive Raised where
  | timeout
  | cancelled
  | tool (code : String)
  | indexing (code : String)
  | value
  | access
  | github
  | provider (code : String)
  | database
  | other
  deriving DecidableEq, Repr

def Raised.ofFailure : Failure → Raised
  | .indexing error => .indexing error.code
  | .internal => .other

/-- The places that call `get_authorized_repository`: the start of a path, before
evidence is sent, before a tool, in the caller tool, before the answer. -/
inductive CheckSite where
  | initial
  | evidence
  | tool
  | callers
  | final
  deriving DecidableEq, Repr

/-- The arguments of an `answer` call. -/
structure QuestionCall where
  userId : UserId
  repositoryId : RepositoryId
  question : NormalizedQuestion
  deriving DecidableEq, Repr

/-- `enter` marks the call of a tool; the requests after it are the tool's. -/
inductive QuestionRequest where
  | authorize (site : CheckSite) (userId : UserId) (repositoryId : RepositoryId)
  | loadBuild (site : CheckSite) (repository : Repository)
  | decide (payload : AgentPayload)
  | generate (question : NormalizedQuestion) (evidence : List Evidence)
  | enter (tool : AgentToolName) (arguments : AgentToolArguments) (step : Nat)
  | embedQuery (query : PreparedQuery)
  | searchVectors (scope : VectorScope) (queryVector : Embedding) (commitSha : CommitSha)
      (modelFingerprint preprocessingFingerprint : String) (limit : Nat) (scoreThreshold : Rat)
  | publicHistory (owner repository revision : String) (limit : Nat)
  | authorizedInstallation (userId : UserId) (installationId : InstallationId)
  | installationToken (githubInstallationId githubRepositoryId : Nat)
  | repositoryHistory (token owner repository revision : String) (limit : Nat)
  | graphBuild (repositoryId : RepositoryId) (indexVersion : Nat) (commitSha : CommitSha)
  | callerTargets (repositoryId : RepositoryId) (indexVersion : Nat) (commitSha : CommitSha)
      (symbolName : String) (filePath : Option String)
  | callerRows (repositoryId : RepositoryId) (indexVersion : Nat) (commitSha : CommitSha)
      (target : SymbolId) (limit : Nat)
  deriving DecidableEq, Repr

abbrev QuestionReply : QuestionRequest → Type
  | .authorize .. => Except Raised Repository
  | .loadBuild .. => Except Raised (Option RepositoryIndexBuild)
  | .decide .. => Except Raised AgentDecision
  | .generate .. => Except Raised GroundedAnswerDraft
  | .enter .. => Unit
  | .embedQuery .. => Except Raised Embedding
  | .searchVectors .. => Except Raised (List RetrievalHit)
  | .publicHistory .. => Except Raised (List GitHub.HistoryBundle)
  | .authorizedInstallation .. => Except Raised GitHubInstallation
  | .installationToken .. => Except Raised String
  | .repositoryHistory .. => Except Raised (List GitHub.HistoryBundle)
  | .graphBuild .. => Except Raised (Option RepositoryIndexBuild)
  | .callerTargets .. => Except Raised (List SymbolDefinition)
  | .callerRows .. => Except Raised (List (CallEdge × SymbolDefinition))

abbrev QuestionEvent : Type := Event QuestionRequest QuestionReply

/-- A question path with local variables `Locals`. -/
abbrev QuestionTask (Locals Result : Type) : Type :=
  Task QuestionRequest QuestionReply Locals Raised Result

section Requests

variable {Locals Result : Type}

/-- An awaited call raises what its reply says. -/
def raising (reply : Except Raised Result) : QuestionTask Locals Result :=
  match reply with
  | .ok value => pure value
  | .error raised => throw raised

/-- `get_authorized_repository` with `require_fresh_public_visibility`. -/
def authorizedRepository (call : QuestionCall) (site : CheckSite) :
    QuestionTask Locals Repository := do
  raising (← Task.ask (.authorize site call.userId call.repositoryId))

/-- The columns of the build that `_load_active_index` returns. -/
def loadedIndex (build : RepositoryIndexBuild) : ActiveIndex where
  indexVersion := build.indexVersion
  commitSha := build.commitSha
  preprocessingFingerprint := build.preprocessingFingerprint

/-- The repository has no loadable index, whatever its builds are. -/
def unindexed (repository : Repository) : Bool :=
  unloadable repository.indexingStatus || decide (repository.indexVersion < 1) ||
    repository.lastIndexedCommitSha.isNone || decide (repository.activeVectorCount < 1)

/-- `_load_active_index`, up to the columns that its callers keep. -/
def loadActiveBuild (site : CheckSite) (repository : Repository) :
    QuestionTask Locals (Option RepositoryIndexBuild) := do
  if unindexed repository then pure none
  else raising (← Task.ask (.loadBuild site repository))

end Requests

end Codenaut.Agent
