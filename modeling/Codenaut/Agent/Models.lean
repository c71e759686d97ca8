import Codenaut.Rag.Models

/-!
# Agent records

The provider decision, the evidence, the trace and the result of an agent run
(`app/agent/models.py`). Durations are left out.
-/

set_option autoImplicit false

namespace Codenaut.Agent

open Codenaut.Db Codenaut.Rag

inductive AgentToolName where
  | searchCode
  | getHistory
  | findCallers
  deriving DecidableEq, Repr

def AgentToolName.value : AgentToolName → String
  | .searchCode => "search_code"
  | .getHistory => "get_history"
  | .findCallers => "find_callers"

structure AgentToolArguments where
  query : Option String := none
  symbolName : Option String := none
  filePath : Option String := none
  deriving DecidableEq, Repr

inductive AgentAction where
  | tool
  | final
  deriving DecidableEq, Repr

/-- A decision as the provider gives it; any combination of fields. -/
structure AgentDecision where
  action : AgentAction
  toolName : Option AgentToolName := none
  arguments : Option AgentToolArguments := none
  answer : Option String := none
  answerability : Option Answerability := none
  uncertainty : Option AnswerUncertainty := none
  evidenceIds : List String := []
  deriving DecidableEq, Repr

structure CommitEvidence where
  evidenceId : String
  commitSha : CommitSha
  message : String
  committedAt : String
  authorLogin : Option String
  parentShas : List CommitSha
  changedPaths : List String
  patchExcerpt : Option String
  htmlUrl : String
  deriving DecidableEq, Repr

structure PullRequestEvidence where
  evidenceId : String
  number : Nat
  title : String
  state : String
  authorLogin : Option String
  mergedAt : Option String
  mergeCommitSha : Option CommitSha
  changedPaths : List String
  bodyExcerpt : Option String
  htmlUrl : String
  deriving DecidableEq, Repr

structure CallerEvidence where
  evidenceId : String
  targetSymbolName : String
  targetQualifiedName : String
  targetFilePath : String
  callerSymbolName : String
  callerQualifiedName : String
  callerFilePath : String
  callerStartLine : Nat
  callerEndLine : Nat
  callLine : Nat
  callEndLine : Nat
  callExpression : String
  resolutionType : String
  confidence : String
  commitSha : CommitSha
  indexVersion : Nat
  limitation : String := "Static Python analysis; runtime-dispatched calls may be absent."
  deriving DecidableEq, Repr

inductive AgentEvidence where
  | code (item : Evidence)
  | commit (item : CommitEvidence)
  | pullRequest (item : PullRequestEvidence)
  | caller (item : CallerEvidence)
  deriving DecidableEq, Repr

def AgentEvidence.evidenceId : AgentEvidence → String
  | .code item => item.evidenceId
  | .commit item => item.evidenceId
  | .pullRequest item => item.evidenceId
  | .caller item => item.evidenceId

inductive AgentStepStatus where
  | completed
  | failed
  | timedOut
  | rejected
  deriving DecidableEq, Repr

structure AgentTraceStep where
  step : Nat
  tool : AgentToolName
  argumentFingerprint : String
  status : AgentStepStatus
  resultCount : Nat
  failureCode : Option String
  contributedEvidence : Bool
  deriving DecidableEq, Repr

structure AgentRunResult where
  repositoryId : RepositoryId
  answer : String
  answerability : Answerability
  uncertainty : AnswerUncertainty
  evidence : List AgentEvidence
  citedEvidenceIds : List String
  commitSha : Option CommitSha
  indexVersion : Nat
  retrievedEvidenceCount : Nat
  trace : List AgentTraceStep
  deriving DecidableEq, Repr

end Codenaut.Agent
