import Codenaut.Agent.Requests
import Codenaut.Text.Utf8

/-!
# Agent tools

The three tools of `app/agent/tools.py`. Evidence identifiers name the step and
the position of an item in the step's result.
-/

set_option autoImplicit false

namespace Codenaut.Agent

open Codenaut.Core Codenaut.Db Codenaut.Indexing Codenaut.Interaction Codenaut.Rag
open Codenaut.Relational Codenaut.Vector

structure ActiveRepositoryContext where
  userId : UserId
  repository : Repository
  indexVersion : Nat
  commitSha : CommitSha
  preprocessingFingerprint : String
  originalQuestion : String
  deriving DecidableEq, Repr

/-- `f"T{step}-…"`, with the parts after the step. -/
def evidenceName (step : Nat) (parts : List String) : String :=
  String.intercalate "-" (("T" ++ toString step) :: parts)

/-! ## Arguments -/

def fieldAllowed (maximum : Nat) (value : Option String) : Bool :=
  value.all fun text => decide (1 ≤ text.length) && decide (text.length ≤ maximum)

/-- The field bounds of `AgentToolArguments`. -/
def argumentsAllowed (arguments : AgentToolArguments) : Bool :=
  fieldAllowed 4096 arguments.query && fieldAllowed 1024 arguments.symbolName &&
    fieldAllowed 1024 arguments.filePath

/-- `SearchCodeArguments` and `GetHistoryArguments`: a query and nothing else. -/
def queryArguments (arguments : AgentToolArguments) : Option String :=
  if argumentsAllowed arguments && arguments.symbolName.isNone && arguments.filePath.isNone then
    arguments.query
  else none

/-- `FindCallersArguments`: a symbol, and a path inside the repository if any. -/
def callerArguments (arguments : AgentToolArguments) : Option String :=
  if argumentsAllowed arguments && arguments.query.isNone &&
      arguments.filePath.all (!escapesRoot ·) then
    arguments.symbolName
  else none

/-- `safe_argument_fingerprint` on the dumped arguments, keys sorted. -/
def safeArgumentFingerprint (platform : Platform) (name : AgentToolName)
    (arguments : AgentToolArguments) : String :=
  let entries := [("file_path", arguments.filePath), ("query", arguments.query),
    ("symbol_name", arguments.symbolName)].filterMap fun (key, value) =>
      value.map fun text => key ++ "=" ++ text
  ((platform.sha256Hex (String.intercalate "\x1f" (name.value :: entries))).take 16).toString

section Tools

variable {Locals : Type}

/-! ## `SearchCodeTool` -/

def searchCodeHits (settings : QuestionSettings) (platform : QuestionPlatform)
    (context : ActiveRepositoryContext) (query : String) :
    QuestionTask Locals (List RetrievalHit) := do
  match prepareQuery settings.toSettings platform.toPlatform query with
  | .error failure => throw (Raised.ofFailure failure)
  | .ok prepared =>
      let queryVector ← raising (← Task.ask (.embedQuery prepared))
      match vectorScopeForRepository context.repository context.indexVersion with
      | none => throw .value
      | some scope =>
          raising (← Task.ask (.searchVectors scope queryVector context.commitSha
            (embeddingModelFingerprint settings.toSettings platform.toPlatform
              context.preprocessingFingerprint)
            context.preprocessingFingerprint settings.ragRetrievalOverfetch
            settings.ragRetrievalScoreThreshold))

def searchCodeEvidence (settings : Settings) (step : Nat) (hits : List RetrievalHit) :
    List AgentEvidence :=
  (select settings hits).zipIdx.map fun (item, index) =>
    .code { item with evidenceId := evidenceName step ["C" ++ toString (index + 1)] }

def executeSearchCode (settings : QuestionSettings) (platform : QuestionPlatform)
    (context : ActiveRepositoryContext) (arguments : AgentToolArguments) (step : Nat) :
    QuestionTask Locals (List AgentEvidence) := do
  let hits ← tryCatch (match queryArguments arguments with
    | none => throw .value
    | some query => searchCodeHits settings platform context query) fun raised =>
      match raised with
      | .value => throw (.tool "invalid_search_code_arguments")
      | raised => throw raised
  pure (searchCodeEvidence settings.toSettings step hits)

/-! ## `GetHistoryTool` -/

def isHexDigit (char : Char) : Bool :=
  char.isDigit || (decide ('a' ≤ char) && decide (char ≤ 'f')) ||
    (decide ('A' ≤ char) && decide (char ≤ 'F'))

/-- `_COMMIT_SHA_PATTERN`: the first whole run of 7 to 40 hexadecimal digits. -/
def requestedSha (text : String) : Option String :=
  ((text.toList.splitOnP (!isHexDigit ·)).find? fun run =>
    decide (7 ≤ run.length) && decide (run.length ≤ 40)).map String.ofList

def isWordChar (char : Char) : Bool :=
  char.isAlphanum || char == '_' || char == '.' || char == '/' || char == '-'

/-- The words of the question that rank history; at least three characters. -/
def historyTerms (platform : QuestionPlatform) (question : String) : List String :=
  (((question.toList.splitOnP (!isWordChar ·)).filter fun word => decide (3 ≤ word.length)).map
    fun word => platform.casefold (String.ofList word)).eraseDups

def historyText (platform : QuestionPlatform) (bundle : GitHub.HistoryBundle) : String :=
  platform.casefold (String.intercalate " " (bundle.commit.commit.message ::
    bundle.commit.files.map (·.filename) ++ bundle.commit.files.map (·.patch.getD "")))

/-- `_rank`: the bundles that hold most terms first, in their order otherwise. -/
def rankHistory (platform : QuestionPlatform) (question : String)
    (bundles : List GitHub.HistoryBundle) : List GitHub.HistoryBundle :=
  let score (bundle : GitHub.HistoryBundle) : Nat :=
    (historyTerms platform question).countP fun term =>
      decide (term.toList <:+: (historyText platform bundle).toList)
  sortOn (fun bundle => -(score bundle : Int)) bundles

/-- `_truncate`. -/
def truncate (value : String) (maximumBytes : Nat) : String :=
  let encoded := Text.utf8Encode value.toList
  if encoded.length ≤ maximumBytes then value
  else String.ofList (Text.decodeIgnoring (encoded.take maximumBytes))

def changedFiles (settings : Settings) (commit : GitHub.Commit) : List String :=
  (commit.files.take settings.agentHistoryMaxPaths).map (·.filename)

/-- The patches that are not empty, joined. -/
def commitPatches (commit : GitHub.Commit) : String :=
  String.intercalate "\n" ((commit.files.filterMap (·.patch)).filter (· != ""))

def commitDate (commit : GitHub.CommitPayload) : Option String :=
  commit.committerDate.orElse fun _ => commit.authorDate

def commitEvidence (settings : Settings) (step position : Nat) (commit : GitHub.Commit)
    (committedAt : String) : CommitEvidence where
  evidenceId := evidenceName step ["H" ++ toString position]
  commitSha := commit.sha
  message := truncate commit.commit.message settings.agentHistoryMaxMessageBytes
  committedAt := committedAt
  authorLogin := commit.authorLogin
  parentShas := commit.parents
  changedPaths := changedFiles settings commit
  patchExcerpt :=
    if commitPatches commit = "" then none
    else some (truncate (commitPatches commit) settings.agentHistoryMaxPatchBytes)
  htmlUrl := commit.htmlUrl

def pullRequestEvidence (settings : Settings) (step position pullPosition : Nat)
    (commit : GitHub.Commit) (pull : GitHub.PullRequest) : PullRequestEvidence where
  evidenceId := evidenceName step ["P" ++ toString position, toString pullPosition]
  number := pull.number
  title := truncate pull.title settings.agentHistoryMaxMessageBytes
  state := pull.state
  authorLogin := pull.userLogin
  mergedAt := pull.mergedAt
  mergeCommitSha := pull.mergeCommitSha
  changedPaths := changedFiles settings commit
  bodyExcerpt := (pull.body.filter (· != "")).map (truncate · settings.agentHistoryMaxMessageBytes)
  htmlUrl := pull.htmlUrl

/-- The items of one bundle; a commit without a date gives none. -/
def bundleEvidence (settings : Settings) (step position : Nat) (bundle : GitHub.HistoryBundle) :
    List AgentEvidence :=
  match commitDate bundle.commit.commit with
  | none => []
  | some committedAt =>
      .commit (commitEvidence settings step position bundle.commit committedAt) ::
        bundle.pullRequests.zipIdx.map fun (pull, index) =>
          .pullRequest (pullRequestEvidence settings step position (index + 1) bundle.commit pull)

def historyEvidence (settings : Settings) (step : Nat) (ranked : List GitHub.HistoryBundle) :
    List AgentEvidence :=
  ranked.zipIdx.flatMap fun (bundle, index) => bundleEvidence settings step (index + 1) bundle

def fetchHistory (settings : QuestionSettings) (context : ActiveRepositoryContext)
    (revision : String) : QuestionTask Locals (List GitHub.HistoryBundle) := do
  let repository := context.repository
  match repository.accessMode, repository.installationId with
  | .publicAccess, _ =>
      raising (← Task.ask (.publicHistory repository.githubOwner repository.githubName revision
        settings.agentHistoryCommitLimit))
  | .githubInstallation, none => throw (.tool "github_history_unavailable")
  | .githubInstallation, some installationId =>
      let installation ← raising (← Task.ask (.authorizedInstallation context.userId
        installationId))
      let token ← raising (← Task.ask (.installationToken installation.githubInstallationId
        repository.githubRepositoryId))
      raising (← Task.ask (.repositoryHistory token repository.githubOwner repository.githubName
        revision settings.agentHistoryCommitLimit))

def executeGetHistory (settings : QuestionSettings) (platform : QuestionPlatform)
    (context : ActiveRepositoryContext) (arguments : AgentToolArguments) (step : Nat) :
    QuestionTask Locals (List AgentEvidence) := do
  if (queryArguments arguments).isNone then throw (.tool "invalid_get_history_arguments")
  else
    let revision := ((requestedSha context.originalQuestion).map platform.casefold).getD
      context.commitSha
    let bundles ← tryCatch (fetchHistory settings context revision) fun raised =>
      match raised with
      | .github => throw (.tool "github_history_unavailable")
      | raised => throw raised
    pure (historyEvidence settings.toSettings step
      (rankHistory platform context.originalQuestion bundles))

/-! ## `FindCallersTool` -/

/-- The repository no longer is the one that the context was built from. -/
def callerScopeChanged (context : ActiveRepositoryContext) (repository : Repository) : Bool :=
  repository.id != context.repository.id ||
    repository.installationId != context.repository.installationId ||
    repository.indexVersion != context.indexVersion ||
    repository.lastIndexedCommitSha != some context.commitSha

/-- The queries of the tool: the target with the edges into it, in query order. -/
def queryCallers (settings : Settings) (context : ActiveRepositoryContext)
    (repository : Repository) (symbolName : String) (filePath : Option String) :
    QuestionTask Locals (Option (SymbolDefinition × List (CallEdge × SymbolDefinition))) := do
  match ← raising (← Task.ask (.graphBuild repository.id context.indexVersion
      context.commitSha)) with
  | none => throw (.tool "call_graph_unavailable")
  | some _ =>
      match ← raising (← Task.ask (.callerTargets repository.id context.indexVersion
          context.commitSha symbolName filePath)) with
      | [] => pure none
      | [target] =>
          let rows ← raising (← Task.ask (.callerRows repository.id context.indexVersion
            context.commitSha target.id settings.agentCallerResultLimit))
          pure (some (target, rows))
      | _ => throw (.tool "caller_target_ambiguous")

def callerEvidence (step position indexVersion : Nat) (target : SymbolDefinition)
    (row : CallEdge × SymbolDefinition) : CallerEvidence where
  evidenceId := evidenceName step ["G" ++ toString position]
  targetSymbolName := target.symbolName
  targetQualifiedName := target.qualifiedName
  targetFilePath := target.filePath
  callerSymbolName := row.2.symbolName
  callerQualifiedName := row.2.qualifiedName
  callerFilePath := row.2.filePath
  callerStartLine := row.2.startLine
  callerEndLine := row.2.endLine
  callLine := row.1.callLine
  callEndLine := row.1.callEndLine
  callExpression := row.1.callExpression
  resolutionType := row.1.resolutionType.value
  confidence := row.1.confidence.value
  commitSha := row.1.commitSha
  indexVersion := indexVersion

def callersEvidence (step indexVersion : Nat) (target : SymbolDefinition)
    (rows : List (CallEdge × SymbolDefinition)) : List AgentEvidence :=
  rows.zipIdx.map fun (row, index) =>
    .caller (callerEvidence step (index + 1) indexVersion target row)

/-- The tool's own check of the caller's access. -/
def authorizeCallers (context : ActiveRepositoryContext) : QuestionTask Locals Repository :=
  tryCatch (do raising (← Task.ask (.authorize .callers context.userId context.repository.id)))
    fun raised =>
      match raised with
      | .access => throw (.tool "caller_scope_revoked")
      | raised => throw raised

def executeFindCallers (settings : QuestionSettings) (context : ActiveRepositoryContext)
    (arguments : AgentToolArguments) (step : Nat) : QuestionTask Locals (List AgentEvidence) := do
  match callerArguments arguments with
  | none => throw (.tool "invalid_find_callers_arguments")
  | some symbolName =>
      let repository ← authorizeCallers context
      if callerScopeChanged context repository then throw (.tool "caller_scope_changed")
      else
        let found ← tryCatch (queryCallers settings.toSettings context repository symbolName
          arguments.filePath) fun raised =>
            match raised with
            | .database => throw (.tool "caller_query_unavailable")
            | raised => throw raised
        match found with
        | none => pure []
        | some (target, rows) => pure (callersEvidence step context.indexVersion target rows)

/-- The `execute` of the named tool. -/
def toolBody (settings : QuestionSettings) (platform : QuestionPlatform)
    (context : ActiveRepositoryContext) (arguments : AgentToolArguments) (step : Nat) :
    AgentToolName → QuestionTask Locals (List AgentEvidence)
  | .searchCode => executeSearchCode settings platform context arguments step
  | .getHistory => executeGetHistory settings platform context arguments step
  | .findCallers => executeFindCallers settings context arguments step

/-- `registry.get(name).execute(…)`. -/
def executeTool (settings : QuestionSettings) (platform : QuestionPlatform)
    (context : ActiveRepositoryContext) (name : AgentToolName) (arguments : AgentToolArguments)
    (step : Nat) : QuestionTask Locals (List AgentEvidence) := do
  let _ ← Task.ask (QuestionRequest.enter name arguments step)
  toolBody settings platform context arguments step name

end Tools

end Codenaut.Agent
