import Codenaut.Agent.Tools

/-!
# The agent loop

`AgentQuestionService` of `app/agent/service.py`. A decision ends the run or
calls one tool; the caller's access is checked before evidence is sent, before
a tool is called and before the answer.
-/

set_option autoImplicit false

namespace Codenaut.Agent

open Codenaut.Core Codenaut.Db Codenaut.Indexing Codenaut.Interaction Codenaut.Rag

def insufficientText : String :=
  "The authorized evidence does not contain enough support to answer this question."

def unsupportedText : String :=
  "This question requires capabilities outside the current repository agent."

def unavailableText : String :=
  "Repository analysis is temporarily unavailable. Please try again."

/-- The local variables of `_run`. The repository is unbound before the first
check. -/
structure AgentLocals where
  repository : Option Repository := none
  evidence : List AgentEvidence := []
  trace : List AgentTraceStep := []
  completed : List AgentToolName := []
  failed : List AgentToolName := []
  failureCodes : List String := []
  fingerprints : List String := []
  totalEvidenceBytes : Nat := 0
  deriving DecidableEq, Repr

abbrev AgentTask (Result : Type) : Type := QuestionTask AgentLocals Result

/-- `_no_answer`. -/
def noAnswer (repositoryId : RepositoryId) (state : Answerability) (active : Option ActiveIndex)
    (repository : Option Repository) (evidenceCount : Nat) (trace : List AgentTraceStep) :
    AgentRunResult where
  repositoryId := repositoryId
  answer := match state with
    | .unsupportedQuestion => unsupportedText
    | .temporarilyUnavailable => unavailableText
    | _ => insufficientText
  answerability := state
  uncertainty := if state = .insufficientEvidence then .high else .notApplicable
  evidence := []
  citedEvidenceIds := []
  commitSha := match active with
    | some index => some index.commitSha
    | none => repository.bind (·.lastIndexedCommitSha)
  indexVersion := match active with
    | some index => index.indexVersion
    | none => (repository.map (·.indexVersion)).getD 0
  retrievedEvidenceCount := evidenceCount
  trace := trace

/-- `_load_active_index`. -/
def loadIndex (site : CheckSite) (repository : Repository) : AgentTask (Option ActiveIndex) := do
  let build ← loadActiveBuild site repository
  pure (build.map loadedIndex)

/-- The comparison of `_refresh_authorization`. -/
def sameAccess (expected current : Repository) : Bool :=
  current.id == expected.id && current.installationId == expected.installationId &&
    current.accessMode == expected.accessMode &&
    current.githubRepositoryId == expected.githubRepositoryId

/-- `_refresh_authorization` with the current `repository` as the expected one. -/
def refreshAuthorization (call : QuestionCall) (active : ActiveIndex) (site : CheckSite) :
    AgentTask (Option Repository) := do
  match (← get).repository with
  | none => throw .other
  | some expected =>
      let current ← authorizedRepository call site
      let currentActive ← loadIndex site current
      if sameAccess expected current && currentActive == some active then pure (some current)
      else pure none

/-- `_validate_evidence_size`. -/
def validateEvidenceSize (settings : Settings) (encodedSize totalEvidenceBytes : Nat) :
    AgentTask Unit := do
  if settings.agentMaxToolResultBytes < encodedSize then throw (.tool "tool_result_too_large")
  else if settings.agentMaxTotalEvidenceBytes < totalEvidenceBytes + encodedSize then
    throw (.tool "total_evidence_too_large")
  else pure ()

def traceStep (step : Nat) (tool : AgentToolName) (fingerprint : String)
    (status : AgentStepStatus) (resultCount : Nat) (failureCode : Option String)
    (contributed : Bool) : AgentTraceStep where
  step := step
  tool := tool
  argumentFingerprint := fingerprint
  status := status
  resultCount := resultCount
  failureCode := failureCode
  contributedEvidence := contributed

/-- `_no_answer` inside the loop. -/
def loopNoAnswer (call : QuestionCall) (active : ActiveIndex) (locals : AgentLocals) :
    AgentRunResult :=
  noAnswer call.repositoryId .temporarilyUnavailable (some active) none locals.evidence.length
    locals.trace

/-! ## The answer -/

/-- The identifiers that a final decision may cite, in evidence order; `none`
when it cites nothing or something else. -/
def citedIds (state : Answerability) (cited : List String) (evidence : List AgentEvidence) :
    Option (List String) :=
  let ids := evidence.map (·.evidenceId)
  if state = .answered ∨ state = .partiallyAnswered then
    if cited = [] ∨ cited.any (!ids.contains ·) then none
    else some (ids.filter cited.contains)
  else some []

/-- `_finalize`. -/
def finalize (call : QuestionCall) (active : ActiveIndex) (decision : AgentDecision) :
    AgentTask AgentRunResult := do
  match (← get).repository with
  | none => throw .other
  | some repository =>
      let finalRepository ← authorizedRepository call .final
      let finalActive ← loadIndex .final finalRepository
      let locals ← get
      if finalRepository.id != repository.id || finalActive != some active then
        pure (noAnswer call.repositoryId .temporarilyUnavailable none (some finalRepository) 0
          locals.trace)
      else
        let state := decision.answerability.getD .insufficientEvidence
        match citedIds state decision.evidenceIds.eraseDups locals.evidence with
        | none =>
            pure (noAnswer call.repositoryId .insufficientEvidence (some active) none
              locals.evidence.length locals.trace)
        | some orderedIds =>
            pure {
              repositoryId := call.repositoryId
              answer := (decision.answer.filter (· != "")).getD insufficientText
              answerability := state
              uncertainty := decision.uncertainty.getD .high
              evidence := locals.evidence
              citedEvidenceIds := orderedIds
              commitSha := some active.commitSha
              indexVersion := active.indexVersion
              retrievedEvidenceCount := locals.evidence.length
              trace := locals.trace }

/-! ## One iteration -/

/-- How an iteration of the loop ends. -/
inductive Flow where
  | next
  | stop
  | finish (result : AgentRunResult)
  deriving DecidableEq, Repr

/-- How the `try` of a tool step ends. -/
inductive Attempt where
  | unauthorized
  | accepted (result : List AgentEvidence) (size : Nat)
  | failed (status : AgentStepStatus) (code : String)
  deriving DecidableEq, Repr

/-- The body of the `try`. -/
def attemptBody (settings : QuestionSettings) (platform : QuestionPlatform) (call : QuestionCall)
    (active : ActiveIndex) (tool : AgentToolName) (arguments : AgentToolArguments) (step : Nat) :
    AgentTask Attempt := do
  match ← refreshAuthorization call active .tool with
  | none => pure .unauthorized
  | some refreshed =>
      modify fun locals => { locals with repository := some refreshed }
      let result ← executeTool settings platform {
        userId := call.userId
        repository := refreshed
        indexVersion := active.indexVersion
        commitSha := active.commitSha
        preprocessingFingerprint := active.preprocessingFingerprint
        originalQuestion := call.question.text } tool arguments step
      let size := encodedSize platform result
      validateEvidenceSize settings.toSettings size (← get).totalEvidenceBytes
      pure (.accepted result size)

/-- The `try` with its handlers. -/
def attemptTool (settings : QuestionSettings) (platform : QuestionPlatform) (call : QuestionCall)
    (active : ActiveIndex) (tool : AgentToolName) (arguments : AgentToolArguments) (step : Nat) :
    AgentTask Attempt :=
  tryCatch (attemptBody settings platform call active tool arguments step) fun raised =>
    match raised with
    | .timeout => pure (.failed .timedOut "tool_timeout")
    | .tool code => pure (.failed .failed code)
    | .indexing code => pure (.failed .failed code)
    | raised => throw raised

/-- What a failed attempt adds to the local variables. -/
def AgentLocals.fail (locals : AgentLocals) (tool : AgentToolName) (fingerprint : String)
    (status : AgentStepStatus) (code : String) : AgentLocals :=
  { locals with
    failed := locals.failed ++ [tool]
    failureCodes := locals.failureCodes ++ [code]
    trace := locals.trace ++
      [traceStep (locals.trace.length + 1) tool fingerprint status 0 (some code) false] }

/-- What an accepted result adds to the local variables. -/
def AgentLocals.accept (locals : AgentLocals) (tool : AgentToolName) (fingerprint : String)
    (result : List AgentEvidence) (size : Nat) : AgentLocals :=
  { locals with
    evidence := locals.evidence ++ result
    totalEvidenceBytes := locals.totalEvidenceBytes + size
    completed := locals.completed ++ [tool]
    trace := locals.trace ++
      [traceStep (locals.trace.length + 1) tool fingerprint .completed result.length none
        (!result.isEmpty)] }

/-- What a repeated call adds to the local variables. -/
def AgentLocals.reject (locals : AgentLocals) (tool : AgentToolName) (fingerprint : String) :
    AgentLocals :=
  { locals with
    trace := locals.trace ++
      [traceStep (locals.trace.length + 1) tool fingerprint .rejected 0
        (some "repeated_tool_call") false] }

/-- The call of a tool that a decision names. -/
def toolStep (settings : QuestionSettings) (platform : QuestionPlatform) (call : QuestionCall)
    (active : ActiveIndex) (tool : AgentToolName) (arguments : AgentToolArguments) :
    AgentTask Flow := do
  let step := (← get).trace.length + 1
  let fingerprint := safeArgumentFingerprint platform.toPlatform tool arguments
  if (← get).fingerprints.contains fingerprint then
    modify fun locals => locals.reject tool fingerprint
    pure .stop
  else
    modify fun locals => { locals with fingerprints := fingerprint :: locals.fingerprints }
    match ← attemptTool settings platform call active tool arguments step with
    | .unauthorized => pure (.finish (loopNoAnswer call active (← get)))
    | .failed status code =>
        modify fun locals => locals.fail tool fingerprint status code
        pure .next
    | .accepted result size =>
        modify fun locals => locals.accept tool fingerprint result size
        pure .next

/-- The decision request with its handler; `none` is a provider failure. -/
def askProvider (settings : Settings) (call : QuestionCall) : AgentTask (Option AgentDecision) := do
  let locals ← get
  tryCatch (do
    let decision ← raising (← Task.ask (.decide {
      question := call.question.text
      completedTools := locals.completed
      failedTools := locals.failed
      failedToolCodes := locals.failureCodes
      remainingToolCalls := settings.agentMaxToolCalls - locals.trace.length
      evidence := locals.evidence }))
    pure (some decision)) fun raised =>
      match raised with
      | .provider _ => pure none
      | .timeout => pure none
      | raised => throw raised

/-- An iteration from the decision request on. -/
def decideStep (settings : QuestionSettings) (platform : QuestionPlatform) (call : QuestionCall)
    (active : ActiveIndex) : AgentTask Flow := do
  match ← askProvider settings.toSettings call with
  | none => pure (.finish (loopNoAnswer call active (← get)))
  | some decision =>
      if decision.action = .final then
        let result ← finalize call active decision
        pure (.finish result)
      else
        match decision.toolName with
        | none => pure (.finish (loopNoAnswer call active (← get)))
        | some tool =>
            toolStep settings platform call active tool (decision.arguments.getD {})

/-- One iteration: nothing gathered is sent before a new check. -/
def iteration (settings : QuestionSettings) (platform : QuestionPlatform) (call : QuestionCall)
    (active : ActiveIndex) : AgentTask Flow := do
  if (← get).evidence.isEmpty then decideStep settings platform call active
  else
    match ← refreshAuthorization call active .evidence with
    | none => pure (.finish (loopNoAnswer call active (← get)))
    | some refreshed =>
        modify fun locals => { locals with repository := some refreshed }
        decideStep settings platform call active

/-! ## The run -/

def unavailableCodes : List String :=
  ["tool_timeout", "call_graph_unavailable", "caller_query_unavailable", "caller_scope_changed",
    "caller_scope_revoked"]

/-- The end of `_run` after the loop. -/
def exhausted (call : QuestionCall) (active : ActiveIndex) : AgentTask AgentRunResult := do
  let locals ← get
  let state := if locals.failureCodes.any unavailableCodes.contains then
    Answerability.temporarilyUnavailable else .insufficientEvidence
  pure (noAnswer call.repositoryId state (some active) none locals.evidence.length locals.trace)

/-- `while len(trace) < agent_max_tool_calls`: an iteration that continues adds
one step to the trace, so the first argument counts what remains. -/
def agentLoop (settings : QuestionSettings) (platform : QuestionPlatform) (call : QuestionCall)
    (active : ActiveIndex) : Nat → AgentTask AgentRunResult
  | 0 => exhausted call active
  | remaining + 1 => do
      match ← iteration settings platform call active with
      | .next => agentLoop settings platform call active remaining
      | .stop => exhausted call active
      | .finish result => pure result

/-- `_run`. -/
def runAgent (settings : QuestionSettings) (platform : QuestionPlatform) (call : QuestionCall) :
    AgentTask AgentRunResult := do
  let repository ← authorizedRepository call .initial
  modify fun locals => { locals with repository := some repository }
  match ← loadIndex .initial repository with
  | none => pure (noAnswer call.repositoryId .insufficientEvidence none (some repository) 0 [])
  | some active =>
      if platform.isUnsupported call.question.text then
        pure (noAnswer call.repositoryId .unsupportedQuestion (some active) none 0 [])
      else agentLoop settings platform call active settings.agentMaxToolCalls

/-- `answer`: the timeout around the run gives no answer. -/
def answer (settings : QuestionSettings) (platform : QuestionPlatform) (call : QuestionCall) :
    AgentTask AgentRunResult :=
  tryCatch (runAgent settings platform call) fun raised =>
    match raised with
    | .timeout | .cancelled =>
        pure (noAnswer call.repositoryId .temporarilyUnavailable none none 0 [])
    | raised => throw raised

end Codenaut.Agent
