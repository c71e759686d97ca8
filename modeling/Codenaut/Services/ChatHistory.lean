import Codenaut.Db.Chat
import Codenaut.Rag.Models

/-!
# Chat history

`ChatHistoryService` of `app/services/chat.py`, and the endpoint code of
`app/api/questions.py` that stores an answer and pairs stored messages again.
The Pydantic adapters of `app/schemas/chat.py` are parameters.
-/

set_option autoImplicit false

namespace Codenaut.Services

open Codenaut.Db Codenaut.Rag Codenaut.Relational

/-- `_ANSWERABILITY_TO_STATUS`. -/
def answerabilityToStatus : Answerability → AnswerStatus
  | .answered => .answered
  | .partiallyAnswered => .partiallyAnswered
  | .insufficientEvidence => .insufficientEvidence
  | .unsupportedQuestion => .unsupportedQuestion
  | .temporarilyUnavailable => .toolFailure

/-- `_UNCERTAINTY_TO_LEVEL`. -/
def uncertaintyToLevel : AnswerUncertainty → AnswerUncertaintyLevel
  | .low => .low
  | .medium => .medium
  | .high => .high
  | .notApplicable => .notApplicable

/-- `_STATUS_TO_ANSWERABILITY`. -/
def statusToAnswerability : AnswerStatus → Answerability
  | .answered => .answered
  | .partiallyAnswered => .partiallyAnswered
  | .insufficientEvidence => .insufficientEvidence
  | .unsupportedQuestion => .unsupportedQuestion
  | .staleIndex => .temporarilyUnavailable
  | .toolFailure => .temporarilyUnavailable

/-- `_LEVEL_TO_UNCERTAINTY`. -/
def levelToUncertainty : AnswerUncertaintyLevel → AnswerUncertainty
  | .low => .low
  | .medium => .medium
  | .high => .high
  | .notApplicable => .notApplicable

/-- `model_dump` of the two response models, the type adapters that validate
dumped values, and the JSON values that a JSONB column takes. -/
structure ChatAdapters (Citation TraceStep Json : Type) where
  dumpCitation : Citation → Json
  validateCitation : Json → Option Citation
  dumpTraceStep : TraceStep → Json
  validateTraceStep : Json → Option TraceStep
  storableJson : Json → Bool

/-- Validation reads a dumped model back. -/
structure ChatAdapters.Lawful {Citation TraceStep Json : Type}
    (adapters : ChatAdapters Citation TraceStep Json) : Prop where
  citation : ∀ value, adapters.validateCitation (adapters.dumpCitation value) = some value
  traceStep : ∀ value, adapters.validateTraceStep (adapters.dumpTraceStep value) = some value

/-- `RepositoryQuestionResponse`. -/
structure QuestionResponse (Citation TraceStep : Type) where
  repositoryId : RepositoryId
  answer : String
  answerability : Answerability
  uncertainty : AnswerUncertainty
  citations : List Citation
  indexedCommitSha : Option CommitSha
  activeIndexVersion : Nat
  retrievedEvidenceCount : Nat
  toolCallCount : Nat
  durationMs : Nat
  trace : List TraceStep
  deriving DecidableEq, Repr

/-- `RepositoryChatExchangeResponse`. -/
structure ChatExchangeResponse (Citation TraceStep : Type) where
  question : String
  response : QuestionResponse Citation TraceStep
  deriving DecidableEq, Repr

/-- What the question endpoint hands to `record_exchange`, before the citations
and the trace are dumped. -/
structure Exchange (Citation TraceStep : Type) where
  question : String
  answer : String
  answerability : Answerability
  uncertainty : AnswerUncertainty
  indexedCommitSha : Option CommitSha
  activeIndexVersion : Nat
  retrievedEvidenceCount : Nat
  citations : List Citation
  trace : List TraceStep
  deriving DecidableEq, Repr

variable {Citation TraceStep Json : Type}

/-- The row of the question. -/
def Exchange.questionColumns (exchange : Exchange Citation TraceStep) : MessageColumns Json where
  role := .user
  content := exchange.question

/-- The row of the answer. -/
def Exchange.answerColumns (adapters : ChatAdapters Citation TraceStep Json)
    (exchange : Exchange Citation TraceStep) : MessageColumns Json where
  role := .assistant
  content := exchange.answer
  answerStatus := some (answerabilityToStatus exchange.answerability)
  uncertainty := some (uncertaintyToLevel exchange.uncertainty)
  toolTraceJson := exchange.trace.map adapters.dumpTraceStep
  evidenceJson := exchange.citations.map adapters.dumpCitation
  indexedCommitSha := exchange.indexedCommitSha
  activeIndexVersion := some exchange.activeIndexVersion
  retrievedEvidenceCount := some exchange.retrievedEvidenceCount

/-- The title of a new session, which the column bounds. -/
def sessionTitle (githubFullName : String) : String :=
  githubFullName ++ " chat"

def storableTitle (title : String) : Bool :=
  decide (title.length ≤ 255) && storableText title

/-- `_get_or_create_session_id`, a transaction of its own. The repository is
given by its full name, `none` when its row is gone. Without a concurrent call
the insert meets no uniqueness violation. -/
def getOrCreateSession (tables : ChatTables Json) (userId : UserId) (repositoryId : RepositoryId)
    (githubFullName : Option String) : Option (ChatTables Json × SessionId) :=
  match tables.session? userId repositoryId with
  | some existing => some (tables, existing.id)
  | none =>
      match githubFullName with
      | none => none
      | some fullName =>
          if storableTitle (sessionTitle fullName) then
            let created : ChatSession := {
              id := freshKey (tables.sessions.map (·.id))
              repositoryId := repositoryId
              createdByUserId := some userId
              title := sessionTitle fullName
              updatedAt := tables.clock }
            some ({ tables with sessions := tables.sessions ++ [created] }, created.id)
          else
            none

/-- A row as its insert stores it: `created_at` is `now()`, the start of the
transaction. -/
def messageRow (tables : ChatTables Json) (sessionId : SessionId) (id : MessageId)
    (columns : MessageColumns Json) : ChatMessage Json :=
  { columns with id := id, sessionId := sessionId, createdAt := tables.clock }

/-- The transaction of `record_exchange` that stores both messages. -/
def storeExchange (adapters : ChatAdapters Citation TraceStep Json) (tables : ChatTables Json)
    (sessionId : SessionId) (now : Timestamp) (exchange : Exchange Citation TraceStep) :
    Option (ChatTables Json) :=
  let question : MessageColumns Json := exchange.questionColumns
  let answer := exchange.answerColumns adapters
  if question.storable adapters.storableJson && answer.storable adapters.storableJson then
    let id := freshKey (tables.messages.map (·.id))
    some { tables with
      messages := tables.messages ++
        [messageRow tables sessionId id question, messageRow tables sessionId (id + 1) answer]
      sessions := updateWhere (·.id == sessionId) (fun row => { row with updatedAt := now })
        tables.sessions }
  else
    none

/-- `record_exchange`: the tables it leaves, and whether it stored the exchange. -/
def recordExchange (adapters : ChatAdapters Citation TraceStep Json) (tables : ChatTables Json)
    (userId : UserId) (repositoryId : RepositoryId) (githubFullName : Option String)
    (elapsed : Nat) (now : Timestamp) (exchange : Exchange Citation TraceStep) :
    ChatTables Json × Bool :=
  match getOrCreateSession tables userId repositoryId githubFullName with
  | none => (tables, false)
  | some (opened, sessionId) =>
      match storeExchange adapters (opened.wait elapsed) sessionId now exchange with
      | none => (opened.wait elapsed, false)
      | some stored => (stored, true)

/-- `clear_history` of an authorized caller; messages go with their session. -/
def clearHistory (tables : ChatTables Json) (userId : UserId) (repositoryId : RepositoryId) :
    ChatTables Json :=
  match tables.session? userId repositoryId with
  | none => tables
  | some session =>
      { tables with
        sessions := deleteWhere (·.id == session.id) tables.sessions
        messages := deleteWhere (·.sessionId == session.id) tables.messages }

/-- The answers that `list_messages` of an authorized caller may receive: the
session's rows in any order that `ORDER BY created_at` allows. -/
structure ListedMessages (tables : ChatTables Json) (userId : UserId)
    (repositoryId : RepositoryId) (answer : List (ChatMessage Json)) : Prop where
  rows : answer.Perm (match tables.session? userId repositoryId with
    | none => []
    | some session => tables.messagesOf session.id)
  ordered : answer.Pairwise fun earlier later => earlier.createdAt ≤ later.createdAt

instance [DecidableEq Json] (tables : ChatTables Json) (userId : UserId)
    (repositoryId : RepositoryId) (answer : List (ChatMessage Json)) :
    Decidable (ListedMessages tables userId repositoryId answer) :=
  decidable_of_iff (answer.Perm (match tables.session? userId repositoryId with
      | none => []
      | some session => tables.messagesOf session.id) ∧
    answer.Pairwise fun earlier later => earlier.createdAt ≤ later.createdAt)
    ⟨fun ⟨rows, ordered⟩ => ⟨rows, ordered⟩, fun ⟨rows, ordered⟩ => ⟨rows, ordered⟩⟩

/-- The response that the endpoint builds from an assistant row; `none` when an
adapter rejects the stored JSON. -/
def answerResponse (adapters : ChatAdapters Citation TraceStep Json) (repositoryId : RepositoryId)
    (item : MessageColumns Json) : Option (QuestionResponse Citation TraceStep) := do
  let citations ← item.evidenceJson.mapM adapters.validateCitation
  let trace ← item.toolTraceJson.mapM adapters.validateTraceStep
  pure {
    repositoryId := repositoryId
    answer := item.content
    answerability := match item.answerStatus with
      | some status => statusToAnswerability status
      | none => .temporarilyUnavailable
    uncertainty := match item.uncertainty with
      | some level => levelToUncertainty level
      | none => .notApplicable
    citations := citations
    indexedCommitSha := item.indexedCommitSha
    activeIndexVersion := item.activeIndexVersion.getD 0
    retrievedEvidenceCount := item.retrievedEvidenceCount.getD 0
    toolCallCount := item.toolTraceJson.length
    durationMs := 0
    trace := trace }

/-- The loop of `_pair_messages`, with its `pending_question`. -/
def pairFrom (adapters : ChatAdapters Citation TraceStep Json) (repositoryId : RepositoryId) :
    Option String → List (ChatMessage Json) →
      Option (List (ChatExchangeResponse Citation TraceStep))
  | _, [] => some []
  | pending, item :: rest =>
      match item.role, pending with
      | .user, _ => pairFrom adapters repositoryId (some item.content) rest
      | .assistant, some question => do
          let response ← answerResponse adapters repositoryId item.toMessageColumns
          let exchanges ← pairFrom adapters repositoryId none rest
          pure ({ question := question, response := response } :: exchanges)
      | .assistant, none => pairFrom adapters repositoryId none rest
      | .systemEvent, pending => pairFrom adapters repositoryId pending rest

/-- `_pair_messages`. -/
def pairMessages (adapters : ChatAdapters Citation TraceStep Json) (repositoryId : RepositoryId)
    (messages : List (ChatMessage Json)) :
    Option (List (ChatExchangeResponse Citation TraceStep)) :=
  pairFrom adapters repositoryId none messages

end Codenaut.Services
