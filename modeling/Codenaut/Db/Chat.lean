import Codenaut.Db.Models

/-!
# Chat rows

The rows of `app/db/models/chat.py`. The type of stored JSON values is left
open. The column `confidence`, which no chat operation writes or reads, is left out.
-/

set_option autoImplicit false

namespace Codenaut.Db

open Codenaut.Relational

abbrev SessionId := Nat
abbrev MessageId := Nat

inductive ChatRole where
  | user
  | assistant
  | systemEvent
  deriving DecidableEq, Repr

inductive AnswerStatus where
  | answered
  | partiallyAnswered
  | insufficientEvidence
  | staleIndex
  | toolFailure
  | unsupportedQuestion
  deriving DecidableEq, Repr

inductive AnswerUncertaintyLevel where
  | low
  | medium
  | high
  | notApplicable
  deriving DecidableEq, Repr

structure ChatSession where
  id : SessionId
  repositoryId : RepositoryId
  createdByUserId : Option UserId
  title : String
  updatedAt : Timestamp
  deriving DecidableEq, Repr

/-- What a message row says, its key, its session and its timestamp aside. -/
structure MessageColumns (Json : Type) where
  role : ChatRole
  content : String
  answerStatus : Option AnswerStatus := none
  toolTraceJson : List Json := []
  evidenceJson : List Json := []
  indexedCommitSha : Option CommitSha := none
  uncertainty : Option AnswerUncertaintyLevel := none
  activeIndexVersion : Option Nat := none
  retrievedEvidenceCount : Option Nat := none
  deriving DecidableEq, Repr

structure ChatMessage (Json : Type) extends MessageColumns Json where
  id : MessageId
  sessionId : SessionId
  createdAt : Timestamp
  deriving DecidableEq, Repr

/-- The two chat tables and the clock of the database server. -/
structure ChatTables (Json : Type) where
  sessions : List ChatSession := []
  messages : List (ChatMessage Json) := []
  clock : Timestamp := 0
  deriving DecidableEq, Repr

variable {Json : Type}

/-- The session of a user for a repository. -/
def ownSession (userId : UserId) (repositoryId : RepositoryId) (row : ChatSession) : Bool :=
  row.repositoryId == repositoryId && row.createdByUserId == some userId

def ChatTables.session? (tables : ChatTables Json) (userId : UserId)
    (repositoryId : RepositoryId) : Option ChatSession :=
  tables.sessions.find? (ownSession userId repositoryId)

def ChatTables.messagesOf (tables : ChatTables Json) (sessionId : SessionId) :
    List (ChatMessage Json) :=
  tables.messages.filter (·.sessionId == sessionId)

/-- Time that passes between two transactions. -/
def ChatTables.wait (tables : ChatTables Json) (elapsed : Nat) : ChatTables Json :=
  { tables with clock := tables.clock + elapsed }

/-- Text that PostgreSQL stores: no NUL character. -/
def storableText (value : String) : Bool :=
  !value.toList.contains (Char.ofNat 0)

/-- The column types and the check constraint of `chat_messages`. JSON values
are storable as `storableJson` says. -/
def MessageColumns.storable (storableJson : Json → Bool) (columns : MessageColumns Json) : Bool :=
  decide (0 < columns.content.length) && storableText columns.content &&
    columns.toolTraceJson.all storableJson && columns.evidenceJson.all storableJson &&
    columns.indexedCommitSha.all (fun sha => decide (sha.length ≤ 64) && storableText sha) &&
    columns.activeIndexVersion.all (fun version => decide (version ≤ 2147483647)) &&
    columns.retrievedEvidenceCount.all (fun count => decide (count ≤ 2147483647))

end Codenaut.Db
