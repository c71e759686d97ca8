import Codenaut.Interaction.Turns
import Codenaut.Services.ChatHistory

/-!
# Recorded exchanges and the order of their rows

Both rows of an exchange carry the start of one transaction as `created_at`,
and the listing orders by that column alone. Pairing gives the recorded
exchanges back exactly for the answers that list the rows as they were recorded.
-/

set_option autoImplicit false

namespace Codenaut.Services

open Codenaut.Db Codenaut.Interaction Codenaut.Rag Codenaut.Relational

variable {Citation TraceStep Json : Type}

/-- A call of the history service by any user, or time that passes. -/
inductive ChatCall (Citation TraceStep : Type) where
  | record (userId : UserId) (repositoryId : RepositoryId) (githubFullName : Option String)
      (elapsed : Nat) (now : Timestamp) (exchange : Exchange Citation TraceStep)
  | clear (authorized : Bool) (userId : UserId) (repositoryId : RepositoryId)
  | wait (elapsed : Nat)
  deriving DecidableEq, Repr

/-- The exchanges of each user and repository, in the order recorded. -/
abbrev Transcripts (Citation TraceStep : Type) :=
  UserId → RepositoryId → List (Exchange Citation TraceStep)

def Transcripts.set (transcripts : Transcripts Citation TraceStep) (userId : UserId)
    (repositoryId : RepositoryId) (exchanges : List (Exchange Citation TraceStep)) :
    Transcripts Citation TraceStep :=
  fun user repository =>
    if user = userId ∧ repository = repositoryId then exchanges else transcripts user repository

/-- The tables and the transcripts after a call. An exchange enters the
transcript when its transaction commits. -/
def ChatCall.run (adapters : ChatAdapters Citation TraceStep Json) :
    ChatTables Json × Transcripts Citation TraceStep → ChatCall Citation TraceStep →
      ChatTables Json × Transcripts Citation TraceStep
  | (tables, transcripts), .record userId repositoryId githubFullName elapsed now exchange =>
      match recordExchange adapters tables userId repositoryId githubFullName elapsed now
          exchange with
      | (stored, true) => (stored, transcripts.set userId repositoryId
          (transcripts userId repositoryId ++ [exchange]))
      | (left, false) => (left, transcripts)
  | (tables, transcripts), .clear true userId repositoryId =>
      (clearHistory tables userId repositoryId, transcripts.set userId repositoryId [])
  | (tables, transcripts), .clear false _ _ => (tables, transcripts)
  | (tables, transcripts), .wait elapsed => (tables.wait elapsed, transcripts)

def ChatCall.runs (adapters : ChatAdapters Citation TraceStep Json)
    (calls : List (ChatCall Citation TraceStep)) :
    ChatTables Json × Transcripts Citation TraceStep :=
  calls.foldl (ChatCall.run adapters) ({}, fun _ _ => [])

/-- The columns of the rows that record the exchanges, in order. -/
def recordedColumns (adapters : ChatAdapters Citation TraceStep Json)
    (exchanges : List (Exchange Citation TraceStep)) : List (MessageColumns Json) :=
  exchanges.flatMap fun exchange => [exchange.questionColumns, exchange.answerColumns adapters]

/-- The pair that a reader of the transcript should see. Durations are not stored. -/
def Exchange.response (repositoryId : RepositoryId) (exchange : Exchange Citation TraceStep) :
    ChatExchangeResponse Citation TraceStep where
  question := exchange.question
  response := {
    repositoryId := repositoryId
    answer := exchange.answer
    answerability := exchange.answerability
    uncertainty := exchange.uncertainty
    citations := exchange.citations
    indexedCommitSha := exchange.indexedCommitSha
    activeIndexVersion := exchange.activeIndexVersion
    retrievedEvidenceCount := exchange.retrievedEvidenceCount
    toolCallCount := exchange.trace.length
    durationMs := 0
    trace := exchange.trace }

/-! ## What the tables store -/

/-- Rows that record the exchanges, both rows of an exchange at one time. -/
inductive StoredExchanges (adapters : ChatAdapters Citation TraceStep Json) :
    List (ChatMessage Json) → List (Exchange Citation TraceStep) → Prop where
  | nil : StoredExchanges adapters [] []
  | cons {question answer : ChatMessage Json} {exchange : Exchange Citation TraceStep}
      {rows : List (ChatMessage Json)} {exchanges : List (Exchange Citation TraceStep)} :
      question.toMessageColumns = exchange.questionColumns →
      answer.toMessageColumns = exchange.answerColumns adapters →
      question.createdAt = answer.createdAt →
      StoredExchanges adapters rows exchanges →
      StoredExchanges adapters (question :: answer :: rows) (exchange :: exchanges)

variable {adapters : ChatAdapters Citation TraceStep Json}

theorem StoredExchanges.append {rows later : List (ChatMessage Json)}
    {exchanges more : List (Exchange Citation TraceStep)}
    (stored : StoredExchanges adapters rows exchanges)
    (storedLater : StoredExchanges adapters later more) :
    StoredExchanges adapters (rows ++ later) (exchanges ++ more) := by
  induction stored with
  | nil => exact storedLater
  | cons question answer together _ ih => exact .cons question answer together ih

theorem StoredExchanges.columns {rows : List (ChatMessage Json)}
    {exchanges : List (Exchange Citation TraceStep)}
    (stored : StoredExchanges adapters rows exchanges) :
    rows.map (·.toMessageColumns) = recordedColumns adapters exchanges := by
  induction stored with
  | nil => rfl
  | cons question answer _ _ ih =>
      simp only [recordedColumns] at ih
      simp [recordedColumns, question, answer, ih]

/-- What the tables hold of the transcripts, between two calls. -/
structure ChatInvariant (adapters : ChatAdapters Citation TraceStep Json)
    (tables : ChatTables Json) (transcripts : Transcripts Citation TraceStep) : Prop where
  keys : UniqueKey (·.id) tables.sessions
  owners : UniqueKey (fun row => (row.repositoryId, row.createdByUserId)) tables.sessions
  homed : ∀ row ∈ tables.messages, row.sessionId ∈ tables.sessions.map (·.id)
  past : ∀ row ∈ tables.messages, row.createdAt ≤ tables.clock
  ordered : tables.messages.Pairwise fun earlier later => earlier.createdAt ≤ later.createdAt
  stored : ∀ session ∈ tables.sessions, ∀ userId, session.createdByUserId = some userId →
    StoredExchanges adapters (tables.messagesOf session.id)
      (transcripts userId session.repositoryId)
  absent : ∀ userId repositoryId,
    (∀ session ∈ tables.sessions, ownSession userId repositoryId session = false) →
      transcripts userId repositoryId = []

theorem ownSession_iff {userId : UserId} {repositoryId : RepositoryId} {row : ChatSession} :
    ownSession userId repositoryId row = true ↔
      row.repositoryId = repositoryId ∧ row.createdByUserId = some userId := by
  simp [ownSession]

section Storing

variable {tables stored : ChatTables Json} {sessionId : SessionId}

/-- A stored exchange appends its two rows to one session, both of the present time. -/
theorem storeExchange_some {now : Timestamp} {exchange : Exchange Citation TraceStep}
    (committed : storeExchange adapters tables sessionId now exchange = some stored) :
    ∃ rows : List (ChatMessage Json), StoredExchanges adapters rows [exchange] ∧
      (∀ row ∈ rows, row.sessionId = sessionId ∧ row.createdAt = tables.clock) ∧
      stored = { tables with
        messages := tables.messages ++ rows
        sessions := updateWhere (·.id == sessionId) (fun row => { row with updatedAt := now })
          tables.sessions } := by
  simp only [storeExchange] at committed
  split at committed
  case isFalse => cases committed
  case isTrue =>
    refine ⟨[messageRow tables sessionId (freshKey (tables.messages.map (·.id)))
        exchange.questionColumns, messageRow tables sessionId
        (freshKey (tables.messages.map (·.id)) + 1) (exchange.answerColumns adapters)],
      .cons rfl rfl rfl .nil, ?_, (Option.some.inj committed).symm⟩
    intro row member
    rcases List.mem_pair.mp member with rfl | rfl <;> exact ⟨rfl, rfl⟩

/-- Rows of one session join its messages and no other's. -/
theorem messagesOf_append {rows : List (ChatMessage Json)}
    (added : ∀ row ∈ rows, row.sessionId = sessionId) (other : SessionId) :
    (tables.messages ++ rows).filter (·.sessionId == other) =
      tables.messagesOf other ++ if other = sessionId then rows else [] := by
  rw [List.filter_append, ChatTables.messagesOf]
  congr 1
  split
  case isTrue same =>
    subst same
    exact List.filter_eq_self.mpr fun row member => by simp [added row member]
  case isFalse apart =>
    apply List.filter_eq_nil_iff.mpr
    intro row member home
    exact apart ((beq_iff_eq.mp home).symm.trans (added row member))

/-- An update of the times of a session keeps whose it is. -/
theorem touched_owner {now : Timestamp} {row : ChatSession}
    (member : row ∈ updateWhere (·.id == sessionId) (fun row => { row with updatedAt := now })
      tables.sessions) :
    ∃ old ∈ tables.sessions, row.id = old.id ∧ row.repositoryId = old.repositoryId ∧
      row.createdByUserId = old.createdByUserId := by
  obtain ⟨old, oldMember, rfl⟩ := mem_updateWhere.mp member
  refine ⟨old, oldMember, ?_⟩
  split <;> exact ⟨rfl, rfl, rfl⟩

end Storing

namespace ChatInvariant

variable {tables : ChatTables Json} {transcripts : Transcripts Citation TraceStep}

theorem empty : ChatInvariant adapters ({} : ChatTables Json) (fun _ _ => []) where
  keys := List.nodup_nil
  owners := List.nodup_nil
  homed := by simp
  past := by simp
  ordered := List.Pairwise.nil
  stored := by simp
  absent := fun _ _ _ => rfl

theorem wait (holds : ChatInvariant adapters tables transcripts) (elapsed : Nat) :
    ChatInvariant adapters (tables.wait elapsed) transcripts where
  keys := holds.keys
  owners := holds.owners
  homed := holds.homed
  past := fun row member => Nat.le_trans (holds.past row member) (Nat.le_add_right _ _)
  ordered := holds.ordered
  stored := holds.stored
  absent := holds.absent

/-- A session that no stored session shares its owner or its key with. -/
theorem create (holds : ChatInvariant adapters tables transcripts) {created : ChatSession}
    {userId : UserId} (owner : created.createdByUserId = some userId)
    (absent : tables.session? userId created.repositoryId = none)
    (fresh : created.id ∉ tables.sessions.map (·.id)) :
    ChatInvariant adapters { tables with sessions := tables.sessions ++ [created] }
      transcripts where
  keys := by
    apply holds.keys.insert
    intro other member same
    exact fresh (same ▸ List.mem_map_of_mem member)
  owners := by
    apply holds.owners.insert
    intro other member same
    have unowned := List.find?_eq_none.mp absent other member
    rw [ownSession_iff] at unowned
    exact unowned ⟨congrArg Prod.fst same, (congrArg Prod.snd same).trans owner⟩
  homed := by
    intro row member
    simpa using Or.inl (List.mem_map.mp (holds.homed row member))
  past := holds.past
  ordered := holds.ordered
  stored := by
    intro session member user owned
    rcases List.mem_append.mp member with old | new
    · exact holds.stored session old user owned
    · obtain rfl := List.mem_singleton.mp new
      obtain rfl : user = userId := Option.some.inj (owned.symm.trans owner)
      -- no message refers to the fresh key, and nothing was recorded before
      have unused : tables.messagesOf session.id = [] := by
        apply List.filter_eq_nil_iff.mpr
        intro row stored matched
        exact fresh (beq_iff_eq.mp matched ▸ holds.homed row stored)
      have unrecorded : transcripts user session.repositoryId = [] := by
        apply holds.absent
        intro other stored
        exact Bool.eq_false_iff.mpr (List.find?_eq_none.mp absent other stored)
      rw [unrecorded]
      exact (unused ▸ StoredExchanges.nil :
        StoredExchanges adapters (tables.messagesOf session.id) [])
  absent := by
    intro user repository unowned
    exact holds.absent user repository fun session member =>
      unowned session (List.mem_append_left _ member)

/-- Two sessions of one owner and repository are one session. -/
theorem session_eq (holds : ChatInvariant adapters tables transcripts)
    {first second : ChatSession} (firstMember : first ∈ tables.sessions)
    (secondMember : second ∈ tables.sessions)
    (repository : first.repositoryId = second.repositoryId)
    (owner : first.createdByUserId = second.createdByUserId) : first = second :=
  holds.owners.row_eq firstMember secondMember (by simp only [repository, owner])

/-- The session that a recording uses is stored and its owner's. -/
theorem opened (holds : ChatInvariant adapters tables transcripts) {userId : UserId}
    {repositoryId : RepositoryId} {githubFullName : Option String} {opened : ChatTables Json}
    {sessionId : SessionId}
    (opening : getOrCreateSession tables userId repositoryId githubFullName =
      some (opened, sessionId)) :
    ChatInvariant adapters opened transcripts ∧ ∃ session ∈ opened.sessions,
      ownSession userId repositoryId session = true ∧ session.id = sessionId := by
  unfold getOrCreateSession at opening
  split at opening
  case h_1 session found =>
    obtain ⟨rfl, rfl⟩ := Prod.mk.inj (Option.some.inj opening)
    exact ⟨holds, session, List.mem_of_find?_eq_some found, List.find?_some found, rfl⟩
  case h_2 absent =>
    cases githubFullName with
    | none => cases opening
    | some fullName =>
        simp only at opening
        split at opening
        case isFalse => cases opening
        case isTrue =>
          obtain ⟨rfl, rfl⟩ := Prod.mk.inj (Option.some.inj opening)
          refine ⟨holds.create rfl absent (freshKey_not_mem _), _,
            List.mem_append_right _ (List.mem_singleton.mpr rfl), ?_, rfl⟩
          exact ownSession_iff.mpr ⟨rfl, rfl⟩

/-- The transaction that stores an exchange appends its two rows to the owner's
session and to no other. -/
theorem store (holds : ChatInvariant adapters tables transcripts) {session : ChatSession}
    {userId : UserId} {now : Timestamp} {exchange : Exchange Citation TraceStep}
    {stored : ChatTables Json} (member : session ∈ tables.sessions)
    (owner : session.createdByUserId = some userId)
    (committed : storeExchange adapters tables session.id now exchange = some stored) :
    ChatInvariant adapters stored (transcripts.set userId session.repositoryId
      (transcripts userId session.repositoryId ++ [exchange])) := by
  obtain ⟨rows, recorded, added, rfl⟩ := storeExchange_some committed
  constructor
  case keys => exact holds.keys.updateWhere fun _ => rfl
  case owners => exact holds.owners.updateWhere fun _ => rfl
  case homed =>
    intro row rowMember
    rw [map_updateWhere]
    · rcases List.mem_append.mp rowMember with old | new
      · exact holds.homed row old
      · exact (added row new).1 ▸ List.mem_map_of_mem member
    · exact fun _ => rfl
  case past =>
    intro row rowMember
    rcases List.mem_append.mp rowMember with old | new
    · exact holds.past row old
    · exact Nat.le_of_eq (added row new).2
  case ordered =>
    apply List.pairwise_append.mpr
    refine ⟨holds.ordered, List.pairwise_of_forall_mem_list ?_, ?_⟩
    · intro earlier first later second
      exact Nat.le_of_eq ((added earlier first).2.trans (added later second).2.symm)
    · intro earlier old later new
      rw [(added later new).2]
      exact holds.past earlier old
  case stored =>
    intro row rowMember user owned
    obtain ⟨other, otherMember, sameId, sameRepository, sameOwner⟩ := touched_owner rowMember
    have before := holds.stored other otherMember user (sameOwner ▸ owned)
    simp only [ChatTables.messagesOf, sameId, sameRepository]
    rw [messagesOf_append fun row new => (added row new).1]
    by_cases own : other.id = session.id
    · obtain rfl : other = session := holds.keys.row_eq otherMember member own
      obtain rfl : user = userId := Option.some.inj ((sameOwner ▸ owned).symm.trans owner)
      simpa [Transcripts.set] using before.append recorded
    · have unset : ¬(user = userId ∧ other.repositoryId = session.repositoryId) := by
        rintro ⟨rfl, repository⟩
        exact own (congrArg ChatSession.id (holds.session_eq otherMember member repository
          ((sameOwner ▸ owned).trans owner.symm)))
      simpa [Transcripts.set, unset, own] using before
  case absent =>
    intro user repository unowned
    have unownedBefore : ∀ row ∈ tables.sessions, ownSession user repository row = false := by
      intro row rowMember
      have after := unowned _ (mem_updateWhere.mpr ⟨row, rowMember, rfl⟩)
      split at after <;> exact after
    have unset : ¬(user = userId ∧ repository = session.repositoryId) := by
      rintro ⟨rfl, rfl⟩
      exact Bool.eq_false_iff.mp (unownedBefore session member) (ownSession_iff.mpr ⟨rfl, owner⟩)
    simpa [Transcripts.set, unset] using holds.absent user repository unownedBefore

/-- Clearing removes the caller's session with its messages. -/
theorem clear (holds : ChatInvariant adapters tables transcripts) (userId : UserId)
    (repositoryId : RepositoryId) :
    ChatInvariant adapters (clearHistory tables userId repositoryId)
      (transcripts.set userId repositoryId []) := by
  unfold clearHistory
  split
  case h_1 absent =>
    have unchanged : transcripts.set userId repositoryId [] = transcripts := by
      funext user repository
      by_cases own : user = userId ∧ repository = repositoryId
      · obtain ⟨rfl, rfl⟩ := own
        have empty := holds.absent user repository fun session member =>
          Bool.eq_false_iff.mpr (List.find?_eq_none.mp absent session member)
        simp [Transcripts.set, empty]
      · simp [Transcripts.set, own]
    rw [unchanged]
    exact holds
  case h_2 session found =>
    have member := List.mem_of_find?_eq_some found
    obtain ⟨repository, owner⟩ := ownSession_iff.mp (List.find?_some found)
    constructor
    case keys => exact holds.keys.deleteWhere
    case owners => exact holds.owners.deleteWhere
    case homed =>
      intro row rowMember
      obtain ⟨old, kept⟩ := mem_deleteWhere.mp rowMember
      obtain ⟨home, homeMember, same⟩ := List.mem_map.mp (holds.homed row old)
      exact List.mem_map.mpr ⟨home, mem_deleteWhere.mpr ⟨homeMember, same ▸ kept⟩, same⟩
    case past => exact fun row rowMember => holds.past row (mem_deleteWhere.mp rowMember).1
    case ordered => exact holds.ordered.sublist List.filter_sublist
    case stored =>
      intro other otherMember user owned
      obtain ⟨old, kept⟩ := mem_deleteWhere.mp otherMember
      have apart : other.id ≠ session.id := by simpa using kept
      have unset : ¬(user = userId ∧ other.repositoryId = repositoryId) := by
        rintro ⟨rfl, same⟩
        exact apart (congrArg ChatSession.id
          (holds.session_eq old member (same.trans repository.symm) (owned.trans owner.symm)))
      have sameMessages : (deleteWhere (·.sessionId == session.id) tables.messages).filter
          (·.sessionId == other.id) = tables.messagesOf other.id := by
        unfold deleteWhere ChatTables.messagesOf
        rw [List.filter_filter]
        apply List.filter_congr
        intro row _
        by_cases home : row.sessionId = other.id <;> simp [home, apart]
      have before := holds.stored other old user owned
      simpa [ChatTables.messagesOf, sameMessages, Transcripts.set, unset] using before
    case absent =>
      intro user repository' unowned
      by_cases own : user = userId ∧ repository' = repositoryId
      · simp [Transcripts.set, own]
      · have unownedBefore : ∀ row ∈ tables.sessions, ownSession user repository' row = false := by
          intro row rowMember
          by_cases removed : row.id = session.id
          · obtain rfl := holds.keys.row_eq rowMember member removed
            apply Bool.eq_false_iff.mpr
            intro owned
            obtain ⟨rfl, other⟩ := ownSession_iff.mp owned
            exact own ⟨Option.some.inj (other.symm.trans owner), repository⟩
          · exact unowned row (mem_deleteWhere.mpr ⟨rowMember, by simpa using removed⟩)
        simpa [Transcripts.set, own] using holds.absent user repository' unownedBefore

/-- A call keeps the tables in step with the transcripts. -/
theorem run {state : ChatTables Json × Transcripts Citation TraceStep}
    (holds : ChatInvariant adapters state.1 state.2) (call : ChatCall Citation TraceStep) :
    ChatInvariant adapters (call.run adapters state).1 (call.run adapters state).2 := by
  obtain ⟨tables, transcripts⟩ := state
  cases call with
  | record userId repositoryId githubFullName elapsed now exchange =>
      simp only [ChatCall.run, recordExchange]
      cases opening : getOrCreateSession tables userId repositoryId githubFullName with
      | none => exact holds
      | some opened =>
          obtain ⟨openedTables, sessionId⟩ := opened
          obtain ⟨kept, session, member, owned, rfl⟩ := holds.opened opening
          obtain ⟨rfl, owner⟩ := ownSession_iff.mp owned
          cases committed : storeExchange adapters (openedTables.wait elapsed) session.id now
              exchange with
          | none => simpa [committed] using kept.wait elapsed
          | some stored =>
              simpa [committed] using (kept.wait elapsed).store member owner committed
  | clear authorized userId repositoryId =>
      cases authorized with
      | false => exact holds
      | true => exact holds.clear userId repositoryId
  | wait elapsed => exact holds.wait elapsed

theorem runs (calls : List (ChatCall Citation TraceStep)) :
    ChatInvariant adapters (ChatCall.runs adapters calls).1 (ChatCall.runs adapters calls).2 := by
  have kept : ∀ state : ChatTables Json × Transcripts Citation TraceStep,
      ChatInvariant adapters state.1 state.2 →
        ChatInvariant adapters (calls.foldl (ChatCall.run adapters) state).1
          (calls.foldl (ChatCall.run adapters) state).2 := by
    induction calls with
    | nil => exact fun _ holds => holds
    | cons call rest ih => exact fun state holds => ih _ (run holds call)
  exact kept ({}, fun _ _ => []) empty

/-- The rows that a listing orders record the caller's transcript. -/
theorem listed (holds : ChatInvariant adapters tables transcripts) (userId : UserId)
    (repositoryId : RepositoryId) :
    ∃ rows, StoredExchanges adapters rows (transcripts userId repositoryId) ∧
      rows.Pairwise (fun earlier later => earlier.createdAt ≤ later.createdAt) ∧
      ∀ answer, ListedMessages tables userId repositoryId answer ↔
        answer.Perm rows ∧
          answer.Pairwise fun earlier later => earlier.createdAt ≤ later.createdAt := by
  cases found : tables.session? userId repositoryId with
  | none =>
      have unrecorded := holds.absent userId repositoryId fun session member =>
        Bool.eq_false_iff.mpr (List.find?_eq_none.mp found session member)
      refine ⟨[], unrecorded ▸ .nil, .nil, fun answer => ?_⟩
      constructor
      · intro listed
        have rows := listed.rows
        simp only [found] at rows
        exact ⟨rows, listed.ordered⟩
      · intro listed
        constructor
        · simpa only [found] using listed.1
        · exact listed.2
  | some session =>
      obtain ⟨rfl, owner⟩ := ownSession_iff.mp (List.find?_some found)
      have stored := holds.stored session (List.mem_of_find?_eq_some found) userId owner
      refine ⟨tables.messagesOf session.id, stored, holds.ordered.sublist List.filter_sublist,
        fun answer => ?_⟩
      constructor
      · intro listed
        have rows := listed.rows
        simp only [found] at rows
        exact ⟨rows, listed.ordered⟩
      · intro listed
        constructor
        · simpa only [found] using listed.1
        · exact listed.2

end ChatInvariant

/-! ## Pairing stored rows -/

/-- A row as a turn of the dialogue; system events are no turn. -/
def turnOf (row : MessageColumns Json) : Option (Turn String (MessageColumns Json)) :=
  match row.role with
  | .user => some (.ask row.content)
  | .assistant => some (.reply row)
  | .systemEvent => none

/-- One pair of turns as the endpoint renders it. -/
def pairResponse (adapters : ChatAdapters Citation TraceStep Json) (repositoryId : RepositoryId)
    (pair : String × MessageColumns Json) : Option (ChatExchangeResponse Citation TraceStep) :=
  (answerResponse adapters repositoryId pair.2).map fun response =>
    { question := pair.1, response := response }

/-- Pairing messages is pairing their turns and rendering each pair. -/
theorem pairFrom_eq (adapters : ChatAdapters Citation TraceStep Json)
    (repositoryId : RepositoryId) (messages : List (ChatMessage Json)) :
    ∀ pending, pairFrom adapters repositoryId pending messages =
      (pairTurns pending ((messages.map (·.toMessageColumns)).filterMap turnOf)).mapM
        (pairResponse adapters repositoryId) := by
  induction messages with
  | nil => intro pending; cases pending <;> rfl
  | cons item rest ih =>
      intro pending
      cases role : item.role with
      | user => simp [pairFrom, role, turnOf, pairTurns, ih]
      | systemEvent => simp [pairFrom, role, turnOf, ih]
      | assistant =>
          cases pending with
          | none => simp [pairFrom, role, turnOf, pairTurns, ih]
          | some question =>
              cases response : answerResponse adapters repositoryId item.toMessageColumns with
              | none =>
                  simp [pairFrom, role, turnOf, pairTurns, ih, pairResponse, response]
              | some rendered =>
                  simp [pairFrom, role, turnOf, pairTurns, ih, pairResponse, response]

/-- The exchange as the pair of turns it stores. -/
def Exchange.turns (adapters : ChatAdapters Citation TraceStep Json)
    (exchange : Exchange Citation TraceStep) : String × MessageColumns Json :=
  (exchange.question, exchange.answerColumns adapters)

@[simp] theorem recordedColumns_cons (exchange : Exchange Citation TraceStep)
    (rest : List (Exchange Citation TraceStep)) :
    recordedColumns adapters (exchange :: rest) =
      exchange.questionColumns :: exchange.answerColumns adapters ::
        recordedColumns adapters rest :=
  rfl

@[simp] theorem turnOf_questionColumns (exchange : Exchange Citation TraceStep) :
    turnOf (exchange.questionColumns : MessageColumns Json) = some (.ask exchange.question) :=
  rfl

@[simp] theorem turnOf_answerColumns (exchange : Exchange Citation TraceStep) :
    turnOf (exchange.answerColumns adapters) = some (.reply (exchange.answerColumns adapters)) :=
  rfl

theorem filterMap_recordedColumns (exchanges : List (Exchange Citation TraceStep)) :
    (recordedColumns adapters exchanges).filterMap turnOf =
      interleaved (exchanges.map (Exchange.turns adapters)) := by
  induction exchanges with
  | nil => rfl
  | cons exchange rest ih => simp [Exchange.turns, ih]

theorem statusToAnswerability_toStatus (value : Answerability) :
    statusToAnswerability (answerabilityToStatus value) = value := by
  cases value <;> rfl

theorem levelToUncertainty_toLevel (value : AnswerUncertainty) :
    levelToUncertainty (uncertaintyToLevel value) = value := by
  cases value <;> rfl

theorem mapM_validated {Value Stored : Type} {dump : Value → Stored}
    {validate : Stored → Option Value} (lawful : ∀ value, validate (dump value) = some value)
    (values : List Value) : (values.map dump).mapM validate = some values := by
  induction values with
  | nil => rfl
  | cons value rest ih => simp [lawful, ih]

/-- A stored answer is rendered as it was recorded. -/
theorem pairResponse_turns (lawful : adapters.Lawful) (repositoryId : RepositoryId)
    (exchange : Exchange Citation TraceStep) :
    pairResponse adapters repositoryId (exchange.turns adapters) =
      some (exchange.response repositoryId) := by
  simp [pairResponse, Exchange.turns, answerResponse, Exchange.answerColumns, Exchange.response,
    mapM_validated lawful.citation, mapM_validated lawful.traceStep,
    statusToAnswerability_toStatus, levelToUncertainty_toLevel]

theorem Exchange.response_injective (repositoryId : RepositoryId) :
    Function.Injective fun exchange : Exchange Citation TraceStep =>
      exchange.response repositoryId := by
  intro first second same
  cases first
  cases second
  simp only [Exchange.response, ChatExchangeResponse.mk.injEq, QuestionResponse.mk.injEq] at same
  simp [same]

theorem mapM_pairResponse (lawful : adapters.Lawful) (repositoryId : RepositoryId)
    (exchanges : List (Exchange Citation TraceStep)) :
    (exchanges.map (Exchange.turns adapters)).mapM (pairResponse adapters repositoryId) =
      some (exchanges.map (Exchange.response repositoryId)) := by
  induction exchanges with
  | nil => rfl
  | cons exchange rest ih => simp [pairResponse_turns lawful, ih]

/-- The row of a turn. -/
def turnColumns : Turn String (MessageColumns Json) → MessageColumns Json
  | .ask question => { role := .user, content := question }
  | .reply row => row

/-- The turns of recorded rows determine the rows. -/
theorem map_turnColumns {exchanges : List (Exchange Citation TraceStep)}
    {columns : List (MessageColumns Json)}
    (recorded : ∀ row ∈ columns, row ∈ recordedColumns adapters exchanges) :
    (columns.filterMap turnOf).map turnColumns = columns := by
  have inverse : ∀ row ∈ recordedColumns adapters exchanges,
      ∃ turn, turnOf row = some turn ∧ turnColumns turn = row := by
    intro row member
    obtain ⟨exchange, -, stored⟩ := List.mem_flatMap.mp member
    rcases List.mem_pair.mp stored with rfl | rfl
    · exact ⟨_, rfl, rfl⟩
    · exact ⟨_, rfl, rfl⟩
  induction columns with
  | nil => rfl
  | cons row rest ih =>
      obtain ⟨turn, read, written⟩ := inverse row (recorded row (.head _))
      have kept := ih fun other member => recorded other (.tail _ member)
      simp [read, written, kept]

/-- Every pair that a reader forms from recorded turns joins a question with a
recorded answer, so it is the pair of some exchange. -/
theorem pairTurns_turns (turns : List (Turn String (MessageColumns Json))) :
    ∀ pending, (∀ row, Turn.reply row ∈ turns →
        ∃ exchange : Exchange Citation TraceStep, row = exchange.answerColumns adapters) →
      ∃ formed : List (Exchange Citation TraceStep),
        pairTurns pending turns = formed.map (Exchange.turns adapters) := by
  induction turns with
  | nil => intro pending _; exact ⟨[], by cases pending <;> rfl⟩
  | cons turn rest ih =>
      intro pending answers
      have later := fun pending => ih pending fun row member => answers row (.tail _ member)
      cases turn with
      | ask question => exact later (some question)
      | reply row =>
          cases pending with
          | none => exact later none
          | some question =>
              obtain ⟨exchange, rfl⟩ := answers row (.head _)
              obtain ⟨formed, pairs⟩ := later none
              exact ⟨{ exchange with question := question } :: formed, by
                simp [pairTurns, pairs, Exchange.turns, Exchange.answerColumns]⟩

/-- An answer that lists the recorded rows is paired back into the exchanges
exactly when it lists them as they were recorded. -/
theorem pairMessages_eq_iff (lawful : adapters.Lawful) (repositoryId : RepositoryId)
    {answer rows : List (ChatMessage Json)} {exchanges : List (Exchange Citation TraceStep)}
    (stored : StoredExchanges adapters rows exchanges) (same : answer.Perm rows) :
    pairMessages adapters repositoryId answer =
        some (exchanges.map (Exchange.response repositoryId)) ↔
      answer.map (·.toMessageColumns) = recordedColumns adapters exchanges := by
  have columns : (answer.map (·.toMessageColumns)).Perm (recordedColumns adapters exchanges) :=
    stored.columns ▸ same.map _
  have turns : ((answer.map (·.toMessageColumns)).filterMap turnOf).Perm
      (interleaved (exchanges.map (Exchange.turns adapters))) :=
    filterMap_recordedColumns exchanges ▸ columns.filterMap turnOf
  unfold pairMessages
  rw [pairFrom_eq]
  constructor
  · intro paired
    have answers : ∀ row, Turn.reply row ∈ (answer.map (·.toMessageColumns)).filterMap turnOf →
        ∃ exchange : Exchange Citation TraceStep, row = exchange.answerColumns adapters := by
      intro row member
      obtain ⟨pair, pairMember, turn⟩ := List.mem_flatMap.mp (turns.mem_iff.mp member)
      obtain ⟨exchange, -, rfl⟩ := List.mem_map.mp pairMember
      simp only [List.mem_cons, reduceCtorEq, Turn.reply.injEq, List.not_mem_nil, or_false,
        false_or] at turn
      exact ⟨exchange, turn⟩
    obtain ⟨formed, pairs⟩ := pairTurns_turns _ none answers
    rw [pairs, mapM_pairResponse lawful] at paired
    obtain rfl := (Exchange.response_injective repositoryId).list_map (Option.some.inj paired)
    have alternate := (pairTurns_eq_iff turns).mp pairs
    rw [← filterMap_recordedColumns] at alternate
    have listed := map_turnColumns (fun row member => columns.mem_iff.mp member)
    rw [← listed, alternate, map_turnColumns (fun _ member => member)]
  · intro listed
    rw [listed, filterMap_recordedColumns, pairTurns_interleaved]
    exact mapM_pairResponse lawful repositoryId exchanges

/-- A transcript with an exchange has a listing that puts its first answer
before its question: the two rows tie. -/
theorem StoredExchanges.swapped {rows : List (ChatMessage Json)}
    {exchange : Exchange Citation TraceStep} {rest : List (Exchange Citation TraceStep)}
    (stored : StoredExchanges adapters rows (exchange :: rest))
    (ordered : rows.Pairwise fun earlier later => earlier.createdAt ≤ later.createdAt) :
    ∃ answer : List (ChatMessage Json), answer.Perm rows ∧
      (answer.Pairwise fun earlier later => earlier.createdAt ≤ later.createdAt) ∧
      answer.map (·.toMessageColumns) ≠ recordedColumns adapters (exchange :: rest) := by
  cases stored with
  | @cons question reply _ more _ questionColumns answerColumns together _ =>
      refine ⟨reply :: question :: more, .swap question reply more, ?_, ?_⟩
      · simp only [List.pairwise_cons, List.mem_cons, forall_eq_or_imp] at ordered ⊢
        obtain ⟨⟨tied, questionFirst⟩, answerFirst, later⟩ := ordered
        exact ⟨⟨Nat.le_of_eq together.symm, answerFirst⟩, questionFirst, later⟩
      · intro same
        have heads : reply.toMessageColumns = exchange.questionColumns := (List.cons.inj same).1
        rw [answerColumns] at heads
        have roles : ChatRole.assistant = ChatRole.user := congrArg MessageColumns.role heads
        cases roles

/-- After any calls, a listing is paired back into the recorded exchanges
exactly when it lists the rows as recorded, and every listing that the query
allows is only when nothing was recorded. -/
theorem pairing_recovers_iff_recorded_order (adapters : ChatAdapters Citation TraceStep Json)
    (lawful : adapters.Lawful) (calls : List (ChatCall Citation TraceStep)) (userId : UserId)
    (repositoryId : RepositoryId) :
    (∀ answer, ListedMessages (ChatCall.runs adapters calls).1 userId repositoryId answer →
      (pairMessages adapters repositoryId answer =
          some (((ChatCall.runs adapters calls).2 userId repositoryId).map
            (Exchange.response repositoryId)) ↔
        answer.map (·.toMessageColumns) =
          recordedColumns adapters ((ChatCall.runs adapters calls).2 userId repositoryId))) ∧
    ((∀ answer, ListedMessages (ChatCall.runs adapters calls).1 userId repositoryId answer →
        pairMessages adapters repositoryId answer =
          some (((ChatCall.runs adapters calls).2 userId repositoryId).map
            (Exchange.response repositoryId))) ↔
      (ChatCall.runs adapters calls).2 userId repositoryId = []) := by
  have invariant : ChatInvariant adapters _ _ := ChatInvariant.runs calls
  obtain ⟨rows, stored, ordered, listed⟩ := invariant.listed userId repositoryId
  have paired : ∀ answer : List (ChatMessage Json), answer.Perm rows → _ :=
    fun answer same => pairMessages_eq_iff lawful repositoryId stored same
  constructor
  · exact fun answer allowed => paired answer ((listed answer).mp allowed).1
  constructor
  · intro recovers
    cases recorded : (ChatCall.runs adapters calls).2 userId repositoryId with
    | nil => rfl
    | cons exchange rest =>
        rw [recorded] at stored recovers
        obtain ⟨answer, same, sorted, misplaced⟩ := stored.swapped ordered
        have recovered := recovers answer ((listed answer).mpr ⟨same, sorted⟩)
        exact absurd
          ((pairMessages_eq_iff lawful repositoryId stored same).mp recovered) misplaced
  · intro unrecorded answer allowed
    apply (paired answer ((listed answer).mp allowed).1).mpr
    rw [unrecorded] at stored ⊢
    cases stored
    have none := ((listed answer).mp allowed).1.eq_nil
    subst none
    rfl

/-- Adapters over values that are JSON already. -/
def plainAdapters : ChatAdapters String String String where
  dumpCitation := id
  validateCitation := some
  dumpTraceStep := id
  validateTraceStep := some
  storableJson := fun _ => true

def sampleExchange (question answer : String) : Exchange String String where
  question := question
  answer := answer
  answerability := .answered
  uncertainty := .low
  indexedCommitSha := some "c0"
  activeIndexVersion := 1
  retrievedEvidenceCount := 0
  citations := []
  trace := []

def sampleCalls : List (ChatCall String String) :=
  [.record 1 7 (some "o/r") 1 2 (sampleExchange "q1" "a1"),
    .record 2 7 (some "o/r") 1 4 (sampleExchange "q" "a"),
    .record 1 7 (some "o/r") 1 6 (sampleExchange "q2" "a2")]

/-- Two exchanges of one user, listed as recorded. -/
theorem recordedOrder_recovers :
    pairMessages plainAdapters 7 ((ChatCall.runs plainAdapters sampleCalls).1.messagesOf 1) =
      some [(sampleExchange "q1" "a1").response 7, (sampleExchange "q2" "a2").response 7] :=
  ((pairing_recovers_iff_recorded_order plainAdapters ⟨fun _ => rfl, fun _ => rfl⟩ sampleCalls
    1 7).1 _ (by decide +kernel)).mpr (by decide +kernel)

/-- One exchange whose answer row the database returns first is lost. -/
theorem tiedRows_lose_exchange :
    ¬ ∀ (calls : List (ChatCall String String)) (userId : UserId) (repositoryId : RepositoryId)
      (answer : List (ChatMessage String)),
      ListedMessages (ChatCall.runs plainAdapters calls).1 userId repositoryId answer →
        pairMessages plainAdapters repositoryId answer =
          some (((ChatCall.runs plainAdapters calls).2 userId repositoryId).map
            (Exchange.response repositoryId)) := by
  intro recovers
  have recovered := recovers [.record 1 7 (some "o/r") 1 2 (sampleExchange "q1" "a1")] 1 7
    (((ChatCall.runs plainAdapters
      [.record 1 7 (some "o/r") 1 2 (sampleExchange "q1" "a1")]).1.messagesOf 1).reverse)
    (by decide +kernel)
  revert recovered
  decide +kernel

end Codenaut.Services
