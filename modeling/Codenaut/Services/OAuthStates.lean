import Codenaut.Db.Auth
import Codenaut.Transaction.Insertion

/-!
# OAuth states

`AuthService.start_oauth` and `_consume_oauth_state`, statement by statement on
`oauth_states` under READ COMMITTED. A callback finds its row by the digest of
the state, under the row lock, and consumes it if every check succeeds.
-/

set_option autoImplicit false

namespace Codenaut.Services

open Codenaut.Db Codenaut.Relational Codenaut.Transaction

structure OAuthService where
  hashOpaqueToken : String → String
  stateTtlSeconds : Nat

/-- The arguments of `_consume_oauth_state`, and the time it reads. -/
structure ConsumeRequest where
  now : Timestamp
  state : String
  codeVerifier : Option String
  provider : AuthProvider
  nonce : Option String := none
  deriving DecidableEq, Repr

/-- One call. A start draws its credentials and, for Google, a nonce;
`userStored` is the answer of `session.get(User, linking_user_id)`. -/
inductive OAuthCall where
  | start (provider : AuthProvider) (linkingUserId : Option UserId) (userStored : Bool)
      (now : Timestamp) (state codeVerifier nonce : String)
  | githubCallback (now : Timestamp) (state : String) (codeVerifier : Option String)
  | googleCallback (now : Timestamp) (state : String) (codeVerifier nonce : Option String)
  deriving DecidableEq, Repr

/-- The attributes of a new row. -/
structure NewOAuthState where
  stateHash : String
  codeVerifierHash : String
  provider : AuthProvider
  flow : OAuthFlow
  nonceHash : Option String
  intendedUserId : Option UserId
  expiresAt : Timestamp
  deriving DecidableEq, Repr

def NewOAuthState.row (new : NewOAuthState) (id : OAuthStateId) : OAuthState where
  id := id
  stateHash := new.stateHash
  codeVerifierHash := new.codeVerifierHash
  provider := new.provider
  flow := new.flow
  nonceHash := new.nonceHash
  intendedUserId := new.intendedUserId
  expiresAt := new.expiresAt

/-- What a session inserts, and the row that a callback returns. -/
inductive OAuthNote where
  | started (new : NewOAuthState)
  | consumed (row : OAuthState)
  deriving DecidableEq, Repr

abbrev OAuthScript := Script OAuthState OAuthNote

def stateKey (row : OAuthState) : OAuthStateId :=
  row.id

/-! ## Starts -/

def startedState (service : OAuthService) (provider : AuthProvider)
    (linkingUserId : Option UserId) (now : Timestamp) (state codeVerifier nonce : String) :
    NewOAuthState where
  stateHash := service.hashOpaqueToken state
  codeVerifierHash := service.hashOpaqueToken codeVerifier
  provider := provider
  flow := if linkingUserId.isSome then .link else .signIn
  nonceHash := if provider = .google then some (service.hashOpaqueToken nonce) else none
  intendedUserId := linkingUserId
  expiresAt := now + 1000 * service.stateTtlSeconds

/-- `oauth_states.state_hash` is unique. -/
def insertState (table : List OAuthState) (row : OAuthState) : Option (List OAuthState) :=
  if table.any (·.stateHash == row.stateHash) then none else some [row]

def stateInsertion : Insertion OAuthState OAuthNote
  | table, [.started new] => insertState table (new.row (freshKey (table.map (·.id))))
  | _, _ => some []

/-! ## Callbacks -/

def consumedState (now : Timestamp) (row : OAuthState) : OAuthState :=
  { row with usedAt := some now }

/-- The nonce check: present and matching if one is stored, absent if not. -/
def nonceMatches (service : OAuthService) : Option String → Option String → Bool
  | some _, none => false
  | some stored, some nonce => stored == service.hashOpaqueToken nonce
  | none, some _ => false
  | none, none => true

def consumeOAuthState (service : OAuthService) (request : ConsumeRequest) : OAuthScript :=
  match request.codeVerifier with
  | none => .rollback
  | some codeVerifier =>
      if request.state.isEmpty || codeVerifier.isEmpty then .rollback
      else
        .lock (·.stateHash == service.hashOpaqueToken request.state) fun
          | none => .rollback
          | some record =>
              if record.provider != request.provider || record.usedAt.isSome ||
                  record.expiresAt ≤ request.now ||
                  record.codeVerifierHash != service.hashOpaqueToken codeVerifier then .rollback
              else if nonceMatches service record.nonceHash request.nonce then
                .flush record (consumedState request.now)
                  (.note (.consumed record) .commit)
              else .rollback

def OAuthCall.starts : OAuthCall → Bool
  | .start _ _ _ _ _ _ _ => true
  | _ => false

/-- What `authenticate_callback` and `authenticate_google_callback` consume. -/
def OAuthCall.request : OAuthCall → Option ConsumeRequest
  | .start _ _ _ _ _ _ _ => none
  | .githubCallback now state codeVerifier =>
      match codeVerifier with
      | none => none
      | some verifier => some { now, state, codeVerifier := some verifier, provider := .github }
  | .googleCallback now state codeVerifier nonce =>
      match codeVerifier, nonce with
      | some verifier, some value =>
          some { now, state, codeVerifier := some verifier, provider := .google, nonce := some value }
      | _, _ => none

def oauthProgram (service : OAuthService) : OAuthCall → OAuthScript
  | .start provider linkingUserId userStored now state codeVerifier nonce =>
      if linkingUserId.isSome && !userStored then .rollback
      else
        .note (.started (startedState service provider linkingUserId now state codeVerifier nonce))
          .commit
  | call =>
      match call.request with
      | none => .rollback
      | some request => consumeOAuthState service request

abbrev OAuthStates := State OAuthState OAuthNote OAuthCall

/-- Any interleaving of calls, from an empty table. -/
def OAuthPath (service : OAuthService) : OAuthStates → Prop :=
  State.Path stateKey stateInsertion (oauthProgram service) (fun _ _ => True) { table := [] }

/-- The rows that the commits of a log consumed, newest first. -/
def consumedRows (log : List (Commit OAuthState OAuthNote OAuthCall)) : List OAuthState :=
  log.flatMap fun commit => commit.notes.filterMap fun
    | .consumed row => some row
    | _ => none

def consumedStates (log : List (Commit OAuthState OAuthNote OAuthCall)) : List OAuthStateId :=
  (consumedRows log).map (·.id)

/-! ## What a call commits -/

/-- Every check of a callback succeeds on the row. -/
structure Accepts (service : OAuthService) (request : ConsumeRequest) (row : OAuthState) :
    Prop where
  state : row.stateHash = service.hashOpaqueToken request.state
  provider : row.provider = request.provider
  unused : row.usedAt = none
  unexpired : request.now < row.expiresAt
  verifier : ∃ codeVerifier, request.codeVerifier = some codeVerifier ∧
    row.codeVerifierHash = service.hashOpaqueToken codeVerifier
  nonce : row.nonceHash = request.nonce.map service.hashOpaqueToken

inductive OAuthCommit (service : OAuthService) :
    OAuthCall → List (Write OAuthState) → List OAuthNote → Prop where
  | started {provider : AuthProvider} {linkingUserId : Option UserId} {userStored : Bool}
      {now : Timestamp} {state codeVerifier nonce : String}
      (allowed : linkingUserId.isSome = true → userStored = true) :
      OAuthCommit service
        (.start provider linkingUserId userStored now state codeVerifier nonce) []
        [.started (startedState service provider linkingUserId now state codeVerifier nonce)]
  | consumed {call : OAuthCall} {request : ConsumeRequest} {row : OAuthState}
      (requested : call.request = some request) (accepts : Accepts service request row) :
      OAuthCommit service call [⟨row, consumedState request.now row⟩] [.consumed row]

theorem nonceMatches_iff {service : OAuthService} {stored nonce : Option String} :
    nonceMatches service stored nonce = true ↔ stored = nonce.map service.hashOpaqueToken := by
  cases stored <;> cases nonce <;> simp [nonceMatches]

theorem insertState_some {table rows : List OAuthState} {row : OAuthState}
    (inserted : insertState table row = some rows) : rows = [row] := by
  unfold insertState at inserted
  split at inserted <;> cases inserted
  rfl

theorem stateInsertion_lawful : Insertion.Lawful stateKey stateInsertion := by
  intro table notes rows unique inserted
  unfold stateInsertion at inserted
  split at inserted
  case h_1 new =>
      rw [insertState_some inserted]
      refine unique.insert fun other member same => ?_
      have known : other.id ∈ table.map (·.id) := List.mem_map_of_mem member
      have equal : other.id = freshKey (table.map (·.id)) := same
      exact freshKey_not_mem _ (equal ▸ known)
  case h_2 =>
      cases inserted
      simpa using unique

/-- On a locked row that passes every check, a callback consumes it. -/
theorem consumeOAuthState_safe {service : OAuthService} {call : OAuthCall}
    {request : ConsumeRequest} (requested : call.request = some request) :
    Safe stateKey unchecked (OAuthCommit service call) (consumeOAuthState service request)
      [] [] := by
  unfold consumeOAuthState
  split
  case h_1 => trivial
  case h_2 codeVerifier given =>
      split
      case isTrue => trivial
      case isFalse =>
          refine ⟨trivial, ?_⟩
          intro record matched _
          dsimp only
          split
          case isTrue => trivial
          case isFalse passed =>
              split
              case isFalse => trivial
              case isTrue nonce =>
                  have accepts : Accepts service request record := by
                    simp only [Bool.or_eq_true, bne_iff_ne, decide_eq_true_eq, not_or, not_not,
                      Option.not_isSome_iff_eq_none, Nat.not_le] at passed
                    obtain ⟨⟨⟨provider, unused⟩, unexpired⟩, verifier⟩ := passed
                    exact ⟨by simpa using matched, provider, unused, unexpired,
                      ⟨codeVerifier, given, verifier⟩, nonceMatches_iff.mp nonce⟩
                  intro row same seen _
                  have held : record = row :=
                    seen ⟨record, record⟩ (by simp [Transaction.put]) same.symm
                  subst held
                  refine ⟨rfl, ?_⟩
                  rw [put_locked]
                  exact .consumed requested accepts

theorem oauthProgram_safe (service : OAuthService) :
    SafeProgram stateKey unchecked (OAuthCommit service) (oauthProgram service) := by
  intro call
  have callback : Safe stateKey unchecked (OAuthCommit service call)
      (match call.request with
        | none => .rollback
        | some request => consumeOAuthState service request) [] [] := by
    split
    case h_1 => trivial
    case h_2 request requested => exact consumeOAuthState_safe requested
  cases call with
  | start provider linkingUserId userStored now state codeVerifier nonce =>
      simp only [oauthProgram]
      split
      case isTrue => trivial
      case isFalse refused =>
          refine .started fun linked => ?_
          simpa [linked] using refused
  | githubCallback | googleCallback => exact callback

end Codenaut.Services
