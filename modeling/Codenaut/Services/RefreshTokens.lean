import Codenaut.Db.Auth
import Codenaut.Transaction.Insertion

/-!
# Refresh tokens

`AuthService._issue_session`, `rotate_refresh_token` and `logout`, statement by
statement on `refresh_tokens` under READ COMMITTED. A revocation is one bulk
UPDATE: it selects the rows of the family that are visible when it starts, and
then waits for the lock of each.
-/

set_option autoImplicit false

namespace Codenaut.Services

open Codenaut.Db Codenaut.Relational Codenaut.Transaction

/-- `TokenService`: the keyed digest and the lifetime of refresh tokens. -/
structure TokenService where
  hashOpaqueToken : String → String
  refreshTtlSeconds : Nat

/-- One call. `token` and `newToken` are raw tokens; a sign-in and a rotation
draw the new one. `userStored` is the answer of `session.get(User, …)`. -/
inductive TokenCall where
  | signIn (userId : UserId) (now : Timestamp) (newToken : String)
  | rotate (now : Timestamp) (token : String) (userStored : Bool) (newToken : String)
  | logout (now : Timestamp) (token : String)
  deriving DecidableEq, Repr

/-- What a session inserts, and the rows that a revocation selected. -/
inductive TokenNote where
  | issued (userId : UserId) (tokenHash : String) (expiresAt : Timestamp)
  | rotated (parent : RefreshToken) (tokenHash : String) (expiresAt : Timestamp)
  | revoking (familyId : FamilyId) (tokens : List TokenId)
  deriving DecidableEq, Repr

abbrev TokenScript := Script RefreshToken TokenNote

/-- The family of a token never changes, so that it is part of the key. -/
def tokenKey (token : RefreshToken) : TokenId × FamilyId :=
  (token.id, token.familyId)

/-! ## Columns -/

def revokedToken (now : Timestamp) (reason : String) (token : RefreshToken) : RefreshToken :=
  { token with
    revokedAt := some now
    revocationReason := some reason }

def rotatedToken (now : Timestamp) (token : RefreshToken) : RefreshToken :=
  { revokedToken now "rotated" token with usedAt := some now }

/-- The first token of a new family. -/
def rootToken (table : List RefreshToken) (userId : UserId) (tokenHash : String)
    (expiresAt : Timestamp) : RefreshToken where
  id := freshKey (table.map (·.id))
  familyId := freshKey (table.map (·.familyId))
  userId := userId
  tokenHash := tokenHash
  expiresAt := expiresAt

def childToken (table : List RefreshToken) (parent : RefreshToken) (tokenHash : String)
    (expiresAt : Timestamp) : RefreshToken where
  id := freshKey (table.map (·.id))
  familyId := parent.familyId
  userId := parent.userId
  tokenHash := tokenHash
  parentTokenId := some parent.id
  expiresAt := expiresAt

/-- `refresh_tokens.token_hash` is unique. -/
def insertToken (table : List RefreshToken) (token : RefreshToken) :
    Option (List RefreshToken) :=
  if table.any (·.tokenHash == token.tokenHash) then none else some [token]

def tokenInsertion : Insertion RefreshToken TokenNote
  | table, [.issued userId tokenHash expiresAt] =>
      insertToken table (rootToken table userId tokenHash expiresAt)
  | table, [.rotated parent tokenHash expiresAt] =>
      insertToken table (childToken table parent tokenHash expiresAt)
  | _, _ => some []

/-! ## Calls -/

/-- The writes of a bulk UPDATE on the rows it selected. -/
def revokeTokens (now : Timestamp) (reason : String) (next : TokenScript) :
    List RefreshToken → TokenScript
  | [] => next
  | token :: rest =>
      .flush token (revokedToken now reason) (revokeTokens now reason next rest)

/-- `UPDATE refresh_tokens … WHERE family_id = …` and the commit. -/
def revokeFamily (now : Timestamp) (reason : String) (familyId : FamilyId) : TokenScript :=
  .scan (·.familyId == familyId) fun tokens =>
    .note (.revoking familyId (tokens.map (·.id))) (revokeTokens now reason .commit tokens)

def rotateScript (service : TokenService) (now : Timestamp) (token : String) (userStored : Bool)
    (newToken : String) : TokenScript :=
  .lock (·.tokenHash == service.hashOpaqueToken token) fun
    | none => .rollback
    | some record =>
        if record.usedAt.isSome || record.revokedAt.isSome then
          revokeFamily now "reuse_detected" record.familyId
        else if record.expiresAt ≤ now then
          .flush record (revokedToken now "expired") .commit
        else if !userStored then .rollback
        else
          .flush record (rotatedToken now)
            (.note (.rotated record (service.hashOpaqueToken newToken)
              (now + 1000 * service.refreshTtlSeconds)) .commit)

def logoutScript (service : TokenService) (now : Timestamp) (token : String) : TokenScript :=
  .fetch (·.tokenHash == service.hashOpaqueToken token) fun
    | none => .rollback
    | some record => revokeFamily now "logout" record.familyId

def tokenProgram (service : TokenService) : TokenCall → TokenScript
  | .signIn userId now newToken =>
      .note (.issued userId (service.hashOpaqueToken newToken)
        (now + 1000 * service.refreshTtlSeconds)) .commit
  | .rotate now token userStored newToken => rotateScript service now token userStored newToken
  | .logout now token => logoutScript service now token

abbrev TokenState := State RefreshToken TokenNote TokenCall

/-- Any run whose steps meet a condition, from an empty table. -/
def TokenPath (service : TokenService) (condition : TokenState → Action TokenCall → Prop) :
    TokenState → Prop :=
  State.Path tokenKey tokenInsertion (tokenProgram service) condition { table := [] }

/-- The tokens that the commits of a log rotated, newest first. -/
def rotatedTokens (log : List (Commit RefreshToken TokenNote TokenCall)) : List TokenId :=
  log.flatMap fun commit => commit.notes.filterMap fun
    | .rotated parent _ _ => some parent.id
    | _ => none

/-! ## What a call commits -/

/-- A row that a revocation wrote, or only locked. -/
structure RevokedFrom (base current : RefreshToken) : Prop where
  rest : current = { base with
    revokedAt := current.revokedAt
    revocationReason := current.revocationReason }
  revoked : base.revokedAt.isSome = true → current.revokedAt.isSome = true

inductive TokenCommit : List (Write RefreshToken) → List TokenNote → Prop where
  | issued {userId : UserId} {tokenHash : String} {expiresAt : Timestamp} :
      TokenCommit [] [.issued userId tokenHash expiresAt]
  | expired {token : RefreshToken} {now : Timestamp} :
      TokenCommit [⟨token, revokedToken now "expired" token⟩] []
  | rotated {token : RefreshToken} {now : Timestamp} {tokenHash : String}
      {expiresAt : Timestamp} (active : token.active = true) :
      TokenCommit [⟨token, rotatedToken now token⟩] [.rotated token tokenHash expiresAt]
  | revoked {writes : List (Write RefreshToken)} {familyId : FamilyId} {tokens : List TokenId}
      (kept : ∀ write ∈ writes, RevokedFrom write.base write.current)
      (covered : ∀ id ∈ tokens, ∃ write ∈ writes, write.base.id = id ∧
        write.current.revokedAt.isSome = true) :
      TokenCommit writes [.revoking familyId tokens]

section Safe

theorem tokenInsertion_lawful : Insertion.Lawful tokenKey tokenInsertion := by
  have single : ∀ (table : List RefreshToken) (token : RefreshToken) rows,
      UniqueKey tokenKey table → token.id = freshKey (table.map (·.id)) →
      insertToken table token = some rows → UniqueKey tokenKey (table ++ rows) := by
    intro table token rows unique fresh inserted
    unfold insertToken at inserted
    split at inserted <;> cases inserted
    refine unique.insert fun other member same => ?_
    have known : other.id ∈ table.map (·.id) := List.mem_map_of_mem member
    have equal : other.id = token.id := congrArg Prod.fst same
    exact freshKey_not_mem _ (fresh ▸ equal ▸ known)
  intro table notes rows unique inserted
  unfold tokenInsertion at inserted
  split at inserted
  · exact single table _ rows unique rfl inserted
  · exact single table _ rows unique rfl inserted
  · cases inserted
    simpa using unique

/-- A revoked version of a row is revoked from what the row was based on. -/
theorem RevokedFrom.again {base current : RefreshToken} (from_ : RevokedFrom base current)
    (now : Timestamp) (reason : String) :
    RevokedFrom base (revokedToken now reason current) where
  rest := by
    rw [from_.rest]
    rfl
  revoked := fun _ => rfl

theorem RevokedFrom.refl (token : RefreshToken) : RevokedFrom token token :=
  ⟨rfl, id⟩

/-- Flushing the rows of a family revokes each of them. -/
theorem revokeTokens_safe (now : Timestamp) (reason : String) (familyId : FamilyId)
    (all : List TokenId) (tokens : List RefreshToken) {writes : List (Write RefreshToken)}
    (kept : ∀ write ∈ writes, RevokedFrom write.base write.current)
    (covered : ∀ id ∈ all, id ∈ tokens.map (·.id) ∨ ∃ write ∈ writes, write.base.id = id ∧
      write.current.revokedAt.isSome = true) :
    Safe tokenKey unchecked TokenCommit (revokeTokens now reason .commit tokens) writes
      [.revoking familyId all] := by
  induction tokens generalizing writes with
  | nil => exact .revoked kept fun id member => (covered id member).resolve_left (by simp)
  | cons token rest ih =>
      intro row same seen _
      refine ⟨rfl, ih ?_ ?_⟩
      · intro write member
        rcases mem_put member with ⟨current, place, ⟨old, oldMember, base⟩ | ⟨base, _⟩⟩ | ⟨old, _⟩
        · have held : old.current = row := seen old oldMember (by rw [base, place])
          rw [current, ← base, ← held]
          exact (kept old oldMember).again now reason
        · rw [current, base]
          exact (RevokedFrom.refl row).again now reason
        · exact kept write old
      · intro id member
        rcases covered id member with listed | ⟨write, writeMember, sameId, revoked⟩
        · rcases List.mem_cons.mp listed with here | later
          · obtain ⟨write, writeMember, place, current⟩ :=
              put_current tokenKey writes row (revokedToken now reason row)
            refine .inr ⟨write, writeMember, ?_, by rw [current]; rfl⟩
            have equal := place.trans same
            exact (congrArg Prod.fst equal).trans here.symm
          · exact .inl later
        · obtain ⟨next, nextMember, base, current⟩ :=
            mem_put_of_mem tokenKey row (revokedToken now reason row) writeMember
          refine .inr ⟨next, nextMember, by rw [base, sameId], ?_⟩
          rcases current with written | untouched
          · rw [written]
            rfl
          · rw [untouched]
            exact revoked

theorem revokeFamily_safe (now : Timestamp) (reason : String) (familyId : FamilyId)
    {writes : List (Write RefreshToken)}
    (kept : ∀ write ∈ writes, RevokedFrom write.base write.current) :
    Safe tokenKey unchecked TokenCommit (revokeFamily now reason familyId) writes [] := by
  intro tokens _ _
  exact revokeTokens_safe now reason familyId _ tokens kept fun id member => .inl member

theorem rotateScript_safe (service : TokenService) (now : Timestamp) (token : String)
    (userStored : Bool) (newToken : String) :
    Safe tokenKey unchecked TokenCommit (rotateScript service now token userStored newToken)
      [] [] := by
  refine ⟨trivial, ?_⟩
  intro record _ _
  have locked : ∀ write ∈ Transaction.put tokenKey [] record record,
      RevokedFrom write.base write.current := by
    simp [Transaction.put, RevokedFrom.refl]
  dsimp only
  split
  case isTrue => exact revokeFamily_safe now _ _ locked
  case isFalse fresh =>
      have active : record.active = true := by
        simpa [RefreshToken.active, Option.isSome_iff_ne_none] using fresh
      -- The flushed row is the locked one.
      have held : ∀ row, Seen tokenKey (Transaction.put tokenKey [] record record) row →
          tokenKey row = tokenKey record → row = record := by
        intro row seen same
        exact (seen ⟨record, record⟩ (by simp [Transaction.put]) same.symm).symm
      split
      case isTrue =>
          intro row same seen _
          obtain rfl := held row seen same
          refine ⟨rfl, ?_⟩
          rw [put_locked]
          exact .expired
      case isFalse =>
          split
          case isTrue => trivial
          case isFalse =>
              intro row same seen _
              obtain rfl := held row seen same
              refine ⟨rfl, ?_⟩
              rw [put_locked]
              exact .rotated active

theorem tokenProgram_safe (service : TokenService) :
    SafeProgram tokenKey unchecked (fun _ => TokenCommit) (tokenProgram service) := by
  intro call
  cases call with
  | signIn userId now newToken => exact .issued
  | rotate now token userStored newToken =>
      exact rotateScript_safe service now token userStored newToken
  | logout now token =>
      refine ⟨trivial, ?_⟩
      intro record _ _
      exact revokeFamily_safe now _ _ (by simp)

end Safe

end Codenaut.Services
