import Codenaut.Services.TokenChains

/-!
# Revoked families

A revocation covers the tokens that its UPDATE selected. As long as no rotation
of the family commits between that selection and the end of the revocation, the
family is closed: every token of it stays revoked, and none is rotated again.
-/

set_option autoImplicit false

namespace Codenaut.Services

open Codenaut.Db Codenaut.Relational Codenaut.Transaction

abbrev TokenSession := Session RefreshToken TokenNote TokenCall

/-- The family and the tokens that a revoking UPDATE selected. -/
def TokenNote.selection : TokenNote → Option (FamilyId × List TokenId)
  | .revoking familyId tokens => some (familyId, tokens)
  | _ => none

/-- The session is past the selection of its UPDATE of the family: it has noted
the selection, or notes it next. -/
def Selected (familyId : FamilyId) (session : TokenSession) : Bool :=
  session.notes.any (fun entry => entry.selection.any (·.1 == familyId)) ||
    match session.script with
    | .note entry _ => entry.selection.any (·.1 == familyId)
    | _ => false

def rotatedFamilies (notes : List TokenNote) : List FamilyId :=
  notes.filterMap fun
    | .rotated parent _ _ => some parent.familyId
    | _ => none

/-- The notes rotate a token of the family. -/
def Rotates (notes : List TokenNote) (familyId : FamilyId) : Prop :=
  familyId ∈ rotatedFamilies notes

/-- The notes revoke the family. -/
def Revokes (notes : List TokenNote) (familyId : FamilyId) : Prop :=
  ∃ tokens, TokenNote.revoking familyId tokens ∈ notes

/-- No session at another place is past its selection of the family. -/
def unselected (state : TokenState) (place : Nat) (familyId : FamilyId) : Bool :=
  (List.range state.sessions.length).all fun other =>
    other == place || !(state.sessions[other]?).any (Selected familyId)

/-- No rotation of a family commits while another session is past the
selection of its UPDATE of that family. -/
def unraced (state : TokenState) : Action TokenCall → Bool
  | .step place =>
      match state.sessions[place]? with
      | none => true
      | some session =>
          match session.script with
          | .commit => (rotatedFamilies session.notes).all (unselected state place)
          | _ => true
  | _ => true

theorem selected_of_noted {familyId : FamilyId} {tokens : List TokenId} {session : TokenSession}
    (noted : TokenNote.revoking familyId tokens ∈ session.notes) :
    Selected familyId session = true := by
  unfold Selected
  rw [Bool.or_eq_true, List.any_eq_true]
  exact .inl ⟨_, noted, by simp [TokenNote.selection]⟩

theorem selected_of_noting {familyId : FamilyId} {tokens : List TokenId} {session : TokenSession}
    {next : TokenScript} (noting : session.script = .note (.revoking familyId tokens) next) :
    Selected familyId session = true := by
  simp [Selected, noting, TokenNote.selection]

theorem unraced_step {state : TokenState} {place other : Nat} {session standing : TokenSession}
    {familyId : FamilyId} (condition : unraced state (.step place) = true)
    (located : state.sessions[place]? = some session) (ready : session.script = .commit)
    (rotates : Rotates session.notes familyId) (apart : other ≠ place)
    (stands : state.sessions[other]? = some standing) : Selected familyId standing = false := by
  simp only [unraced, located, ready] at condition
  have alone := List.all_eq_true.mp condition familyId rotates
  have inside : other < state.sessions.length := (List.getElem?_eq_some_iff.mp stands).1
  have free := List.all_eq_true.mp alone other (List.mem_range.mpr inside)
  simpa [apart, stands] using free

/-! ## Scripts that select known families -/

/-- A script selects only families that are known by then, and notes what it
selected at once; `pending` is the selection that it has still to note. No call
updates a token without having loaded it. -/
def Tracked (pending : Option (FamilyId × List TokenId)) (known : FamilyId → Prop) :
    TokenScript → Prop
  | .commit | .rollback => pending = none
  | .fetch _ next | .lock _ next =>
      pending = none ∧ ∀ wider : FamilyId → Prop, (∀ familyId, known familyId → wider familyId) →
        ∀ found : Option RefreshToken, (∀ token, found = some token → wider token.familyId) →
          Tracked none wider (next found)
  | .scan guard next =>
      pending = none ∧ ∃ familyId, known familyId ∧ guard = (·.familyId == familyId) ∧
        ∀ tokens : List RefreshToken,
          Tracked (some (familyId, tokens.map (·.id))) known (next tokens)
  | .update _ _ _ => False
  | .flush _ _ next => pending = none ∧ Tracked none known next
  | .note entry next => entry.selection = pending ∧ Tracked none known next

theorem Tracked.mono {pending : Option (FamilyId × List TokenId)} {known wider : FamilyId → Prop}
    (widen : ∀ familyId, known familyId → wider familyId) {script : TokenScript}
    (tracked : Tracked pending known script) : Tracked pending wider script := by
  induction script generalizing pending with
  | commit | rollback => exact tracked
  | update => exact tracked
  | fetch _ next ih | lock _ next ih =>
      exact ⟨tracked.1, fun widest further =>
        tracked.2 widest fun familyId member => further familyId (widen familyId member)⟩
  | scan guard next ih =>
      obtain ⟨idle, familyId, member, same, rest⟩ := tracked
      exact ⟨idle, familyId, widen familyId member, same, fun tokens => ih tokens (rest tokens)⟩
  | flush _ _ next ih => exact ⟨tracked.1, ih tracked.2⟩
  | note entry next ih => exact ⟨tracked.1, ih tracked.2⟩

/-- A pending selection is noted next. -/
theorem Tracked.noting {familyId : FamilyId} {tokens : List TokenId} {known : FamilyId → Prop}
    {script : TokenScript} (tracked : Tracked (some (familyId, tokens)) known script) :
    ∃ next, script = .note (.revoking familyId tokens) next := by
  cases script with
  | note entry next =>
      have selected := tracked.1
      cases entry with
      | revoking =>
          cases selected
          exact ⟨next, rfl⟩
      | issued | rotated => cases selected
  | commit | rollback | update => cases tracked
  | fetch | lock | scan | flush => cases tracked.1

theorem revokeFamily_tracked {known : FamilyId → Prop} (now : Timestamp) (reason : String)
    {familyId : FamilyId} (member : known familyId) :
    Tracked none known (revokeFamily now reason familyId) := by
  have flushed : ∀ tokens, Tracked none known (revokeTokens now reason .commit tokens) := by
    intro tokens
    induction tokens with
    | nil => rfl
    | cons token rest ih => exact ⟨rfl, ih⟩
  exact ⟨rfl, familyId, member, rfl, fun tokens => ⟨rfl, flushed tokens⟩⟩

theorem tokenProgram_tracked (service : TokenService) (known : FamilyId → Prop)
    (call : TokenCall) : Tracked none known (tokenProgram service call) := by
  cases call with
  | signIn userId now newToken => exact ⟨rfl, rfl⟩
  | rotate now token userStored newToken =>
      refine ⟨rfl, fun wider _ found member => ?_⟩
      cases found with
      | none => rfl
      | some record =>
          dsimp only
          split
          · exact revokeFamily_tracked now _ (member record rfl)
          · split
            · exact ⟨rfl, rfl⟩
            · split
              · rfl
              · exact ⟨rfl, rfl, rfl⟩
  | logout now token =>
      refine ⟨rfl, fun wider _ found member => ?_⟩
      cases found with
      | none => rfl
      | some record => exact revokeFamily_tracked now _ (member record rfl)

/-! ## Open sessions -/

/-- The selection holds every stored token of its family. -/
def Covers (table : List RefreshToken) (familyId : FamilyId) (tokens : List TokenId) : Prop :=
  familyId ∈ table.map (·.familyId) ∧
    ∀ token ∈ table, token.familyId = familyId → token.id ∈ tokens

/-- What a session selected, or is about to note, covers the family. -/
structure Covering (table : List RefreshToken) (session : TokenSession) : Prop where
  tracked : ∃ pending, Tracked pending (· ∈ table.map (·.familyId)) session.script ∧
    ∀ familyId tokens, pending = some (familyId, tokens) → Covers table familyId tokens
  noted : ∀ familyId tokens, TokenNote.revoking familyId tokens ∈ session.notes →
    Covers table familyId tokens

section Sessions

variable {table : List RefreshToken} {session next : TokenSession}

/-- A session that has nothing to note. -/
theorem Covering.idle (tracked : Tracked none (· ∈ table.map (·.familyId)) session.script)
    (noted : ∀ familyId tokens, TokenNote.revoking familyId tokens ∈ session.notes →
      Covers table familyId tokens) : Covering table session :=
  ⟨⟨none, tracked, nofun⟩, noted⟩

/-- The family of a row that a session sees is known. -/
theorem family_of_view {writes : List (Write RefreshToken)} (keyed : Keyed tokenKey writes)
    {row : RefreshToken} (member : row ∈ table.map (own tokenKey writes)) :
    row.familyId ∈ table.map (·.familyId) := by
  obtain ⟨stored, storedIn, rfl⟩ := List.mem_map.mp member
  have same := congrArg Prod.snd (key_own keyed stored)
  exact List.mem_map.mpr ⟨stored, storedIn, same.symm⟩

theorem Covering.executes {Final : TokenCall → List (Write RefreshToken) → List TokenNote → Prop}
    (ok : SessionOk tokenKey unchecked Final table session) (covering : Covering table session)
    (executes : Executes tokenKey table session next) : Covering table next := by
  obtain ⟨pending, tracked, covers⟩ := covering.tracked
  have noted := covering.noted
  have visible : ∀ guard row, (table.map (own tokenKey session.writes)).find? guard = some row →
      row.familyId ∈ table.map (·.familyId) := fun guard row found =>
    family_of_view ok.keyed (List.mem_of_find?_eq_some found)
  cases executes with
  | fetch script =>
      rw [script] at tracked
      exact .idle (tracked.2 _ (fun _ member => member) _ fun row found => visible _ row found) noted
  | scan script =>
      rw [script] at tracked
      obtain ⟨_, familyId, known, rfl, rest⟩ := tracked
      refine ⟨⟨_, rest _, ?_⟩, noted⟩
      rintro _ _ ⟨⟩
      refine ⟨known, fun token member family => List.mem_map.mpr ?_⟩
      have same := key_own ok.keyed token
      refine ⟨own tokenKey session.writes token, List.mem_filter.mpr
        ⟨List.mem_map_of_mem member, ?_⟩, congrArg Prod.fst same⟩
      have sameFamily : (own tokenKey session.writes token).familyId = familyId :=
        (congrArg Prod.snd same).trans family
      simpa using sameFamily
  | lockNone script =>
      rw [script] at tracked
      refine .idle (tracked.2 _ (fun _ member => member) none ?_) noted
      rintro _ ⟨⟩
  | lock script found =>
      rw [script] at tracked
      refine .idle (tracked.2 _ (fun _ member => member) (some _) ?_) noted
      rintro _ ⟨⟩
      exact visible _ _ found
  | updateNone script | update script =>
      rw [script] at tracked
      exact tracked.elim
  | flushNone => exact .idle rfl noted
  | flush script =>
      rw [script] at tracked
      exact .idle tracked.2 noted
  | note script =>
      rw [script] at tracked
      refine .idle tracked.2 fun familyId tokens member => ?_
      rcases List.mem_cons.mp member with here | earlier
      · subst here
        exact covers familyId tokens tracked.1.symm
      · exact noted familyId tokens earlier

end Sessions

/-! ## Commits -/

/-- An inserted token starts a family or is the child of a rotation. -/
theorem inserted_family {table rows : List RefreshToken} {notes : List TokenNote}
    (inserted : tokenInsertion table notes = some rows) :
    ∀ token ∈ rows, token.familyId ∉ table.map (·.familyId) ∨ Rotates notes token.familyId := by
  intro token member
  unfold tokenInsertion at inserted
  split at inserted
  case h_1 userId tokenHash expiresAt =>
      rw [insertToken_some inserted] at member
      rw [List.mem_singleton.mp member]
      exact .inl (freshKey_not_mem _)
  case h_2 parent tokenHash expiresAt =>
      rw [insertToken_some inserted] at member
      rw [List.mem_singleton.mp member]
      exact .inr (.head _)
  case h_3 =>
      cases inserted
      cases member

/-- One commit of a call. -/
abbrev TokenCommits :=
  Commits tokenKey tokenInsertion (fun (_ : TokenCall) => TokenCommit)

/-- The states whose sessions hold their locks and follow their scripts. -/
abbrev TokenStateOk (state : TokenState) : Prop :=
  StateOk tokenKey unchecked (fun _ => TokenCommit) state

section Commits

variable {before after : TokenState} {place : Nat} {session : TokenSession}
  {rows : List RefreshToken}

/-- A stored token after a commit is the successor of one, or was inserted. -/
theorem TokenCommits.token_cases
    (commits : TokenCommits before after place session rows) (ok : TokenStateOk before)
    {token : RefreshToken} (member : token ∈ after.table) :
    (∃ stored ∈ before.table, TokenStep stored token ∧
        token = own tokenKey session.writes stored) ∨
      token.familyId ∉ before.table.map (·.familyId) ∨
        Rotates session.notes token.familyId := by
  have steps := commits.final.steps ok.unique commits.written
  rw [commits.table] at member
  rcases List.mem_append.mp member with old | new
  · obtain ⟨stored, storedIn, rfl⟩ := List.mem_map.mp old
    exact .inl ⟨stored, storedIn, steps stored storedIn, rfl⟩
  · refine .inr ((inserted_family commits.inserted token new).imp_left ?_)
    intro absent known
    obtain ⟨stored, storedIn, family⟩ := List.mem_map.mp known
    refine absent (List.mem_map.mpr ⟨_, List.mem_map_of_mem storedIn, ?_⟩)
    exact (steps stored storedIn).familyId.trans family

theorem TokenCommits.family_kept
    (commits : TokenCommits before after place session rows) (ok : TokenStateOk before)
    {familyId : FamilyId} (known : familyId ∈ before.table.map (·.familyId)) :
    familyId ∈ after.table.map (·.familyId) := by
  obtain ⟨stored, storedIn, family⟩ := List.mem_map.mp known
  have step := commits.final.steps ok.unique commits.written stored storedIn
  rw [commits.table]
  exact List.mem_map.mpr ⟨_, List.mem_append_left _ (List.mem_map_of_mem storedIn),
    step.familyId.trans family⟩

theorem Covers.committed
    (commits : TokenCommits before after place session rows) (ok : TokenStateOk before)
    {familyId : FamilyId} {tokens : List TokenId} (covers : Covers before.table familyId tokens)
    (unrotated : ¬ Rotates session.notes familyId) : Covers after.table familyId tokens := by
  refine ⟨commits.family_kept ok covers.1, fun token member family => ?_⟩
  rcases commits.token_cases ok member with ⟨stored, storedIn, step, _⟩ | unknown | rotated
  · rw [step.id]
    exact covers.2 stored storedIn (step.familyId.symm.trans family)
  · exact (unknown (family ▸ covers.1)).elim
  · exact (unrotated (family ▸ rotated)).elim

end Commits

theorem TokenPath.covering {service : TokenService} {state : TokenState}
    (path : TokenPath service (fun state action => unraced state action = true) state) :
    TokenStateOk state ∧ ∀ session ∈ state.sessions, Covering state.table session := by
  have unique : UniqueKey tokenKey ([] : List RefreshToken) := .nil
  refine State.Path.sessions_rule tokenInsertion_lawful (tokenProgram_safe service)
    (.ofTable unique) (fun table _ session => Covering table session) (by simp) ?_ ?_ ?_ ?_ path
  · intro table _ call
    exact .idle (tokenProgram_tracked service _ call) (by simp)
  · intro table _ session
    exact .idle rfl (by simp [State.finished])
  · intro before place session next ok _ located covering executes
    exact covering.executes (ok.sessions session (List.mem_of_getElem? located)) executes
  · intro before after place session rows ok condition commits other standing apart located held
    have unrotated : ∀ familyId, Selected familyId standing = true →
        ¬ Rotates session.notes familyId := by
      intro familyId selected rotates
      have free := unraced_step condition commits.located commits.ready rotates apart located
      simp [selected] at free
    obtain ⟨pending, tracked, covers⟩ := held.tracked
    refine ⟨⟨pending, tracked.mono fun _ known => TokenCommits.family_kept commits ok known, ?_⟩, ?_⟩
    · rintro familyId tokens rfl
      have noting := tracked.noting
      exact (covers familyId tokens rfl).committed commits ok
        (unrotated familyId (noting.elim fun _ script => selected_of_noting script))
    · intro familyId tokens member
      exact (held.noted familyId tokens member).committed commits ok
        (unrotated familyId (selected_of_noted member))

/-! ## Closed families -/

/-- Every token of the family is revoked. -/
def Closed (table : List RefreshToken) (familyId : FamilyId) : Prop :=
  familyId ∈ table.map (·.familyId) ∧
    ∀ token ∈ table, token.familyId = familyId → token.revokedAt.isSome = true

section Closing

variable {before after : TokenState} {place : Nat} {session : TokenSession}
  {rows : List RefreshToken} {familyId : FamilyId}

/-- A rotation commits an active token of its family. -/
theorem TokenCommit.rotates {writes : List (Write RefreshToken)} {notes : List TokenNote}
    (commit : TokenCommit writes notes) (rotates : Rotates notes familyId) :
    ∃ write ∈ writes, write.base.familyId = familyId ∧ write.base.active = true := by
  cases commit with
  | rotated active =>
      have same := List.mem_singleton.mp rotates
      exact ⟨_, .head _, same.symm, active⟩
  | issued | expired | revoked => simp [Rotates, rotatedFamilies] at rotates

theorem Closed.unrotated (closed : Closed before.table familyId)
    (commits : TokenCommits before after place session rows) : ¬ Rotates session.notes familyId := by
  intro rotates
  obtain ⟨write, member, family, active⟩ := commits.final.rotates rotates
  have revoked := closed.2 write.base (commits.written.based write member) family
  simp [(RefreshToken.unused_of_active active).2] at revoked

theorem Closed.committed (closed : Closed before.table familyId)
    (commits : TokenCommits before after place session rows) (ok : TokenStateOk before) :
    Closed after.table familyId := by
  refine ⟨commits.family_kept ok closed.1, fun token member family => ?_⟩
  rcases commits.token_cases ok member with ⟨stored, storedIn, step, _⟩ | unknown | rotated
  · exact step.revoked (closed.2 stored storedIn (step.familyId.symm.trans family))
  · exact (unknown (family ▸ closed.1)).elim
  · exact (closed.unrotated commits (family ▸ rotated)).elim

/-- A revocation that covers its family closes it. -/
theorem Closed.revoked
    (commits : TokenCommits before after place session rows) (ok : TokenStateOk before)
    (ids : UniqueKey (·.id) before.table) {tokens : List TokenId}
    (covers : Covers before.table familyId tokens)
    (noted : TokenNote.revoking familyId tokens ∈ session.notes) :
    Closed after.table familyId := by
  have final := commits.final
  have written := commits.written
  refine ⟨commits.family_kept ok covers.1, fun token member family => ?_⟩
  have covered : ∀ id ∈ tokens, ∃ write ∈ session.writes, write.base.id = id ∧
      write.current.revokedAt.isSome = true := by
    generalize session.writes = writes at final
    generalize session.notes = notes at final noted
    cases final with
    | revoked _ covered =>
        cases List.mem_singleton.mp noted
        exact covered
    | issued | expired | rotated => simp at noted
  have unrotated : ¬ Rotates session.notes familyId := by
    generalize session.writes = writes at final
    generalize session.notes = notes at final noted
    intro rotates
    cases final with
    | revoked => simp [Rotates, rotatedFamilies] at rotates
    | issued | expired | rotated => simp at noted
  rcases commits.token_cases ok member with ⟨stored, storedIn, step, rfl⟩ | unknown | rotated
  · have selected := covers.2 stored storedIn (step.familyId.symm.trans family)
    obtain ⟨write, writeMember, same, revoked⟩ := covered stored.id selected
    have equal := ids.row_eq (written.based write writeMember) storedIn same
    rw [own_of_mem written.distinct writeMember (congrArg tokenKey equal)]
    exact revoked
  · exact (unknown (family ▸ covers.1)).elim
  · exact (unrotated (family ▸ rotated)).elim

end Closing

/-- No family is rotated after a commit that revoked it. -/
def RevocationComplete (state : TokenState) : Prop :=
  state.log.Pairwise fun later earlier => ∀ familyId, Revokes earlier.notes familyId →
    ¬ Rotates later.notes familyId

/-- In every run without such a race, a family that a logout or a reuse
detection revoked is never rotated again. -/
theorem unraced_revocation_complete {service : TokenService} {state : TokenState}
    (path : TokenPath service (fun state action => unraced state action = true) state) :
    RevocationComplete state := by
  have whole : (∀ commit ∈ state.log, ∀ familyId, Revokes commit.notes familyId →
      Closed state.table familyId) ∧ RevocationComplete state := by
    induction path with
    | refl => exact ⟨by simp, .nil⟩
    | tail prior moves ih =>
        obtain ⟨action, _, rfl⟩ := moves
        obtain ⟨closed, complete⟩ := ih
        obtain ⟨ok, covering⟩ := TokenPath.covering prior
        rcases ok.advance_cases action with ⟨table, log⟩ | ⟨place, session, rows, _, commits⟩
        · unfold RevocationComplete
          rw [table, log]
          exact ⟨closed, complete⟩
        · have held := covering session (List.mem_of_getElem? commits.located)
          unfold RevocationComplete
          rw [commits.log]
          refine ⟨?_, .cons ?_ complete⟩
          · intro commit member familyId revokes
            rcases List.mem_cons.mp member with rfl | earlier
            · obtain ⟨tokens, noted⟩ := revokes
              exact .revoked commits ok (TokenPath.chained prior).ids
                (held.noted familyId tokens noted) noted
            · exact (closed commit earlier familyId revokes).committed commits ok
          · intro earlier member familyId revokes
            exact (closed earlier member familyId revokes).unrotated commits
  exact whole.2

namespace Rotation

/-- A logout's UPDATE selects the first token while a rotation holds its lock;
the child that the rotation inserts is not revoked, and is rotated later. -/
def racing : List (Action TokenCall) :=
  [.start (.signIn 1 0 "first"), .step 0, .step 0,
    .start (.rotate 1 "first" true "second"), .start (.logout 2 "first"),
    .step 1, .step 1, .step 2, .step 2, .step 2, .step 1, .step 1, .step 2, .step 2,
    .start (.rotate 3 "second" true "third"), .step 3, .step 3, .step 3, .step 3]

/-- The same calls, one after the other, and a replay. -/
def serial : List (Action TokenCall) :=
  [.start (.signIn 1 0 "first"), .step 0, .step 0,
    .start (.rotate 1 "first" true "second"), .step 1, .step 1, .step 1, .step 1,
    .start (.logout 2 "first"), .step 2, .step 2, .step 2, .step 2, .step 2, .step 2,
    .start (.rotate 3 "second" true "third"), .step 3, .step 3, .step 3, .step 3, .step 3, .step 3]

def after (actions : List (Action TokenCall)) : TokenState :=
  State.advances tokenKey tokenInsertion { table := [] } (tokenProgram service) actions

end Rotation

open Rotation

/-- A token of a family that a logout revoked is rotated afterwards. -/
theorem raced_revocation_incomplete :
    rotatedTokens (after racing).log = [2, 1] ∧ ¬ RevocationComplete (after racing) := by
  refine ⟨by decide, fun complete => ?_⟩
  have revoked : ∃ later earlier rest, (after racing).log = later :: earlier :: rest ∧
      rotatedFamilies later.notes = [1] ∧ earlier.notes = [.revoking 1 [1]] :=
    ⟨_, _, _, rfl, by decide, by decide⟩
  obtain ⟨later, earlier, rest, log, rotated, notes⟩ := revoked
  unfold RevocationComplete at complete
  rw [log] at complete
  refine List.rel_of_pairwise_cons complete (.head _) 1 ⟨[1], ?_⟩ ?_
  · simp [notes]
  · simp [Rotates, rotated]

theorem serial_revocation_complete :
    rotatedTokens (after serial).log = [1] ∧ (after serial).log.length = 4 ∧
      RevocationComplete (after serial) := by
  refine ⟨by decide, by decide, ?_⟩
  exact unraced_revocation_complete (State.path_advances (by decide))

end Codenaut.Services
