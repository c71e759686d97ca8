import Codenaut.Services.OAuthStates

/-!
# Single use of OAuth states

A row is used exactly if one callback consumed it. The commit that consumes it
finds the locked row unused and every check satisfied; a callback that no
stored row satisfies changes nothing.
-/

set_option autoImplicit false

namespace Codenaut.Services

open Codenaut.Db Codenaut.Relational Codenaut.Transaction

/-- The used rows are the ones that the log consumed, each once. -/
structure UsedOnce (table : List OAuthState)
    (log : List (Commit OAuthState OAuthNote OAuthCall)) : Prop where
  used : ∀ row ∈ table, row.usedAt.isSome = true ↔ row.id ∈ consumedStates log
  stored : ∀ id ∈ consumedStates log, id ∈ table.map (·.id)
  once : (consumedStates log).Nodup

abbrev OAuthCommits (service : OAuthService) :=
  Commits stateKey stateInsertion (OAuthCommit service)

abbrev OAuthStateOk (service : OAuthService) (state : OAuthStates) : Prop :=
  StateOk stateKey unchecked (OAuthCommit service) state

/-- What one step of a session may do to the table. -/
inductive OAuthMove (service : OAuthService) (before after : OAuthStates) : OAuthCall → Prop where
  | started {provider : AuthProvider} {linkingUserId : Option UserId} {userStored : Bool}
      {now : Timestamp} {state codeVerifier nonce : String}
      (allowed : linkingUserId.isSome = true → userStored = true)
      (table : after.table = before.table ++
        [(startedState service provider linkingUserId now state codeVerifier nonce).row
          (freshKey (before.table.map (·.id)))])
      (consumed : consumedRows after.log = consumedRows before.log) :
      OAuthMove service before after
        (.start provider linkingUserId userStored now state codeVerifier nonce)
  | consumed {call : OAuthCall} {request : ConsumeRequest} {row : OAuthState}
      (requested : call.request = some request) (stored : row ∈ before.table)
      (accepts : Accepts service request row)
      (table : after.table = before.table.map fun other =>
        if other.id = row.id then consumedState request.now other else other)
      (consumed : consumedRows after.log = row :: consumedRows before.log) :
      OAuthMove service before after call

section Moves

variable {service : OAuthService} {before after : OAuthStates} {place : Nat}
  {session : Session OAuthState OAuthNote OAuthCall} {rows : List OAuthState}

theorem consumedRows_cons (commit : Commit OAuthState OAuthNote OAuthCall)
    (log : List (Commit OAuthState OAuthNote OAuthCall)) :
    consumedRows (commit :: log) = consumedRows [commit] ++ consumedRows log := by
  simp [consumedRows]

theorem OAuthCommits.move (commits : OAuthCommits service before after place session rows)
    (ok : OAuthStateOk service before) : OAuthMove service before after session.label := by
  have table := commits.table
  have log := commits.log
  have written := commits.written
  have inserted := commits.inserted
  have final := commits.final
  generalize session.label = call at *
  generalize session.writes = writes at *
  generalize session.notes = notes at *
  cases final with
  | started allowed =>
      refine .started allowed ?_ ?_
      · rw [map_own_nil] at table inserted
        rw [table, insertState_some inserted]
      · rw [log, consumedRows_cons]
        rfl
  | @consumed _ request row requested accepts =>
      have stored : row ∈ before.table := written.based ⟨row, _⟩ (.head _)
      refine .consumed requested stored accepts ?_ ?_
      · cases inserted
        rw [table, List.append_nil]
        refine List.map_congr_left fun other member => ?_
        split
        case isTrue same =>
            obtain rfl := ok.unique.row_eq member stored same
            exact own_of_mem written.distinct (.head _) rfl
        case isFalse apart =>
            refine own_of_unlocked fun write only => ?_
            rw [List.mem_singleton.mp only]
            exact fun same => apart same.symm
      · rw [log, consumedRows_cons]
        rfl

theorem UsedOnce.moved {call : OAuthCall} (held : UsedOnce before.table before.log)
    (move : OAuthMove service before after call) :
    UsedOnce after.table after.log := by
  cases move with
  | started allowed table rows =>
      have consumed : consumedStates after.log = consumedStates before.log := by
        rw [consumedStates, rows, consumedStates]
      have fresh : freshKey (before.table.map (·.id)) ∉ consumedStates before.log :=
        fun logged => freshKey_not_mem _ (held.stored _ logged)
      rw [table]
      refine ⟨?_, ?_, consumed ▸ held.once⟩
      · intro row member
        rw [consumed]
        rcases List.mem_append.mp member with old | new
        · exact held.used row old
        · rw [List.mem_singleton.mp new]
          simpa [NewOAuthState.row] using fresh
      · intro id logged
        rw [consumed] at logged
        exact List.map_append ▸ List.mem_append_left _ (held.stored id logged)
  | @consumed _ request row requested stored accepts table rows =>
      have consumed : consumedStates after.log = row.id :: consumedStates before.log := by
        rw [consumedStates, rows, List.map_cons, consumedStates]
      have unlogged : row.id ∉ consumedStates before.log := by
        rw [← held.used row stored, accepts.unused]
        simp
      rw [table]
      refine ⟨?_, ?_, ?_⟩
      · intro _ member
        obtain ⟨other, otherIn, rfl⟩ := List.mem_map.mp member
        rw [consumed]
        split
        case isTrue same => simp [consumedState, same]
        case isFalse apart => simpa [apart] using held.used other otherIn
      · intro id logged
        have ids : (before.table.map fun other =>
            if other.id = row.id then consumedState request.now other else other).map (·.id) =
              before.table.map (·.id) := by
          rw [List.map_map]
          refine List.map_congr_left fun other _ => ?_
          simp only [Function.comp_apply]
          split <;> rfl
        rw [ids]
        rw [consumed] at logged
        rcases List.mem_cons.mp logged with rfl | earlier
        · exact List.mem_map_of_mem stored
        · exact held.stored id earlier
      · rw [consumed]
        exact List.nodup_cons.mpr ⟨unlogged, held.once⟩

end Moves

/-! ## Runs -/

/-- A step changes nothing, or it is a start or the one use of a row. -/
structure SingleUse (service : OAuthService) (state : OAuthStates) : Prop where
  used : ∀ row ∈ state.table, row.usedAt.isSome = true ↔ row.id ∈ consumedStates state.log
  once : (consumedStates state.log).Nodup
  moves : ∀ action,
    let after := state.advance stateKey stateInsertion (oauthProgram service) action
    (after.table = state.table ∧ after.log = state.log) ∨
      ∃ place session, action = .step place ∧ state.sessions[place]? = some session ∧
        OAuthMove service state after session.label
  refused : ∀ place session, state.sessions[place]? = some session →
    session.label.starts = false →
    (∀ request row, session.label.request = some request → row ∈ state.table →
      ¬ Accepts service request row) →
    let after := state.advance stateKey stateInsertion (oauthProgram service) (.step place)
    after.table = state.table ∧ after.log = state.log

theorem oauth_states_single_use {service : OAuthService} {state : OAuthStates}
    (path : OAuthPath service state) : SingleUse service state := by
  have unique : UniqueKey stateKey ([] : List OAuthState) := .nil
  have ok : OAuthStateOk service state :=
    State.Path.ok stateInsertion_lawful (oauthProgram_safe service) (.ofTable unique) path
  have held : UsedOnce state.table state.log := by
    have start : UsedOnce [] [] := ⟨by simp, by simp [consumedStates, consumedRows], .nil⟩
    refine State.Path.rule stateInsertion_lawful (oauthProgram_safe service) (.ofTable unique)
      UsedOnce start ?_ path
    intro before after place session rows ok held commits
    exact held.moved (OAuthCommits.move commits ok)
  have moves : ∀ action,
      let after := state.advance stateKey stateInsertion (oauthProgram service) action
      (after.table = state.table ∧ after.log = state.log) ∨
        ∃ place session, action = .step place ∧ state.sessions[place]? = some session ∧
          OAuthMove service state after session.label := by
    intro action
    refine (ok.advance_cases action).imp_right ?_
    rintro ⟨place, session, rows, rfl, commits⟩
    exact ⟨place, session, rfl, commits.located, OAuthCommits.move commits ok⟩
  refine ⟨held.used, held.once, moves, ?_⟩
  intro place session located callback rejected
  rcases moves (.step place) with unchanged | ⟨_, moving, ⟨⟩, same, move⟩
  · exact unchanged
  · obtain rfl := Option.some.inj (same.symm.trans located)
    generalize moving.label = call at callback rejected move
    cases move with
    | started => cases callback
    | consumed requested stored accepts => exact (rejected _ _ requested stored accepts).elim

namespace SignIn

/-- Digests are marked, and a state lives for one second. -/
def service : OAuthService where
  hashOpaqueToken := fun raw => "digest of " ++ raw
  stateTtlSeconds := 1

def callback (nonce : String) : OAuthCall :=
  .googleCallback 500 "state" (some "verifier") (some nonce)

/-- A callback with another nonce, and two that race for the row. -/
def actions : List (Action OAuthCall) :=
  [.start (.start .google none false 0 "state" "verifier" "nonce"), .step 0, .step 0,
    .start (callback "other"), .step 1, .step 1,
    .start (callback "nonce"), .start (callback "nonce"),
    .step 2, .step 3, .step 2, .step 2, .step 2, .step 3, .step 3]

def reached : OAuthStates :=
  State.advances stateKey stateInsertion { table := [] } (oauthProgram service) actions

end SignIn

open SignIn in
theorem raced_state_used_once :
    reached.table.map (fun row => (row.id, row.usedAt)) = [(1, some 500)] ∧
    consumedStates reached.log = [1] ∧ SingleUse service reached := by
  refine ⟨by decide, by decide, ?_⟩
  exact oauth_states_single_use (State.path_run _ actions)

end Codenaut.Services
