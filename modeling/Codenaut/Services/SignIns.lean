import Codenaut.Services.IdentitiesProperties
import Codenaut.Services.OAuthStatesProperties

/-!
# Sign-ins and links

The two transactions of a callback, over every interleaving: the first consumes
an OAuth state, and the second resolves the provider's answer for the user that
the consumed row intends. A link is a start by a stored user.
-/

set_option autoImplicit false

namespace Codenaut.Services

open Codenaut.Db Codenaut.Relational Codenaut.Transaction

/-- `finished` are the consumed states whose callback has ended. -/
structure SignIns where
  oauth : OAuthStates := { table := [] }
  accounts : Accounts
  finished : List OAuthStateId := []

inductive SignInAction where
  | oauth (action : Action OAuthCall)
  | complete (id : OAuthStateId) (now : Timestamp) (answer : ProviderAnswer)

namespace SignIns

variable (service : OAuthService) (state : SignIns)

/-- A start reads whether the linking user is stored. -/
def observe : Action OAuthCall → Action OAuthCall
  | .start (.start provider linkingUserId _ now raw codeVerifier nonce) =>
      .start (.start provider linkingUserId (linkingUserId.any state.accounts.stored) now raw
        codeVerifier nonce)
  | action => action

/-- A consumed row whose callback has not ended. -/
def callback? (id : OAuthStateId) : Option OAuthState :=
  if state.finished.contains id then none
  else (consumedRows state.oauth.log).find? (·.id == id)

/-- The consumed row of a callback, and what its second transaction returns. -/
def completion? (id : OAuthStateId) (now : Timestamp) (answer : ProviderAnswer) :
    Option (OAuthState × Except SignInError (UserId × Accounts)) :=
  match state.callback? id with
  | none => none
  | some row =>
      if row.provider != answer.provider then none
      else some (row, state.accounts.signIn now row.intendedUserId answer)

def step : SignInAction → SignIns
  | .oauth action =>
      { state with
        oauth := state.oauth.advance stateKey stateInsertion (oauthProgram service)
          (state.observe action) }
  | .complete id now answer =>
      match state.completion? id now answer with
      | none => state
      | some (_, .error _) => { state with finished := id :: state.finished }
      | some (_, .ok (_, accounts)) => { state with accounts, finished := id :: state.finished }

def run (actions : List SignInAction) : SignIns :=
  actions.foldl (step service) state

end SignIns

def SignInReaches (service : OAuthService) : SignIns → SignIns → Prop :=
  Relation.ReflTransGen fun before after => ∃ action, after = before.step service action

theorem signIn_reaches_run (service : OAuthService) (state : SignIns)
    (actions : List SignInAction) : SignInReaches service state (state.run service actions) := by
  induction actions generalizing state with
  | nil => exact .refl
  | cons action rest ih => exact .head ⟨action, rfl⟩ (ih _)

/-! ## Intended users -/

/-- The user of a link start that the database confirmed. -/
def OAuthCall.linking : OAuthCall → Option UserId
  | .start _ linkingUserId true _ _ _ _ => linkingUserId
  | _ => none

/-- Every user that a link intends is stored. -/
structure Intended (service : OAuthService) (state : SignIns) : Prop where
  ok : OAuthStateOk service state.oauth
  calls : ∀ call ∈ state.oauth.sessions.map (·.label), ∀ userId, call.linking = some userId →
    state.accounts.stored userId = true
  rows : ∀ row ∈ state.oauth.table, ∀ userId, row.intendedUserId = some userId →
    state.accounts.stored userId = true
  consumed : ∀ row ∈ consumedRows state.oauth.log, ∀ userId, row.intendedUserId = some userId →
    state.accounts.stored userId = true

section Steps

variable {service : OAuthService} {state : SignIns}

theorem SignIns.observe_linking {action : Action OAuthCall} {call : OAuthCall}
    (starts : state.observe action = .start call) {userId : UserId}
    (linking : call.linking = some userId) : state.accounts.stored userId = true := by
  unfold observe at starts
  split at starts
  case h_1 provider linkingUserId _ now raw codeVerifier nonce =>
      obtain rfl := Action.start.inj starts
      unfold OAuthCall.linking at linking
      split at linking
      case h_1 same =>
          obtain ⟨rfl, rfl, stored, _⟩ := OAuthCall.start.inj same
          simpa [linking] using stored
      case h_2 => cases linking
  case h_2 other =>
      subst starts
      cases call with
      | start => exact (other _ _ _ _ _ _ _ rfl).elim
      | githubCallback | googleCallback => cases linking

theorem Intended.oauth (held : Intended service state) (action : Action OAuthCall) :
    Intended service (state.step service (.oauth action)) := by
  have ok := held.ok.advance stateInsertion_lawful (oauthProgram_safe service)
    (state.observe action)
  have calls : ∀ call ∈ (state.step service (.oauth action)).oauth.sessions.map (·.label),
      ∀ userId, call.linking = some userId → state.accounts.stored userId = true := by
    intro call member userId linking
    rcases State.label_of_advance member with earlier | starts
    · exact held.calls call earlier userId linking
    · exact SignIns.observe_linking starts linking
  have outcome : ((state.step service (.oauth action)).oauth.table = state.oauth.table ∧
      (state.step service (.oauth action)).oauth.log = state.oauth.log) ∨
      ∃ place session rows, state.observe action = .step place ∧
        OAuthCommits service state.oauth (state.step service (.oauth action)).oauth place session
          rows := held.ok.advance_cases (state.observe action)
  rcases outcome with ⟨table, log⟩ | ⟨place, session, inserted, _, commits⟩
  · exact ⟨ok, calls, table ▸ held.rows, log ▸ held.consumed⟩
  · have label : session.label ∈ state.oauth.sessions.map (·.label) :=
      List.mem_map_of_mem (List.mem_of_getElem? commits.located)
    have move := OAuthCommits.move commits held.ok
    have linked := held.calls session.label label
    generalize session.label = call at linked move
    cases move with
    | started allowed table consumed =>
        refine ⟨ok, calls, ?_, consumed ▸ held.consumed⟩
        rw [table]
        intro row member userId intends
        rcases List.mem_append.mp member with old | new
        · exact held.rows row old userId intends
        · rw [List.mem_singleton.mp new] at intends
          refine linked userId ?_
          rw [allowed (Option.isSome_of_eq_some intends)]
          exact intends
    | consumed requested stored accepts table consumed =>
        refine ⟨ok, calls, ?_, ?_⟩
        · rw [table]
          intro row member userId intends
          obtain ⟨other, otherIn, rfl⟩ := List.mem_map.mp member
          refine held.rows other otherIn userId ?_
          split at intends <;> exact intends
        · rw [consumed]
          intro row member
          rcases List.mem_cons.mp member with rfl | earlier
          · exact held.rows row stored
          · exact held.consumed row earlier

theorem SignIns.completion_some {id : OAuthStateId} {now : Timestamp} {answer : ProviderAnswer}
    {row : OAuthState} {result : Except SignInError (UserId × Accounts)}
    (completes : state.completion? id now answer = some (row, result)) :
    row ∈ consumedRows state.oauth.log ∧
      state.accounts.signIn now row.intendedUserId answer = result := by
  unfold completion? at completes
  split at completes
  case h_1 => cases completes
  case h_2 other found =>
      split at completes <;> cases completes
      refine ⟨?_, rfl⟩
      unfold callback? at found
      split at found
      · cases found
      · exact List.mem_of_find?_eq_some found

theorem Intended.step (held : Intended service state) (action : SignInAction) :
    Intended service (state.step service action) := by
  cases action with
  | oauth action => exact held.oauth action
  | complete id now answer =>
      simp only [SignIns.step]
      split
      case h_1 => exact held
      case h_2 => exact ⟨held.ok, held.calls, held.rows, held.consumed⟩
      case h_3 row userId accounts completes =>
          have result := (SignIns.completion_some completes).2
          have kept : ∀ other, state.accounts.stored other = true →
              accounts.stored other = true := fun _ => Accounts.signIn_stored result
          exact ⟨held.ok,
            fun call member other linking => kept other (held.calls call member other linking),
            fun row member other intends => kept other (held.rows row member other intends),
            fun row member other intends => kept other (held.consumed row member other intends)⟩

/-- A mapped subject keeps its user. -/
theorem SignIns.step_userOf (action : SignInAction) {provider : AuthProvider} {subject : String}
    {userId : UserId} (mapped : state.accounts.userOf provider subject = some userId) :
    (state.step service action).accounts.userOf provider subject = some userId := by
  cases action with
  | oauth action => exact mapped
  | complete id now answer =>
      simp only [SignIns.step]
      split
      case h_1 | h_2 => exact mapped
      case h_3 row returned accounts completes =>
          exact Accounts.signIn_kept (completion_some completes).2 mapped

end Steps

/-! ## Runs -/

/-- What completed callbacks do to the mapping, from one reached state on. -/
structure StableIdentities (service : OAuthService) (state : SignIns) : Prop where
  forever : ∀ later, SignInReaches service state later → ∀ provider subject userId,
    state.accounts.userOf provider subject = some userId →
      later.accounts.userOf provider subject = some userId
  unseen : ∀ id now (answer : ProviderAnswer) row userId accounts,
    state.completion? id now answer = some (row, .ok (userId, accounts)) →
    row.intendedUserId = none → state.accounts.userOf answer.provider answer.subject = none →
    userId ∉ state.accounts.users.map (·.id) ∨ ∃ githubUserId,
      answer.githubUserId = some githubUserId ∧
        ∃ stored ∈ state.accounts.users, stored.id = userId ∧
          stored.githubUserId = some githubUserId
  linked : ∀ id now (answer : ProviderAnswer) row userId accounts linkingUserId,
    state.completion? id now answer = some (row, .ok (userId, accounts)) →
    row.intendedUserId = some linkingUserId →
    userId = linkingUserId ∧
      (state.step service (.complete id now answer)).accounts = accounts ∧
      ∀ provider subject, accounts.userOf provider subject =
        if provider = answer.provider ∧ subject = answer.subject then some linkingUserId
        else state.accounts.userOf provider subject
  raised : ∀ id now answer row failure,
    state.completion? id now answer = some (row, .error failure) →
    (state.step service (.complete id now answer)).accounts = state.accounts

theorem SignInReaches.userOf {service : OAuthService} {state later : SignIns}
    (reaches : SignInReaches service state later) {provider : AuthProvider} {subject : String}
    {userId : UserId} (mapped : state.accounts.userOf provider subject = some userId) :
    later.accounts.userOf provider subject = some userId := by
  induction reaches with
  | refl => exact mapped
  | tail _ moves ih =>
      obtain ⟨action, rfl⟩ := moves
      exact SignIns.step_userOf action ih

theorem SignInReaches.intended {service : OAuthService} {accounts : Accounts} {state : SignIns}
    (reaches : SignInReaches service { accounts } state) : Intended service state := by
  induction reaches with
  | refl => exact ⟨.ofTable .nil, by simp, by simp, by simp [consumedRows]⟩
  | tail _ moves ih =>
      obtain ⟨action, rfl⟩ := moves
      exact ih.step action

theorem identity_mapping_stable {service : OAuthService} {accounts : Accounts} {state : SignIns}
    (reaches : SignInReaches service { accounts } state) : StableIdentities service state where
  forever := fun later further provider subject userId mapped => further.userOf mapped
  unseen := by
    intro id now answer row userId after completes unlinked unmapped
    obtain ⟨_, result⟩ := SignIns.completion_some completes
    obtain ⟨resolved, change, resolution, _⟩ := Accounts.signIn_resolved result
    obtain ⟨provider, subject, linking, legacy⟩ := answer.request_subject row.intendedUserId
    have known := resolution.unseen (linking.trans unlinked)
      (by rw [provider, subject]; exact unmapped)
    rw [legacy] at known
    exact known
  linked := by
    intro id now answer row userId after linkingUserId completes intends
    obtain ⟨consumed, result⟩ := SignIns.completion_some completes
    obtain ⟨resolved, change, resolution, _⟩ := Accounts.signIn_resolved result
    obtain ⟨_, _, linking, _⟩ := answer.request_subject row.intendedUserId
    have stored := reaches.intended.consumed row consumed linkingUserId intends
    obtain rfl := resolution.linked (linking.trans intends) stored
    refine ⟨rfl, by simp [SignIns.step, completes], ?_⟩
    exact Accounts.signIn_userOf result
  raised := by
    intro id now answer row failure completes
    simp [SignIns.step, completes]

namespace SignIn

/-- A legacy row signs in with GitHub, links a Google identity and signs in
with it; another user cannot link that identity. -/
def accounts : Accounts where
  users := [{ id := 1, githubUserId := some 7 }, { id := 2 }]

def octocat : ProviderAnswer :=
  .github { id := 7, login := "octocat" }

def mail : ProviderAnswer :=
  .google { subject := "sub", email := "cat@example", emailVerified := true }

def oauth (actions : List (Action OAuthCall)) : List SignInAction :=
  actions.map .oauth

def signIns : List SignInAction :=
  oauth [.start (.start .github none false 0 "a" "v" ""), .step 0, .step 0,
    .start (.githubCallback 1 "a" (some "v")), .step 1, .step 1, .step 1, .step 1] ++
  [.complete 1 1 octocat] ++
  oauth [.start (.start .google (some 1) false 0 "b" "v" "n"), .step 2, .step 2,
    .start (.googleCallback 1 "b" (some "v") (some "n")), .step 3, .step 3, .step 3, .step 3] ++
  [.complete 2 1 mail] ++
  oauth [.start (.start .google (some 2) false 0 "c" "v" "n"), .step 4, .step 4,
    .start (.googleCallback 1 "c" (some "v") (some "n")), .step 5, .step 5, .step 5, .step 5] ++
  [.complete 3 1 mail]

end SignIn

open SignIn in
theorem linked_identity_stable :
    let state := SignIns.run service { accounts } signIns
    state.accounts.userOf .github "7" = some 1 ∧ state.accounts.userOf .google "sub" = some 1 ∧
      state.finished = [3, 2, 1] ∧ StableIdentities service state := by
  refine ⟨by decide, by decide, by decide, ?_⟩
  exact identity_mapping_stable (signIn_reaches_run service { accounts } signIns)

end Codenaut.Services
