import Codenaut.Services.Identities

/-!
# The identity mapping

What `_resolve_identity` can return, and what a completed callback does to the
mapping of provider subjects: it maps its own subject to the user it returns,
and leaves every other subject alone.
-/

set_option autoImplicit false

namespace Codenaut.Services

open Codenaut.Db Codenaut.Relational

/-- The user and the state that a resolution returns. -/
inductive Resolved (accounts : Accounts) (request : ResolveRequest) :
    UserId → Accounts → Prop where
  | identified {userId : UserId} {resolved : Accounts}
      (mapped : accounts.userOf request.provider request.providerSubject = some userId)
      (linking : ∀ linkingUserId, request.linkingUserId = some linkingUserId →
        linkingUserId = userId)
      (kept : ∀ provider subject,
        resolved.userOf provider subject = accounts.userOf provider subject)
      (users : resolved.users = accounts.users) : Resolved accounts request userId resolved
  | attached {userId : UserId}
      (unseen : accounts.userOf request.provider request.providerSubject = none)
      (known : accounts.knownUser? request = some userId) :
      Resolved accounts request userId (accounts.attach request userId)
  | inserted
      (unseen : accounts.userOf request.provider request.providerSubject = none)
      (unknown : accounts.knownUser? request = none) :
      Resolved accounts request (accounts.newUser request).id
        ({ accounts with users := accounts.users ++ [accounts.newUser request] }.attach request
          (accounts.newUser request).id)

namespace Accounts

variable {accounts resolved after : Accounts} {request : ResolveRequest} {userId : UserId}

/-- An update of other columns leaves the mapping alone. -/
theorem userOf_updateWhere {guard : AuthIdentity → Bool} {change : AuthIdentity → AuthIdentity}
    (user : ∀ row, (change row).userId = row.userId)
    (subjectKept : ∀ row, (change row).provider = row.provider ∧
      (change row).providerSubject = row.providerSubject)
    (provider : AuthProvider) (subject : String) :
    Accounts.userOf { accounts with
      identities := updateWhere guard change accounts.identities } provider subject =
      accounts.userOf provider subject := by
  let select := fun (row : AuthIdentity) =>
    row.provider == provider && row.providerSubject == subject
  have preserved : ∀ row, select (change row) = select row := by
    intro row
    simp only [select, (subjectKept row).1, (subjectKept row).2]
  have updated : (updateWhere guard change accounts.identities).find? select =
      (accounts.identities.find? select).map fun row => if guard row then change row else row :=
    find?_updateWhere preserved accounts.identities
  have same : (fun row : AuthIdentity => row.userId) ∘
      (fun row => if guard row then change row else row) = fun row => row.userId := by
    funext row
    simp only [Function.comp_apply]
    split
    · exact user row
    · rfl
  change ((updateWhere guard change accounts.identities).find? select).map (·.userId) =
    (accounts.identities.find? select).map (·.userId)
  rw [updated, Option.map_map, same]

theorem resolveIdentity_cases (result : accounts.resolveIdentity request = .ok (userId, resolved)) :
    Resolved accounts request userId resolved := by
  unfold resolveIdentity at result
  split at result
  case h_1 identity found =>
      split at result
      case isTrue => cases result
      case isFalse linking =>
          split at result
          case isTrue => cases result
          case isFalse =>
              cases result
              refine .identified (by simp [userOf, found]) ?_
                (userOf_updateWhere (fun _ => rfl) fun _ => ⟨rfl, rfl⟩) rfl
              intro linkingUserId given
              simpa [given] using linking
  case h_2 unseen =>
      have unmapped : accounts.userOf request.provider request.providerSubject = none := by
        simp [userOf, unseen]
      split at result
      case h_1 known userId found =>
          cases result
          exact .attached unmapped found
      case h_2 unknown =>
          split at result
          case isTrue => cases result
          case isFalse =>
              cases result
              exact .inserted unmapped unknown

/-- An attached subject maps to its user, and the others as before. -/
theorem userOf_attach (unseen : accounts.userOf request.provider request.providerSubject = none)
    (provider : AuthProvider) (subject : String) :
    (accounts.attach request userId).userOf provider subject =
      if provider = request.provider ∧ subject = request.providerSubject then some userId
      else accounts.userOf provider subject := by
  simp only [userOf, identity?, attach, List.find?_append, List.find?_singleton] at unseen ⊢
  by_cases same : provider = request.provider ∧ subject = request.providerSubject
  · obtain ⟨rfl, rfl⟩ := same
    rw [Option.map_eq_none_iff.mp unseen]
    simp
  · have unmatched : ¬ ((request.provider == provider) = true ∧
        (request.providerSubject == subject) = true) := by
      rintro ⟨first, second⟩
      exact same ⟨(eq_of_beq first).symm, (eq_of_beq second).symm⟩
    rw [if_neg same, if_neg (by simpa using unmatched), Option.or_none]

end Accounts

theorem Resolved.userOf {accounts resolved : Accounts} {request : ResolveRequest}
    {userId : UserId} (result : Resolved accounts request userId resolved)
    (provider : AuthProvider) (subject : String) :
    resolved.userOf provider subject =
      if provider = request.provider ∧ subject = request.providerSubject then some userId
      else accounts.userOf provider subject := by
  cases result with
  | identified mapped linking kept users =>
      rw [kept]
      split
      case isTrue same => rw [same.1, same.2, mapped]
      case isFalse => rfl
  | attached unseen known => exact Accounts.userOf_attach unseen provider subject
  | inserted unseen unknown =>
      let extended : Accounts := { accounts with
        users := accounts.users ++ [accounts.newUser request] }
      have mapped : extended.userOf request.provider request.providerSubject = none := unseen
      exact Accounts.userOf_attach mapped provider subject

section Resolution

variable {accounts resolved : Accounts} {request : ResolveRequest} {userId : UserId}

/-- A mapped subject resolves to its user. -/
theorem Resolved.mapped (result : Resolved accounts request userId resolved) {known : UserId}
    (mapped : accounts.userOf request.provider request.providerSubject = some known) :
    userId = known := by
  cases result with
  | identified same => exact Option.some.inj (same.symm.trans mapped)
  | attached unseen | inserted unseen => simp [mapped] at unseen

/-- Without a link, a new subject resolves to a new user or to a legacy row. -/
theorem Resolved.unseen (result : Resolved accounts request userId resolved)
    (unlinked : request.linkingUserId = none)
    (unmapped : accounts.userOf request.provider request.providerSubject = none) :
    userId ∉ accounts.users.map (·.id) ∨ ∃ githubUserId,
      request.legacyGithubUserId = some githubUserId ∧
        ∃ row ∈ accounts.users, row.id = userId ∧ row.githubUserId = some githubUserId := by
  cases result with
  | identified mapped => simp [unmapped] at mapped
  | attached _ known =>
      simp only [Accounts.knownUser?, unlinked, Option.filter_none] at known
      obtain ⟨githubUserId, legacy, found⟩ := Option.bind_eq_some_iff.mp known
      obtain ⟨row, matched, same⟩ := Option.map_eq_some_iff.mp found
      have githubSame := List.find?_some matched
      exact .inr ⟨githubUserId, legacy, row, List.mem_of_find?_eq_some matched, same,
        by simpa using githubSame⟩
  | inserted => exact .inl (freshKey_not_mem _)

/-- A link of a stored user resolves to that user. -/
theorem Resolved.linked (result : Resolved accounts request userId resolved)
    {linkingUserId : UserId} (linking : request.linkingUserId = some linkingUserId)
    (stored : accounts.stored linkingUserId = true) : userId = linkingUserId := by
  cases result with
  | identified _ same => exact (same linkingUserId linking).symm
  | attached _ known =>
      simp only [Accounts.knownUser?, linking, Option.filter, stored] at known
      exact (Option.some.inj known).symm
  | inserted _ unknown => simp [Accounts.knownUser?, linking, Option.filter, stored] at unknown

theorem Resolved.users (result : Resolved accounts request userId resolved) :
    ∃ rows, resolved.users = accounts.users ++ rows := by
  cases result with
  | identified _ _ _ users => exact ⟨[], by rw [users, List.append_nil]⟩
  | attached => exact ⟨[], (List.append_nil _).symm⟩
  | inserted => exact ⟨_, rfl⟩

end Resolution

/-! ## Completed callbacks -/

section SignIn

variable {accounts after : Accounts} {now : Timestamp} {linkingUserId : Option UserId}
  {answer : ProviderAnswer} {userId : UserId}

theorem ProviderAnswer.request_subject (answer : ProviderAnswer)
    (linkingUserId : Option UserId) :
    (answer.request linkingUserId).provider = answer.provider ∧
      (answer.request linkingUserId).providerSubject = answer.subject ∧
      (answer.request linkingUserId).linkingUserId = linkingUserId ∧
      (answer.request linkingUserId).legacyGithubUserId = answer.githubUserId := by
  cases answer <;> exact ⟨rfl, rfl, rfl, rfl⟩

/-- A sign-in resolves its subject and rewrites the row of the user. -/
theorem Accounts.signIn_resolved
    (result : accounts.signIn now linkingUserId answer = .ok (userId, after)) :
    ∃ resolved change, Resolved accounts (answer.request linkingUserId) userId resolved ∧
      after = resolved.setUser userId change ∧ ∀ row, (change row).id = row.id := by
  cases answer with
  | github user =>
      simp only [signIn, synchronizeGithubLogin] at result
      split at result
      case h_1 => cases result
      case h_2 found resolved ok =>
          split at result
          case isTrue => cases result
          case isFalse =>
              cases result
              exact ⟨resolved, _, resolveIdentity_cases ok, rfl, fun _ => rfl⟩
  | google identity =>
      simp only [signIn, synchronizeGoogleLogin] at result
      split at result
      case h_1 => cases result
      case h_2 found resolved ok =>
          cases result
          exact ⟨resolved, _, resolveIdentity_cases ok, rfl, fun _ => rfl⟩

/-- The subject maps to the returned user, every other one as before. -/
theorem Accounts.signIn_userOf
    (result : accounts.signIn now linkingUserId answer = .ok (userId, after))
    (provider : AuthProvider) (subject : String) :
    after.userOf provider subject =
      if provider = answer.provider ∧ subject = answer.subject then some userId
      else accounts.userOf provider subject := by
  obtain ⟨resolved, change, resolution, rfl, _⟩ := signIn_resolved result
  obtain ⟨sameProvider, sameSubject, _⟩ := answer.request_subject linkingUserId
  have mapped := resolution.userOf provider subject
  rw [sameProvider, sameSubject] at mapped
  exact mapped

/-- A mapped subject keeps its user. -/
theorem Accounts.signIn_kept
    (result : accounts.signIn now linkingUserId answer = .ok (userId, after))
    {provider : AuthProvider} {subject : String} {known : UserId}
    (mapped : accounts.userOf provider subject = some known) :
    after.userOf provider subject = some known := by
  rw [signIn_userOf result]
  split
  case isFalse => exact mapped
  case isTrue same =>
      obtain ⟨resolved, change, resolution, _⟩ := signIn_resolved result
      obtain ⟨sameProvider, sameSubject, _⟩ := answer.request_subject linkingUserId
      rw [same.1, same.2, ← sameProvider, ← sameSubject] at mapped
      rw [resolution.mapped mapped]

theorem Accounts.signIn_stored
    (result : accounts.signIn now linkingUserId answer = .ok (userId, after)) {other : UserId}
    (stored : accounts.stored other = true) : after.stored other = true := by
  obtain ⟨resolved, change, resolution, rfl, keyed⟩ := signIn_resolved result
  obtain ⟨rows, users⟩ := resolution.users
  obtain ⟨row, member, same⟩ := List.any_eq_true.mp stored
  refine List.any_eq_true.mpr ⟨if row.id == userId then change row else row, ?_, ?_⟩
  · refine mem_updateWhere.mpr ⟨row, ?_, rfl⟩
    rw [users]
    exact List.mem_append_left _ member
  · split
    · rw [keyed]
      exact same
    · exact same

end SignIn

end Codenaut.Services
