import Codenaut.Services.Auth
import Codenaut.Services.PublicRepositories
import Codenaut.Services.WebhooksProperties

/-!
# Effects of the repository services

Synchronization, selection, reindexing, public import and sign-in keep every
index column, never lower a generation, and insert at most one queued job.
-/

set_option autoImplicit false

namespace Codenaut.Services

open Codenaut.Core Codenaut.Db Codenaut.Relational

/-! ## Synchronization -/

theorem listedRepository_kept (external : GitHub.Repository) (row : Repository) :
    RepositoryKept row (listedRepository external row) :=
  ⟨⟨rfl, rfl, rfl, rfl, rfl, rfl, rfl, rfl⟩, Nat.le_refl _⟩

theorem upsertRepository_effect {installationId : InstallationId} {db stored : Database}
    {external : GitHub.Repository} (owned : ∃ row ∈ db.githubInstallations, row.id = installationId)
    (upserted : upsertRepository installationId db external = some stored) :
    RepositoryEffect db stored := by
  unfold upsertRepository at upserted
  split at upserted
  · rw [flushRepositories_eq upserted]
    exact .updateRepositories _ _ (listedRepository_kept external)
  · rw [flushRepositories_eq upserted]
    obtain ⟨installation, member, rfl⟩ := owned
    exact insertRepository_effect db (newRepositoryId_absent db)
      ⟨rfl, .inr ⟨rfl, installation, member, rfl⟩⟩

theorem upsertRepositories_effect {installationId : InstallationId}
    (externals : List GitHub.Repository) {db stored : Database}
    (owned : ∃ row ∈ db.githubInstallations, row.id = installationId)
    (upserted : externals.foldlM (upsertRepository installationId) db = some stored) :
    RepositoryEffect db stored := by
  induction externals generalizing db with
  | nil =>
      cases upserted
      exact .refl _
  | cons external rest ih =>
      simp only [List.foldlM_cons, Option.bind_eq_bind, Option.bind_eq_some_iff] at upserted
      obtain ⟨mid, first, later⟩ := upserted
      have effect := upsertRepository_effect owned first
      obtain ⟨row, member, same⟩ := owned
      obtain ⟨next, nextMember, nextId⟩ := effect.installations row member
      exact effect.trans (ih ⟨next, nextMember, nextId.trans same⟩ later)

theorem authorizedInstallation_mem {settings : Settings} {db : Database} {now : Timestamp}
    {userId : UserId} {installationId : InstallationId} {installation : GitHubInstallation}
    (found : authorizedInstallation settings db now userId installationId = some installation) :
    installation ∈ db.githubInstallations ∧ installation.id = installationId := by
  refine ⟨List.mem_of_find?_eq_some found, ?_⟩
  have matched := List.find?_some found
  simp only [Bool.and_eq_true, beq_iff_eq] at matched
  exact matched.1.1.1

theorem synchronizeRepositories_effect {settings : Settings} {db stored : Database}
    {now : Timestamp} {userId : UserId} {installationId : InstallationId}
    {externals : List GitHub.Repository}
    (synchronized : synchronizeRepositories settings db now userId installationId externals =
      some stored) : RepositoryEffect db stored := by
  unfold synchronizeRepositories at synchronized
  split at synchronized
  · cases synchronized
  case h_2 installation authorized =>
    simp only [Option.map_eq_some_iff] at synchronized
    obtain ⟨listed, upserted, rfl⟩ := synchronized
    have effect := upsertRepositories_effect externals
      ⟨installation, (authorizedInstallation_mem authorized).1, rfl⟩ upserted
    exact effect.trans (.updateRepositories _ _ (revokedRepository_kept now))

theorem revokePublicAccess_service (db : Database) (now : Timestamp)
    (repositoryId : RepositoryId) :
    RepositoryEffect db (revokePublicAccess db now repositoryId) :=
  .updateRepositories _ _ fun _ => ⟨⟨rfl, rfl, rfl, rfl, rfl, rfl, rfl, rfl⟩, Nat.le_refl _⟩

theorem revalidatePublic_effect (db : Database) (now : Timestamp) (userId : UserId)
    (repositoryId : RepositoryId) (answer : PublicAnswer) :
    RepositoryEffect db (revalidatePublic db now userId repositoryId answer) := by
  unfold revalidatePublic
  split
  · exact .refl db
  · split
    · exact revokePublicAccess_service db now repositoryId
    · split
      · exact revokePublicAccess_service db now repositoryId
      · split
        · exact .updateRepositories _ _ fun _ =>
            ⟨⟨rfl, rfl, rfl, rfl, rfl, rfl, rfl, rfl⟩, Nat.le_refl _⟩
        · exact .refl db

/-! ## Selection and reindexing -/

theorem selectedRepository_kept (row : Repository) : RepositoryKept row (selectedRepository row) :=
  ⟨⟨rfl, rfl, rfl, rfl, rfl, rfl, rfl, rfl⟩, Nat.le_refl _⟩

theorem reindexedRepository_kept (row : Repository) :
    RepositoryKept row (reindexedRepository row) :=
  ⟨⟨rfl, rfl, rfl, rfl, rfl, rfl, rfl, rfl⟩, Nat.le_succ _⟩

theorem latestJob_eq_none {jobs : List IndexingJob} (absent : latestJob jobs = none) :
    jobs = [] := by
  have keeps : ∀ (rest : List IndexingJob) (first : IndexingJob),
      rest.foldl (fun latest job =>
        if latest.all (·.createdAt < job.createdAt) then some job else latest)
        (some first) ≠ none := by
    intro rest
    induction rest with
    | nil => exact fun first => Option.some_ne_none first
    | cons job rest ih =>
        intro first
        rw [List.foldl_cons]
        split
        · exact ih job
        · exact ih first
  cases jobs with
  | nil => rfl
  | cons job rest => exact absurd absent (keeps rest job)

def HasInitialJob (db : Database) (repositoryId : RepositoryId) : Prop :=
  ∃ job ∈ db.indexingJobs, job.repositoryId = repositoryId ∧ job.jobType = .initialIndex

/-- What a selection did: it reused an initial job, or queued the first one. -/
inductive SelectionOutcome (db : Database) (now : Timestamp) (userId : UserId)
    (repositoryId : RepositoryId) (stored : Database) : Prop where
  | reused (initial : HasInitialJob db repositoryId) (database : stored = db)
  | queued {repository : Repository} (member : repository ∈ db.repositories)
      (place : repository.id = repositoryId) (first : ¬HasInitialJob db repositoryId)
      (database : stored = insertJob
        (db.updateRepositories (·.id == repository.id) selectedRepository)
        (initialJob (newJobId db) now userId repository))

theorem selectRepository_outcome {settings : Settings} {db stored : Database} {now : Timestamp}
    {userId : UserId} {installationId : InstallationId} {repositoryId : RepositoryId}
    {job : JobId} (selected : selectRepository settings db now userId installationId repositoryId =
      some (job, stored)) : SelectionOutcome db now userId repositoryId stored := by
  unfold selectRepository at selected
  split at selected
  · cases selected
  · split at selected
    · cases selected
    case h_2 repository found =>
      have key := List.find?_some found
      simp only [Bool.and_eq_true, beq_iff_eq] at key
      have place : repository.id = repositoryId := key.1.1.1
      have listed : HasInitialJob db repositoryId ↔ db.indexingJobs.filter (fun job =>
          job.repositoryId == repository.id && job.jobType == .initialIndex) ≠ [] := by
        rw [ne_eq, List.filter_eq_nil_iff]
        simp [HasInitialJob, place]
      dsimp only at selected
      split at selected
      case h_1 initial latest =>
        cases selected
        refine .reused (listed.mpr fun empty => ?_) rfl
        rw [empty] at latest
        cases latest
      case h_2 latest =>
        cases selected
        exact .queued (List.mem_of_find?_eq_some found) place
          (fun initial => listed.mp initial (latestJob_eq_none latest)) rfl

theorem selectRepository_effect {settings : Settings} {db stored : Database} {now : Timestamp}
    {userId : UserId} {installationId : InstallationId} {repositoryId : RepositoryId}
    {job : JobId} (selected : selectRepository settings db now userId installationId repositoryId =
      some (job, stored)) : ServiceEffect db stored := by
  cases selectRepository_outcome selected with
  | reused _ database =>
      rw [database]
      exact .refl db
  | @queued repository member _ _ database =>
      rw [database]
      refine (RepositoryEffect.updateRepositories db (·.id == repository.id)
        selectedRepository_kept).insertJob (newJobId_absent db) ?_
      exact ⟨rfl, rfl, rfl, rfl, selectedRepository repository, mem_updated member _, rfl, rfl, rfl⟩

theorem reindex_queued {db stored : Database} {now : Timestamp} {userId : UserId}
    {repositoryId : RepositoryId} {job : JobId}
    (reindexed : reindex db now userId repositoryId = some (job, stored)) :
    ∃ repository ∈ db.repositories, stored = insertJob
      (db.updateRepositories (·.id == repository.id) reindexedRepository)
      (reindexJob (newJobId db) now userId (reindexedRepository repository)) := by
  unfold reindex at reindexed
  split at reindexed
  · cases reindexed
  case h_2 repository found =>
    cases reindexed
    have same : repository.id = repositoryId := by simpa using List.find?_some found
    subst same
    exact ⟨repository, List.mem_of_find?_eq_some found, rfl⟩

theorem reindex_effect {db stored : Database} {now : Timestamp} {userId : UserId}
    {repositoryId : RepositoryId} {job : JobId}
    (reindexed : reindex db now userId repositoryId = some (job, stored)) :
    ServiceEffect db stored := by
  obtain ⟨repository, member, rfl⟩ := reindex_queued reindexed
  refine (RepositoryEffect.updateRepositories db (·.id == repository.id)
    reindexedRepository_kept).insertJob (newJobId_absent db) ?_
  exact ⟨rfl, rfl, rfl, rfl, reindexedRepository repository, mem_updated member _, rfl, rfl, rfl⟩

/-! ## Public import -/

theorem importedRepository_kept (now : Timestamp) (metadata : GitHub.PublicRepository)
    (row : Repository) : RepositoryKept row (importedRepository now metadata row) :=
  ⟨⟨rfl, rfl, rfl, rfl, rfl, rfl, rfl, rfl⟩, Nat.le_refl _⟩

theorem importQueued_kept (manual : Bool) (row : Repository) :
    RepositoryKept row (importQueued manual row) :=
  ⟨⟨rfl, rfl, rfl, rfl, rfl, rfl, rfl, rfl⟩, Nat.le_add_right _ _⟩

theorem importRow_effect (db : Database) (now : Timestamp) (metadata : GitHub.PublicRepository) :
    RepositoryEffect db (importRow db now metadata).2 ∧
      (importRow db now metadata).1 ∈ (importRow db now metadata).2.repositories ∧
      (importRow db now metadata).1.defaultBranch = metadata.repository.defaultBranch := by
  unfold importRow
  split
  case h_1 row found =>
    have member := List.mem_of_find?_eq_some found
    exact ⟨.updateRepositories _ _ (importedRepository_kept now metadata), mem_updated member _,
      rfl⟩
  case h_2 =>
    exact ⟨insertRepository_effect db (newRepositoryId_absent db) ⟨rfl, .inl ⟨rfl, rfl⟩⟩,
      List.mem_append_right _ (.head _), rfl⟩

theorem joinUser_effect (db : Database) (member : Bool) (userId : UserId)
    (repositoryId : RepositoryId) : RepositoryEffect db (joinUser db member userId repositoryId) := by
  unfold joinUser
  split
  · exact .refl db
  · exact ⟨⟨rfl, rfl, rfl⟩, rfl, .refl .refl, fun row member => ⟨row, member, rfl⟩⟩

theorem joinUser_repositories (db : Database) (member : Bool) (userId : UserId)
    (repositoryId : RepositoryId) :
    (joinUser db member userId repositoryId).repositories = db.repositories := by
  unfold joinUser
  split <;> rfl

theorem joinUser_jobs (db : Database) (member : Bool) (userId : UserId)
    (repositoryId : RepositoryId) :
    (joinUser db member userId repositoryId).indexingJobs = db.indexingJobs := by
  unfold joinUser
  split <;> rfl

/-- The row that an import writes, with the user joined to it. -/
def importJoined (db : Database) (now : Timestamp) (metadata : GitHub.PublicRepository)
    (member : Bool) (userId : UserId) : Database :=
  joinUser (importRow db now metadata).2 member userId (importRow db now metadata).1.id

/-- What an import did: it joined the user, and queued a job for an index that is
not current. -/
inductive ImportOutcome (db : Database) (now : Timestamp) (userId : UserId)
    (metadata : GitHub.PublicRepository) (manual : Bool) (result : AttachResult)
    (stored : Database) : Prop where
  | joined (member : Bool) (database : stored = importJoined db now metadata member userId)
      (place : result.repositoryId = (importRow db now metadata).1.id)
      (current : result.alreadyCurrent =
        alreadyCurrent stored (importRow db now metadata).1 metadata.defaultBranchSha)
  | queued (member : Bool) (outdated : result.alreadyCurrent = false)
      (database : stored = insertJob
        ((importJoined db now metadata member userId).updateRepositories
          (·.id == (importRow db now metadata).1.id) (importQueued manual))
        (importJob (newJobId db) now userId manual metadata
          (importQueued manual (importRow db now metadata).1)))

theorem attach_outcome {settings : Settings} {db stored : Database} {now : Timestamp}
    {userId : UserId} {metadata : GitHub.PublicRepository}
    {expectedRepositoryId : Option RepositoryId} {manual : Bool} {result : AttachResult}
    (accepted : attach settings db now userId metadata expectedRepositoryId manual =
      some (result, stored)) : ImportOutcome db now userId metadata manual result stored := by
  unfold attach at accepted
  dsimp only at accepted
  split at accepted
  · cases accepted
  · split at accepted
    · cases accepted
    · split at accepted
      · cases accepted
        exact .joined _ rfl rfl rfl
      · split at accepted
        · cases accepted
          exact .joined _ rfl rfl rfl
        case isFalse outdated =>
          cases accepted
          exact .queued _ (eq_false_of_ne_true outdated) rfl

theorem attach_effect {settings : Settings} {db stored : Database} {now : Timestamp}
    {userId : UserId} {metadata : GitHub.PublicRepository}
    {expectedRepositoryId : Option RepositoryId} {manual : Bool} {result : AttachResult}
    (accepted : attach settings db now userId metadata expectedRepositoryId manual =
      some (result, stored)) : ServiceEffect db stored := by
  obtain ⟨imported, written, branch⟩ := importRow_effect db now metadata
  have joined : ∀ member, RepositoryEffect db (importJoined db now metadata member userId) :=
    fun member => imported.trans (joinUser_effect _ member userId _)
  cases attach_outcome accepted with
  | joined member database =>
      rw [database]
      exact (joined member).service
  | queued member _ database =>
      rw [database]
      refine ((joined member).trans (.updateRepositories _
        (·.id == (importRow db now metadata).1.id)
        (importQueued_kept manual))).insertJob (newJobId_absent db) ?_
      refine ⟨rfl, rfl, rfl, rfl, importQueued manual (importRow db now metadata).1, ?_, rfl,
        rfl, congrArg some branch.symm⟩
      refine mem_updated ?_ _
      rw [importJoined, joinUser_repositories]
      exact written

/-! ## Sign-in -/

theorem signedInInstallation_id (userId : UserId) (githubUserId : Nat)
    (external : GitHub.Installation) (row : GitHubInstallation) :
    (signedInInstallation userId githubUserId external row).id = row.id := rfl

theorem signInInstallation_effect (now : Timestamp) (userId : UserId) (githubUserId : Nat)
    (state : List InstallationId × Database) (external : GitHub.Installation) :
    RepositoryEffect state.2 (signInInstallation now userId githubUserId state external).2 :=
  (upsertInstallation_effect state.2 external
    (signedInInstallation_id userId githubUserId external)).1.trans
    ⟨⟨rfl, rfl, rfl⟩, rfl, .refl .refl, fun row member => ⟨row, member, rfl⟩⟩

theorem signInInstallations_effect (now : Timestamp) (userId : UserId) (githubUserId : Nat)
    (externals : List GitHub.Installation) (state : List InstallationId × Database) :
    RepositoryEffect state.2
      (externals.foldl (signInInstallation now userId githubUserId) state).2 := by
  induction externals generalizing state with
  | nil => exact .refl _
  | cons external rest ih =>
      exact (signInInstallation_effect now userId githubUserId state external).trans (ih _)

theorem synchronizeGithubLogin_effect (db : Database) (now : Timestamp) (resolved : Option UserId)
    (githubUser : GitHub.User) (installations : List GitHub.Installation) :
    RepositoryEffect db (synchronizeGithubLogin db now resolved githubUser installations) := by
  have identified : RepositoryEffect db
      { db with users := identifiedUsers db resolved githubUser } :=
    ⟨⟨rfl, rfl, rfl⟩, rfl, .refl .refl, fun row member => ⟨row, member, rfl⟩⟩
  have signedIn := signInInstallations_effect now (resolved.getD (newUserId db)) githubUser.id
    installations ([], { db with users := identifiedUsers db resolved githubUser })
  exact (identified.trans signedIn).trans
    ⟨⟨rfl, rfl, rfl⟩, rfl, .refl .refl, fun row member => ⟨row, member, rfl⟩⟩

theorem synchronizeGoogleLogin_effect (db : Database) (resolved : Option UserId) :
    RepositoryEffect db (synchronizeGoogleLogin db resolved) := by
  cases resolved with
  | some _ => exact .refl db
  | none => exact ⟨⟨rfl, rfl, rfl⟩, rfl, .refl .refl, fun row member => ⟨row, member, rfl⟩⟩

end Codenaut.Services
