import Codenaut.Services.Consistency
import Codenaut.Services.Runs

/-!
# Statuses in progress

A client polls a repository while its status is in progress. Every way of
ending a job resets the status, except `mark_stale`, which leaves the repository
row as it is. A status in progress is therefore backed by a live job as long as
no stale mark ends the last one of a repository in progress.
-/

set_option autoImplicit false

namespace Codenaut.Services

open Codenaut.Core Codenaut.Db Codenaut.Indexing Codenaut.Relational

/-- `isIndexingStatus` of the client. -/
def isIndexingStatus : RepositoryIndexingStatus → Bool
  | .queued | .cloning | .discovering | .parsing | .buildingGraph | .embedding | .finalizing =>
      true
  | .notIndexed | .complete | .failed | .deleting | .accessRevoked => false

theorem live_eq (job : IndexingJob) : live job = !job.status.terminal := by
  cases status : job.status <;> simp [live, status, IndexingJobStatus.terminal]

/-- A repository without a live job is not in progress. -/
def Quiescent (db : Database) : Prop :=
  ∀ row ∈ db.repositories,
    (∀ job ∈ db.indexingJobs, job.repositoryId = row.id → live job = false) →
    isIndexingStatus row.indexingStatus = false

/-- The job is live and another job of its repository is too, or its repository
is not in progress. -/
def statusOutlives (db : Database) (job : IndexingJob) : Bool :=
  db.repositories.all (fun row => row.id != job.repositoryId ||
      !isIndexingStatus row.indexingStatus) ||
    db.indexingJobs.any fun other =>
      other.id != job.id && other.repositoryId == job.repositoryId && live other

/-- A stale mark does not end the last live job of a repository in progress. -/
def marksQuietly (db : Database) : Operation → Prop
  | .store claimed workerId (.markStale _ _) =>
      ∀ job ∈ db.indexingJobs, heldBy claimed workerId job = true → statusOutlives db job = true
  | _ => True

/-! ## Backing -/

def Backed (db : Database) : Prop :=
  ∀ row ∈ db.repositories, isIndexingStatus row.indexingStatus = true →
    ∃ job ∈ db.indexingJobs, live job = true ∧ job.repositoryId = row.id

theorem quiescent_iff_backed {db : Database} : Quiescent db ↔ Backed db := by
  constructor
  · intro quiescent row member indexing
    by_contra unbacked
    have quiet := quiescent row member fun job jobMember owner => by
      by_contra alive
      exact unbacked ⟨job, jobMember, by simpa using alive, owner⟩
    simp [quiet] at indexing
  · intro backed row member ended
    by_contra indexing
    obtain ⟨job, jobMember, alive, owner⟩ := backed row member (by simpa using indexing)
    simp [ended job jobMember owner] at alive

/-- Every repository in progress was in progress before. -/
def Quieter (old new : List Repository) : Prop :=
  ∀ row ∈ new, isIndexingStatus row.indexingStatus = true →
    ∃ prior ∈ old, prior.id = row.id ∧ isIndexingStatus prior.indexingStatus = true

/-- Every live job is still live. -/
def Continued (old new : List IndexingJob) : Prop :=
  ∀ job ∈ old, live job = true →
    ∃ next ∈ new, live next = true ∧ next.repositoryId = job.repositoryId

theorem Quieter.refl (rows : List Repository) : Quieter rows rows :=
  fun row member indexing => ⟨row, member, rfl, indexing⟩

theorem Quieter.trans {first second third : List Repository} (left : Quieter first second)
    (right : Quieter second third) : Quieter first third := by
  intro row member indexing
  obtain ⟨middle, middleMember, middleId, middleIndexing⟩ := right row member indexing
  obtain ⟨prior, priorMember, priorId, priorIndexing⟩ := left middle middleMember middleIndexing
  exact ⟨prior, priorMember, priorId.trans middleId, priorIndexing⟩

theorem Quieter.updateWhere {rows : List Repository} (guard : Repository → Bool)
    {change : Repository → Repository} (sameId : ∀ row, (change row).id = row.id)
    (quiet : ∀ row, isIndexingStatus (change row).indexingStatus = true →
      isIndexingStatus row.indexingStatus = true) :
    Quieter rows (updateWhere guard change rows) := by
  intro row member indexing
  obtain ⟨prior, priorMember, rfl⟩ := mem_updateWhere.mp member
  refine ⟨prior, priorMember, ?_, ?_⟩
  · split
    · exact (sameId prior).symm
    · rfl
  · split at indexing
    · exact quiet prior indexing
    · exact indexing

/-- An update of one repository leaves the others in their status. -/
theorem Quieter.elsewhere {rows : List Repository} {repositoryId : RepositoryId}
    {change : Repository → Repository} {row : Repository}
    (member : row ∈ Relational.updateWhere (·.id == repositoryId) change rows)
    (sameId : ∀ row, (change row).id = row.id)
    (indexing : isIndexingStatus row.indexingStatus = true) (apart : row.id ≠ repositoryId) :
    ∃ prior ∈ rows, prior.id = row.id ∧ isIndexingStatus prior.indexingStatus = true := by
  obtain ⟨prior, priorMember, rfl⟩ := mem_updateWhere.mp member
  have other : (prior.id == repositoryId) = false := by
    by_contra here
    simp only [Bool.not_eq_false] at here
    rw [if_pos here, sameId] at apart
    exact apart (by simpa using here)
  simp only [other] at indexing ⊢
  exact ⟨prior, priorMember, rfl, indexing⟩

/-- An update that resets the status of one repository. -/
theorem Quieter.reset {rows : List Repository} {repositoryId : RepositoryId}
    {change : Repository → Repository} {row : Repository}
    (member : row ∈ Relational.updateWhere (·.id == repositoryId) change rows)
    (sameId : ∀ row, (change row).id = row.id)
    (quiet : ∀ row, isIndexingStatus (change row).indexingStatus = false)
    (indexing : isIndexingStatus row.indexingStatus = true) :
    row.id ≠ repositoryId ∧
      ∃ prior ∈ rows, prior.id = row.id ∧ isIndexingStatus prior.indexingStatus = true := by
  have apart : row.id ≠ repositoryId := by
    intro here
    obtain ⟨prior, _, rfl⟩ := mem_updateWhere.mp member
    split at here
    case isTrue matched => simp [matched, quiet prior] at indexing
    case isFalse unmatched => exact unmatched (by simpa using here)
  exact ⟨apart, Quieter.elsewhere member sameId indexing apart⟩

theorem Quieter.insert {rows : List Repository} {row : Repository}
    (quiet : isIndexingStatus row.indexingStatus = false) : Quieter rows (rows ++ [row]) := by
  intro other member indexing
  rcases List.mem_append.mp member with stored | inserted
  · exact ⟨other, stored, rfl, indexing⟩
  · rw [List.mem_singleton.mp inserted, quiet] at indexing
    cases indexing

theorem Continued.refl (jobs : List IndexingJob) : Continued jobs jobs :=
  fun job member alive => ⟨job, member, alive, rfl⟩

theorem Continued.updateWhere {jobs : List IndexingJob} (guard : IndexingJob → Bool)
    {change : IndexingJob → IndexingJob}
    (kept : ∀ job ∈ jobs, guard job = true → live job = true → live (change job) = true)
    (owner : ∀ job, (change job).repositoryId = job.repositoryId) :
    Continued jobs (updateWhere guard change jobs) := by
  intro job member alive
  refine ⟨_, mem_updateWhere.mpr ⟨job, member, rfl⟩, ?_⟩
  split
  case isTrue matched => exact ⟨kept job member matched alive, owner job⟩
  case isFalse => exact ⟨alive, rfl⟩

theorem Continued.insert (jobs : List IndexingJob) (job : IndexingJob) :
    Continued jobs (jobs ++ [job]) :=
  fun other member alive => ⟨other, List.mem_append_left _ member, alive, rfl⟩

section Backing

variable {db stored : Database}

theorem Backed.quieter (backed : Backed db) (quieter : Quieter db.repositories stored.repositories)
    (continued : Continued db.indexingJobs stored.indexingJobs) : Backed stored := by
  intro row member indexing
  obtain ⟨prior, priorMember, priorId, priorIndexing⟩ := quieter row member indexing
  obtain ⟨job, jobMember, alive, owner⟩ := backed prior priorMember priorIndexing
  obtain ⟨next, nextMember, nextAlive, nextOwner⟩ := continued job jobMember alive
  exact ⟨next, nextMember, nextAlive, nextOwner.trans (owner.trans priorId)⟩

/-- Jobs and repositories may change freely at one repository that ends with a live job. -/
theorem Backed.working (backed : Backed db) (repositoryId : RepositoryId)
    (quieter : ∀ row ∈ stored.repositories, isIndexingStatus row.indexingStatus = true →
      row.id ≠ repositoryId →
      ∃ prior ∈ db.repositories, prior.id = row.id ∧ isIndexingStatus prior.indexingStatus = true)
    (continued : Continued db.indexingJobs stored.indexingJobs)
    (working : ∃ job ∈ stored.indexingJobs, live job = true ∧ job.repositoryId = repositoryId) :
    Backed stored := by
  intro row member indexing
  by_cases here : row.id = repositoryId
  · exact here ▸ working
  · obtain ⟨prior, priorMember, priorId, priorIndexing⟩ := quieter row member indexing here
    obtain ⟨job, jobMember, alive, owner⟩ := backed prior priorMember priorIndexing
    obtain ⟨next, nextMember, nextAlive, nextOwner⟩ := continued job jobMember alive
    exact ⟨next, nextMember, nextAlive, nextOwner.trans (owner.trans priorId)⟩

/-- A job may end at a repository whose status is reset. -/
theorem Backed.ended (backed : Backed db) (repositoryId : RepositoryId)
    (quieter : ∀ row ∈ stored.repositories, isIndexingStatus row.indexingStatus = true →
      row.id ≠ repositoryId ∧
      ∃ prior ∈ db.repositories, prior.id = row.id ∧ isIndexingStatus prior.indexingStatus = true)
    (others : ∀ job ∈ db.indexingJobs, live job = true → job.repositoryId ≠ repositoryId →
      ∃ next ∈ stored.indexingJobs, live next = true ∧ next.repositoryId = job.repositoryId) :
    Backed stored := by
  intro row member indexing
  obtain ⟨apart, prior, priorMember, priorId, priorIndexing⟩ := quieter row member indexing
  obtain ⟨job, jobMember, alive, owner⟩ := backed prior priorMember priorIndexing
  have place := owner.trans priorId
  obtain ⟨next, nextMember, nextAlive, nextOwner⟩ :=
    others job jobMember alive (place ▸ apart)
  exact ⟨next, nextMember, nextAlive, nextOwner.trans place⟩

/-- A refresh sets its repository in progress together with a new job. -/
theorem Backed.insertJob {mid : Database} {repository : Repository}
    {change : Repository → Repository} {job : IndexingJob} (backed : Backed db)
    (quieter : Quieter db.repositories mid.repositories)
    (jobs : mid.indexingJobs = db.indexingJobs) (sameId : ∀ row, (change row).id = row.id)
    (alive : live job = true) (owner : job.repositoryId = repository.id) :
    Backed (insertJob (mid.updateRepositories (·.id == repository.id) change) job) := by
  have added : (Services.insertJob (mid.updateRepositories (·.id == repository.id) change)
      job).indexingJobs = db.indexingJobs ++ [job] := congrArg (· ++ [job]) jobs
  refine backed.working repository.id ?_ (added ▸ .insert _ _) ⟨job, ?_, alive, owner⟩
  · intro row member indexing apart
    obtain ⟨prior, priorMember, priorId, priorIndexing⟩ :=
      Quieter.elsewhere member sameId indexing apart
    obtain ⟨first, firstMember, firstId, firstIndexing⟩ :=
      quieter prior priorMember priorIndexing
    exact ⟨first, firstMember, firstId.trans priorId, firstIndexing⟩
  · rw [added]
    exact List.mem_append_right _ (.head _)

end Backing

/-! ## Services -/

theorem revokedRepository_quiet (now : Timestamp) (row : Repository) :
    isIndexingStatus (revokedRepository now row).indexingStatus = false := rfl

theorem restoredRepository_quiet (row : Repository)
    (indexing : isIndexingStatus (restoredRepository row).indexingStatus = true) :
    isIndexingStatus row.indexingStatus = true := by
  simp only [restoredRepository] at indexing
  split at indexing
  · cases indexing
  · exact indexing

theorem Quieter.revoke (rows : List Repository) (guard : Repository → Bool) (now : Timestamp) :
    Quieter rows (Relational.updateWhere guard (revokedRepository now) rows) :=
  .updateWhere guard (fun _ => rfl) fun row indexing => by
    simp [revokedRepository_quiet] at indexing

theorem addRepositories_quieter (stored : List Repository) (installationId : InstallationId)
    (externals : List GitHub.Repository) (db : Database) :
    Quieter db.repositories
      (externals.foldl (addRepository stored installationId) db).repositories := by
  induction externals generalizing db with
  | nil => exact .refl _
  | cons external rest ih =>
      refine Quieter.trans ?_ (ih _)
      unfold addRepository
      split
      · exact .updateWhere _ (fun _ => rfl) restoredRepository_quiet
      · exact .insert rfl

section Service

variable {db stored : Database}

theorem upsertInstallation_repositories (db : Database) (external : GitHub.Installation)
    (change : GitHubInstallation → GitHubInstallation) :
    (upsertInstallation db external change).2.repositories = db.repositories := by
  unfold upsertInstallation
  split <;> rfl

theorem joinSender_repositories (db : Database) (now : Timestamp) (installationId : InstallationId)
    (sender : Option GitHub.User) :
    (joinSender db now installationId sender).repositories = db.repositories := by
  unfold joinSender
  split
  · rfl
  · split <;> rfl

theorem applyInstallation_quieter (db : Database) (now : Timestamp) (action : Option String)
    (external : GitHub.Installation) (sender : Option GitHub.User) :
    Quieter db.repositories (applyInstallation db now action external sender).repositories := by
  have upserted := upsertInstallation_repositories db external
    (installationStatus action now external)
  unfold applyInstallation
  dsimp only
  split
  · rw [← upserted]
    exact .revoke _ _ now
  · split
    · rw [joinSender_repositories, upserted]
      exact .refl _
    · rw [upserted]
      exact .refl _

theorem applyRepositoryAccess_quieter {now : Timestamp} {external : GitHub.Installation}
    {added : List GitHub.Repository} {removed : List Nat}
    (applied : applyRepositoryAccess db now external added removed = some stored) :
    Quieter db.repositories stored.repositories := by
  rw [flushRepositories_eq applied, ← upsertInstallation_repositories db external id]
  exact (Quieter.revoke _ _ now).trans (addRepositories_quieter _ _ _ _)

theorem deleteRepository_quieter (db : Database) (now : Timestamp) (githubInstallationId : Nat)
    (external : GitHub.Repository) :
    Quieter db.repositories
      (deleteRepository db now githubInstallationId external).repositories := by
  unfold deleteRepository
  split
  · exact .refl _
  · exact .updateWhere _ (fun _ => rfl) fun row indexing => by
      simp [revokedRepository_quiet] at indexing

theorem pushTo_backed (backed : Backed db) (now : Timestamp) (deliveryRow : DeliveryRowId)
    (repository : Repository) (ref : String) (before after : CommitSha) (forced deleted : Bool) :
    Backed (pushTo db now deliveryRow repository ref before after forced deleted).2 := by
  unfold pushTo
  dsimp only
  split
  · exact backed
  · split
    · exact backed
    · split
      · exact backed.quieter (.updateWhere _ (fun _ => rfl) fun _ => id) (.refl _)
      · split
        · exact backed
        · exact backed.insertJob (.refl _) rfl (fun _ => rfl) rfl rfl

theorem applyPush_backed (backed : Backed db) (now : Timestamp) (deliveryRow : DeliveryRowId)
    (githubInstallationId githubRepositoryId : Nat) (ref : String) (before after : CommitSha)
    (forced deleted : Bool) :
    Backed (applyPush db now deliveryRow githubInstallationId githubRepositoryId ref before after
      forced deleted).2 := by
  unfold applyPush
  split
  · exact backed
  · split
    · exact backed
    · exact pushTo_backed backed now deliveryRow _ ref before after forced deleted

theorem applyRepositoryMetadata_backed {now : Timestamp} {deliveryRow : DeliveryRowId}
    {githubInstallationId : Nat} {external : GitHub.Repository} {job : Option JobId}
    (backed : Backed db) (repositoryIds : UniqueKey (·.id) db.repositories)
    (applied : applyRepositoryMetadata db now deliveryRow githubInstallationId external =
      some (job, stored)) : Backed stored := by
  unfold applyRepositoryMetadata at applied
  split at applied
  · cases applied
    exact backed
  · split at applied
    · cases applied
      exact backed
    case h_2 repository found =>
      dsimp only at applied
      simp only [Option.map_eq_some_iff] at applied
      obtain ⟨described, flushed, same⟩ := applied
      rw [flushRepositories_eq flushed] at same
      have sameId : ∀ row, (metadataRepository external row).id = row.id :=
        fun row => (metadataRepository_kept external row).id
      split at same
      case isTrue =>
          cases same
          exact backed.insertJob (.refl _) rfl sameId rfl (sameId repository)
      case isFalse unchanged =>
          cases same
          refine backed.quieter ?_ (.refl _)
          intro row member indexing
          obtain ⟨prior, priorMember, rfl⟩ := mem_updateWhere.mp member
          refine ⟨prior, priorMember, ?_, ?_⟩
          · split
            · exact (sameId prior).symm
            · rfl
          · split at indexing
            case isTrue here =>
                -- the updated row is the one whose branch was compared
                have read : prior = repository := repositoryIds.row_eq priorMember
                  (List.mem_of_find?_eq_some found) (by simpa using here)
                rw [read] at indexing ⊢
                simpa [metadataRepository, not_not.mp unchanged] using indexing
            case isFalse => exact indexing

theorem applyEvent_backed {now : Timestamp} {deliveryRow : DeliveryRowId} {event : WebhookEvent}
    {job : Option JobId} (backed : Backed db) (repositoryIds : UniqueKey (·.id) db.repositories)
    (applied : applyEvent db now deliveryRow event = some (job, stored)) : Backed stored := by
  cases event with
  | installation action external sender =>
      cases applied
      refine backed.quieter (applyInstallation_quieter db now action external sender) ?_
      rw [(applyInstallation_effect db now action external sender).jobs]
      exact .refl _
  | repositoryAccess external added removed =>
      simp only [applyEvent, Option.map_eq_some_iff, Prod.mk.injEq] at applied
      obtain ⟨_, accessed, _, rfl⟩ := applied
      refine backed.quieter (applyRepositoryAccess_quieter accessed) ?_
      rw [(applyRepositoryAccess_effect accessed).jobs]
      exact .refl _
  | push githubInstallationId githubRepositoryId ref before after forced deleted =>
      have pushed := applyPush_backed backed now deliveryRow githubInstallationId
        githubRepositoryId ref before after forced deleted
      rw [Option.some.inj applied] at pushed
      exact pushed
  | repositoryDeleted githubInstallationId external =>
      cases applied
      refine backed.quieter (deleteRepository_quieter db now githubInstallationId external) ?_
      rw [(deleteRepository_effect db now githubInstallationId external).jobs]
      exact .refl _
  | repositoryMetadata githubInstallationId external =>
      exact applyRepositoryMetadata_backed backed repositoryIds applied
  | unsupported =>
      cases applied
      exact backed

theorem handle_backed {now : Timestamp} {deliveryId eventName : String}
    {payload : GitHub.WebhookPayload} {outcome : WebhookOutcome} {job : Option JobId}
    (backed : Backed db) (repositoryIds : UniqueKey (·.id) db.repositories)
    (handled : handle db now deliveryId eventName payload = some (outcome, job, stored)) :
    Backed stored := by
  unfold handle at handled
  split at handled
  · cases handled
  · split at handled
    · cases handled
      exact backed
    · simp only [Option.map_eq_some_iff] at handled
      obtain ⟨⟨created, applied⟩, event, same⟩ := handled
      cases same
      have received : Backed (receiveDelivery db now deliveryId eventName payload) := backed
      have kept : Backed applied := applyEvent_backed received repositoryIds event
      exact kept

/-! ## Repository services -/

theorem listedRepository_quiet (external : GitHub.Repository) (row : Repository)
    (indexing : isIndexingStatus (listedRepository external row).indexingStatus = true) :
    isIndexingStatus row.indexingStatus = true :=
  restoredRepository_quiet _ indexing

theorem upsertRepository_quieter {installationId : InstallationId} {external : GitHub.Repository}
    (upserted : upsertRepository installationId db external = some stored) :
    Quieter db.repositories stored.repositories := by
  unfold upsertRepository at upserted
  split at upserted
  · rw [flushRepositories_eq upserted]
    exact .updateWhere _ (fun _ => rfl) (listedRepository_quiet external)
  · rw [flushRepositories_eq upserted]
    exact .insert rfl

theorem upsertRepositories_quieter {installationId : InstallationId}
    (externals : List GitHub.Repository) {db stored : Database}
    (upserted : externals.foldlM (upsertRepository installationId) db = some stored) :
    Quieter db.repositories stored.repositories := by
  induction externals generalizing db with
  | nil =>
      cases upserted
      exact .refl _
  | cons external rest ih =>
      simp only [List.foldlM_cons, Option.bind_eq_bind, Option.bind_eq_some_iff] at upserted
      obtain ⟨middle, first, later⟩ := upserted
      exact (upsertRepository_quieter first).trans (ih later)

theorem synchronizeRepositories_backed {settings : Settings} {now : Timestamp} {userId : UserId}
    {installationId : InstallationId} {externals : List GitHub.Repository} (backed : Backed db)
    (synchronized : synchronizeRepositories settings db now userId installationId externals =
      some stored) : Backed stored := by
  have jobs := (synchronizeRepositories_effect synchronized).jobs
  unfold synchronizeRepositories at synchronized
  split at synchronized
  · cases synchronized
  · simp only [Option.map_eq_some_iff] at synchronized
    obtain ⟨listed, upserted, rfl⟩ := synchronized
    refine backed.quieter ((upsertRepositories_quieter externals upserted).trans ?_)
      (jobs ▸ .refl _)
    exact .revoke _ _ now

theorem revokePublicAccess_backed (backed : Backed db) (now : Timestamp)
    (repositoryId : RepositoryId) : Backed (revokePublicAccess db now repositoryId) := by
  refine backed.quieter (.updateWhere _ (fun _ => rfl) fun row indexing => ?_) (.refl _)
  simp [revokedValues, isIndexingStatus] at indexing

theorem revalidatePublic_backed (backed : Backed db) (now : Timestamp) (userId : UserId)
    (repositoryId : RepositoryId) (answer : PublicAnswer) :
    Backed (revalidatePublic db now userId repositoryId answer) := by
  unfold revalidatePublic
  split
  · exact backed
  · split
    · exact revokePublicAccess_backed backed now repositoryId
    · split
      · exact revokePublicAccess_backed backed now repositoryId
      · split
        · exact backed.quieter (.updateWhere _ (fun _ => rfl) fun _ => id) (.refl _)
        · exact backed

theorem selectRepository_backed {settings : Settings} {now : Timestamp} {userId : UserId}
    {installationId : InstallationId} {repositoryId : RepositoryId} {job : JobId}
    (backed : Backed db)
    (selected : selectRepository settings db now userId installationId repositoryId =
      some (job, stored)) : Backed stored := by
  cases selectRepository_outcome selected with
  | reused _ database => exact database ▸ backed
  | queued _ _ _ database =>
      rw [database]
      exact backed.insertJob (.refl _) rfl (fun _ => rfl) rfl rfl

theorem reindex_backed {now : Timestamp} {userId : UserId} {repositoryId : RepositoryId}
    {job : JobId} (backed : Backed db)
    (reindexed : reindex db now userId repositoryId = some (job, stored)) : Backed stored := by
  obtain ⟨repository, -, rfl⟩ := reindex_queued reindexed
  exact backed.insertJob (.refl _) rfl (fun _ => rfl) rfl rfl

theorem importRow_quieter (db : Database) (now : Timestamp) (metadata : GitHub.PublicRepository) :
    Quieter db.repositories (importRow db now metadata).2.repositories := by
  unfold importRow
  split
  · exact .updateWhere _ (fun _ => rfl) fun _ => id
  · exact .insert rfl

theorem attach_backed {settings : Settings} {now : Timestamp} {userId : UserId}
    {metadata : GitHub.PublicRepository} {expectedRepositoryId : Option RepositoryId}
    {manual : Bool} {result : AttachResult} (backed : Backed db)
    (accepted : attach settings db now userId metadata expectedRepositoryId manual =
      some (result, stored)) : Backed stored := by
  have joined : ∀ member, Quieter db.repositories
      (importJoined db now metadata member userId).repositories := by
    intro member
    rw [importJoined, joinUser_repositories]
    exact importRow_quieter db now metadata
  have jobs : ∀ member, (importJoined db now metadata member userId).indexingJobs =
      db.indexingJobs := by
    intro member
    rw [importJoined, joinUser_jobs]
    exact (importRow_effect db now metadata).1.jobs
  cases attach_outcome accepted with
  | joined member database =>
      rw [database]
      exact backed.quieter (joined member) ((jobs member).symm ▸ .refl _)
  | queued member _ database =>
      rw [database]
      exact backed.insertJob (joined member) (jobs member) (fun _ => rfl) rfl rfl

theorem signInInstallations_repositories (now : Timestamp) (userId : UserId) (githubUserId : Nat)
    (externals : List GitHub.Installation) (state : List InstallationId × Database) :
    (externals.foldl (signInInstallation now userId githubUserId) state).2.repositories =
      state.2.repositories := by
  induction externals generalizing state with
  | nil => rfl
  | cons external rest ih =>
      rw [List.foldl_cons, ih]
      exact upsertInstallation_repositories _ _ _

theorem synchronizeGithubLogin_backed (backed : Backed db) (now : Timestamp)
    (resolved : Option UserId) (githubUser : GitHub.User)
    (installations : List GitHub.Installation) :
    Backed (synchronizeGithubLogin db now resolved githubUser installations) := by
  refine backed.quieter ?_ ?_
  · simp only [synchronizeGithubLogin, signInInstallations_repositories]
    exact .refl _
  · rw [(synchronizeGithubLogin_effect db now resolved githubUser installations).jobs]
    exact .refl _

/-- No service leaves a repository in progress without a job. -/
theorem Operation.service_backed {settings : Settings} {platform : Platform} {moment : Moment}
    {operation : Operation} (backed : Backed db)
    (repositoryIds : UniqueKey (·.id) db.repositories) (service : operation.cause = .service) :
    Backed (operation.apply settings platform moment db) := by
  cases operation with
  | claim jobId workerId => cases service
  | store claimed workerId call => cases call <;> cases service
  | recoverAbandoned => cases service
  | markEnqueued jobId => cases service
  | recordEnqueued jobId => cases service
  | handle deliveryId eventName payload =>
      simp only [Operation.apply]
      cases handled : Services.handle db moment.now deliveryId eventName payload with
      | none => exact backed
      | some result => exact handle_backed backed repositoryIds handled
  | recordQueueFailure deliveryRow => exact backed
  | synchronizeRepositories userId installationId externals =>
      simp only [Operation.apply]
      cases synchronized : Services.synchronizeRepositories settings db moment.now userId
          installationId externals with
      | none => exact backed
      | some stored => exact synchronizeRepositories_backed backed synchronized
  | revalidatePublic userId repositoryId answer =>
      exact revalidatePublic_backed backed moment.now userId repositoryId answer
  | revokePublic repositoryId => exact revokePublicAccess_backed backed moment.now repositoryId
  | selectRepository userId installationId repositoryId =>
      simp only [Operation.apply]
      cases selected : Services.selectRepository settings db moment.now userId installationId
          repositoryId with
      | none => exact backed
      | some result => exact selectRepository_backed backed selected
  | reindex userId repositoryId =>
      simp only [Operation.apply]
      cases reindexed : Services.reindex db moment.now userId repositoryId with
      | none => exact backed
      | some result => exact reindex_backed backed reindexed
  | attach userId metadata expectedRepositoryId manual =>
      simp only [Operation.apply]
      cases accepted : Services.attach settings db moment.now userId metadata
          expectedRepositoryId manual with
      | none => exact backed
      | some result => exact attach_backed backed accepted
  | githubLogin resolved githubUser installations =>
      exact synchronizeGithubLogin_backed backed moment.now resolved githubUser installations
  | googleLogin resolved =>
      simp only [Operation.apply, synchronizeGoogleLogin]
      split <;> exact backed

end Service

/-! ## Workers and the reconciler -/

section Work

variable {db : Database}

theorem heldBy_live {claimed : ClaimedJob} {workerId : WorkerId} {job : IndexingJob}
    (held : heldBy claimed workerId job = true) : live job = true := by
  simp [live, (heldBy_iff.mp held).2.1]

/-- The transactions after which a live job may have ended. -/
def Cause.ends : Cause → Bool
  | .activate _ _ | .cancel _ _ | .fail _ _ | .recover => true
  | .claim _ _ | .authorize _ | .work | .service => false

theorem JobStep.live_kept {cause : Cause} {old new : IndexingJob} (step : JobStep cause old new)
    (alive : live old = true)
    (unended : cause.ends = true → new.status = .retrying ∨ new.status = old.status) :
    live new = true := by
  have same : new.status = old.status → live new = true := by
    intro status
    simpa [live, status] using alive
  have retried : new.status = .retrying → live new = true := by
    intro status
    simp [live, status]
  cases step with
  | kept _ claim => exact same claim.status
  | claimed _ _ _ running => simp [live, running]
  | targeted _ _ _ status => exact same status
  | completed => exact (unended rfl).elim retried same
  | cancelled => exact (unended rfl).elim retried same
  | failed => exact (unended rfl).elim retried same
  | recovered => exact (unended rfl).elim retried same

theorem Continued.work {cause : Cause} {Fresh : IndexingJob → Prop} {old new : List IndexingJob}
    (jobs : Evolves (·.id) (JobStep cause) Fresh old new) (lasting : cause.ends = false) :
    Continued old new := by
  intro job member alive
  obtain ⟨next, nextMember, step, _⟩ := jobs.successor member
  exact ⟨next, nextMember, step.live_kept alive (by simp [lasting]), step.request.repositoryId⟩

/-- Jobs that the ended claim does not hold continue. -/
theorem continued_apart {claimed : ClaimedJob} {workerId : WorkerId} {held : IndexingJob}
    (jobIds : UniqueKey (·.id) db.indexingJobs)
    (found : db.indexingJobs.find? (heldBy claimed workerId) = some held)
    {change : IndexingJob → IndexingJob} {job : IndexingJob} (member : job ∈ db.indexingJobs)
    (alive : live job = true) (apart : job.repositoryId ≠ held.repositoryId) :
    ∃ next ∈ updateWhere (heldBy claimed workerId) change db.indexingJobs, live next = true ∧
      next.repositoryId = job.repositoryId := by
  obtain ⟨heldMember, matched⟩ := held_of_find found
  refine ⟨job, mem_updateWhere.mpr ⟨job, member, if_neg ?_⟩, alive, rfl⟩
  intro also
  have same := jobIds.row_eq member heldMember
    ((heldBy_iff.mp also).1.trans (heldBy_iff.mp matched).1.symm)
  exact apart (congrArg IndexingJob.repositoryId same)

end Work

end Codenaut.Services
