import Codenaut.Services.Effects
import Codenaut.Services.IndexingJobs.Endings

/-!
# Effects of the claiming and ending transactions

What each job-store transaction outside the build lifecycle does to jobs and
repositories. None of them touches the build and graph tables.
-/

set_option autoImplicit false

namespace Codenaut.Services

open Codenaut.Core Codenaut.Db Codenaut.Relational

/-! ## Ownership -/

theorem heldBy_iff {claimed : ClaimedJob} {workerId : WorkerId} {job : IndexingJob} :
    heldBy claimed workerId job = true ↔
      job.id = claimed.id ∧ job.status = .running ∧ job.lockedBy = some workerId := by
  simp [heldBy, and_assoc]

/-- The row an ownership guard selects. -/
theorem held_of_find {db : Database} {claimed : ClaimedJob} {workerId : WorkerId}
    {job : IndexingJob} (found : db.indexingJobs.find? (heldBy claimed workerId) = some job) :
    job ∈ db.indexingJobs ∧ heldBy claimed workerId job = true :=
  ⟨List.mem_of_find?_eq_some found, List.find?_some found⟩

theorem repository?_mem {db : Database} {id : RepositoryId} {row : Repository}
    (found : db.repository? id = some row) : row ∈ db.repositories ∧ row.id = id :=
  ⟨List.mem_of_find?_eq_some found, by simpa using List.find?_some found⟩

theorem job?_eq_some {db : Database} (unique : UniqueKey (·.id) db.indexingJobs)
    {job : IndexingJob} (member : job ∈ db.indexingJobs) : db.job? job.id = some job :=
  find?_eq_some_of_unique unique member (by simp) (by simp)

theorem repository?_eq_some {db : Database} (unique : UniqueKey (·.id) db.repositories)
    {row : Repository} (member : row ∈ db.repositories) : db.repository? row.id = some row :=
  find?_eq_some_of_unique unique member (by simp) (by simp)

/-- Under unique job ids, the guarded selection finds the held job itself. -/
theorem find_held {db : Database} (unique : UniqueKey (·.id) db.indexingJobs)
    {claimed : ClaimedJob} {workerId : WorkerId} {job : IndexingJob}
    (member : job ∈ db.indexingJobs) (held : heldBy claimed workerId job = true) :
    db.indexingJobs.find? (heldBy claimed workerId) = some job := by
  refine find?_eq_some_of_unique unique member held fun other otherHeld => ?_
  exact (heldBy_iff.mp otherHeld).1.trans (heldBy_iff.mp held).1.symm

/-! ## Claiming and following a job -/

theorem claim_effect (db : Database) (now : Timestamp) (jobId : JobId) (workerId : WorkerId) :
    WorkerEffect (.claim jobId workerId) db (claim db now jobId workerId).2 := by
  unfold claim
  split
  · exact .refl db
  · split
    · exact .refl db
    · refine ⟨.updateWhere .refl ?_ fun _ => rfl,
        .updateWhere .refl (fun _ _ _ => .unmoved ⟨⟨rfl, rfl, rfl, rfl, rfl, rfl, rfl, rfl⟩, rfl, rfl⟩)
          fun _ => rfl, rfl, rfl, rfl⟩
      intro row _ matched
      simp only [claimable, Bool.and_eq_true, Bool.or_eq_true, beq_iff_eq] at matched
      exact .claimed ⟨rfl, rfl, rfl, rfl, rfl, rfl, rfl⟩ matched.1.1 matched.1.2 rfl rfl rfl rfl

/-- A successful claim takes a due job of a repository with no running job. -/
theorem claim_ok {db stored : Database} {now : Timestamp} {jobId : JobId} {workerId : WorkerId}
    {claimed : ClaimedJob} (success : claim db now jobId workerId = (some claimed, stored)) :
    ∃ job, db.indexingJobs.find? (claimable jobId now) = some job ∧
      runningElsewhere db job = false ∧
      claimed = ⟨job.id, job.repositoryId, job.attempt + 1⟩ ∧
      stored.indexingJobs =
        updateWhere (claimable jobId now) (claimValues workerId now) db.indexingJobs := by
  unfold claim at success
  split at success
  · cases success
  case h_2 job found =>
    split at success
    · cases success
    case isFalse alone =>
      simp only [Prod.mk.injEq, Option.some.injEq] at success
      obtain ⟨rfl, rfl⟩ := success
      exact ⟨job, found, by simpa using alone, rfl, rfl⟩

theorem claim_none {db stored : Database} {now : Timestamp} {jobId : JobId} {workerId : WorkerId}
    (refused : claim db now jobId workerId = (none, stored)) : stored = db := by
  unfold claim at refused
  split at refused
  · cases refused
    rfl
  · split at refused <;> cases refused
    rfl

theorem claim_buildsKept (db : Database) (now : Timestamp) (jobId : JobId) (workerId : WorkerId) :
    BuildsKept db (claim db now jobId workerId).2 := by
  unfold claim
  split
  · exact .refl db
  · split
    · exact .refl db
    · exact ⟨rfl, rfl, rfl⟩

theorem authorizedContext_effect (settings : Settings) (db : Database) (now : Timestamp)
    (claimed : ClaimedJob) (unique : UniqueKey (·.id) db.indexingJobs) :
    WorkerEffect (.authorize claimed) db (authorizedContext settings db now claimed).2 := by
  unfold authorizedContext
  split
  · exact .refl db
  case h_2 job found =>
    split
    · exact .refl db
    · dsimp only
      split
      · have member := List.mem_of_find?_eq_some found
        have matched := List.find?_some found
        simp only [Bool.and_eq_true, beq_iff_eq] at matched
        refine ⟨.updateRow .refl unique member ?_ fun _ => rfl, .refl .refl, rfl, rfl, rfl⟩
        refine .targeted ⟨rfl, rfl, rfl, rfl, rfl, rfl, rfl⟩ matched.1 matched.2 rfl rfl rfl ?_
        intro target fixed
        simp [fixed]
      · exact .refl db

/-- The rows that a successful authorization read, and what it stored. -/
structure Authorized (settings : Settings) (db stored : Database) (now : Timestamp)
    (claimed : ClaimedJob) (job : IndexingJob) (repository : Repository)
    (context : JobContext) : Prop where
  member : job ∈ db.indexingJobs
  sameJob : job.id = claimed.id
  running : job.status = .running
  located : db.repository? job.repositoryId = some repository
  access : accessGranted repository (repository.installationId.bind db.installation?) = true
  membership : memberGranted settings db now job repository
    (repository.installationId.bind db.installation?) = true
  contents : context = contextOf claimed job repository
    (repository.installationId.bind db.installation?)
    (job.targetIndexVersion.getD (repository.indexVersion + 1))
  stored : stored = db.updateJobs (·.id == job.id) fun row =>
    { row with targetIndexVersion := some context.indexVersion }

theorem authorizedContext_some {settings : Settings} {db stored : Database} {now : Timestamp}
    {claimed : ClaimedJob} {context : JobContext}
    (success : authorizedContext settings db now claimed = (some context, stored)) :
    ∃ job repository, Authorized settings db stored now claimed job repository context := by
  unfold authorizedContext at success
  split at success
  case h_1 => cases success
  case h_2 job found =>
      have matched := List.find?_some found
      simp only [Bool.and_eq_true, beq_iff_eq] at matched
      split at success
      case h_1 => cases success
      case h_2 repository located =>
          dsimp only at success
          split at success
          case isFalse => cases success
          case isTrue granted =>
              cases success
              simp only [Bool.and_eq_true] at granted
              exact ⟨job, repository, List.mem_of_find?_eq_some found, matched.1, matched.2,
                located, granted.1, granted.2, rfl, rfl⟩

/-- A held job of an accessible repository with a fresh membership is authorized. -/
theorem authorizedContext_granted {settings : Settings} {db : Database} {now : Timestamp}
    {claimed : ClaimedJob} {workerId : WorkerId} {job : IndexingJob} {repository : Repository}
    (jobIds : UniqueKey (·.id) db.indexingJobs) (member : job ∈ db.indexingJobs)
    (held : heldBy claimed workerId job = true)
    (located : db.repository? job.repositoryId = some repository)
    (access : accessGranted repository (repository.installationId.bind db.installation?) = true)
    (membership : memberGranted settings db now job repository
      (repository.installationId.bind db.installation?) = true) :
    (authorizedContext settings db now claimed).1.isSome = true := by
  obtain ⟨sameJob, running, _⟩ := heldBy_iff.mp held
  have found : db.indexingJobs.find? (fun row => row.id == claimed.id && row.status == .running) =
      some job := by
    refine find?_eq_some_of_unique jobIds member (by simp [sameJob, running]) fun other also => ?_
    simp only [Bool.and_eq_true, beq_iff_eq] at also
    exact also.1.trans sameJob.symm
  simp [authorizedContext, found, located, access, membership]

theorem authorizedContext_buildsKept (settings : Settings) (db : Database) (now : Timestamp)
    (claimed : ClaimedJob) : BuildsKept db (authorizedContext settings db now claimed).2 := by
  unfold authorizedContext
  split
  · exact .refl db
  · split
    · exact .refl db
    · dsimp only
      split
      · exact ⟨rfl, rfl, rfl⟩
      · exact .refl db

theorem revokePublicAccess_effect {cause : Cause} (db : Database) (now : Timestamp)
    (repositoryId : RepositoryId) :
    WorkerEffect cause db (revokePublicAccess db now repositoryId) :=
  ⟨.refl .refl, .updateWhere .refl
    (fun _ _ _ => .unmoved ⟨⟨rfl, rfl, rfl, rfl, rfl, rfl, rfl, rfl⟩, rfl, rfl⟩) fun _ => rfl,
    rfl, rfl, rfl⟩

theorem heartbeat_effect {cause : Cause} (db : Database) (now : Timestamp) (claimed : ClaimedJob)
    (workerId : WorkerId) : WorkerEffect cause db (heartbeat db now claimed workerId) :=
  ⟨.updateWhere .refl
    (fun _ _ _ => .kept ⟨rfl, rfl, rfl, rfl, rfl, rfl, rfl⟩ ⟨rfl, rfl, rfl, rfl, rfl⟩)
    fun _ => rfl,
    .refl .refl, rfl, rfl, rfl⟩

theorem markStale_effect (db : Database) (now : Timestamp) (claimed : ClaimedJob)
    (workerId : WorkerId) (code : String) (superseded : Bool) :
    WorkerEffect (.cancel claimed workerId) db
      (markStale db now claimed workerId code superseded) := by
  unfold markStale
  split
  · exact .refl db
  · obtain ⟨deliveries, same⟩ := updateFirstDelivery_eq _ _ _
    rw [same]
    refine ⟨.updateWhere .refl ?_ fun _ => rfl, .refl .refl, rfl, rfl, rfl⟩
    intro row _ held
    exact .cancelled held ⟨⟨rfl, rfl, rfl, rfl, rfl, rfl, rfl⟩, rfl, rfl, rfl⟩ rfl rfl

theorem markStale_buildsKept (db : Database) (now : Timestamp) (claimed : ClaimedJob)
    (workerId : WorkerId) (code : String) (superseded : Bool) :
    BuildsKept db (markStale db now claimed workerId code superseded) := by
  unfold markStale
  split
  · exact .refl db
  · obtain ⟨deliveries, same⟩ := updateFirstDelivery_eq _ _ _
    rw [same]
    exact ⟨rfl, rfl, rfl⟩

theorem recordFreshnessPlan_effect {cause : Cause} (db : Database) (claimed : ClaimedJob)
    (workerId : WorkerId) (actualMode : IndexingMode) (fallbackReason : Option String)
    (changedCounts : List (String × Nat)) (changedFileCount : Nat) :
    WorkerEffect cause db (recordFreshnessPlan db claimed workerId actualMode fallbackReason
      changedCounts changedFileCount) :=
  ⟨.updateWhere .refl
    (fun _ _ _ => .kept ⟨rfl, rfl, rfl, rfl, rfl, rfl, rfl⟩ ⟨rfl, rfl, rfl, rfl, rfl⟩)
    fun _ => rfl,
    .refl .refl, rfl, rfl, rfl⟩

theorem stage_effect {cause : Cause} (db : Database) (now : Timestamp) (claimed : ClaimedJob)
    (workerId : WorkerId) (status : RepositoryIndexingStatus) (stageName : String)
    (progress : Nat) (commitSha : Option CommitSha) :
    WorkerEffect cause db
      (stage db now claimed workerId status stageName progress commitSha) := by
  unfold stage
  split
  · exact .refl db
  · exact ⟨.updateWhere .refl
      (fun _ _ _ => .kept ⟨rfl, rfl, rfl, rfl, rfl, rfl, rfl⟩ ⟨rfl, rfl, rfl, rfl, rfl⟩)
    fun _ => rfl,
      .updateWhere .refl
        (fun _ _ _ => .unmoved ⟨⟨rfl, rfl, rfl, rfl, rfl, rfl, rfl, rfl⟩, rfl, rfl⟩) fun _ => rfl,
      rfl, rfl, rfl⟩

theorem stage_buildsKept (db : Database) (now : Timestamp) (claimed : ClaimedJob)
    (workerId : WorkerId) (status : RepositoryIndexingStatus) (stageName : String)
    (progress : Nat) (commitSha : Option CommitSha) :
    BuildsKept db (stage db now claimed workerId status stageName progress commitSha) := by
  unfold stage
  split
  · exact .refl db
  · exact ⟨rfl, rfl, rfl⟩

/-! ## Ending a job -/

theorem cancelRevoked_jobs (db : Database) (now : Timestamp) (claimed : ClaimedJob)
    (workerId : WorkerId) : (cancelRevoked db now claimed workerId).indexingJobs =
      updateWhere (heldBy claimed workerId) (revokedJob now) db.indexingJobs := by
  unfold cancelRevoked
  split
  case h_1 absent =>
      exact (updateWhere_eq_self fun job member => by
        simpa using List.find?_eq_none.mp absent job member).symm
  case h_2 job found =>
      obtain ⟨deliveries, same⟩ := updateFirstDelivery_eq _ _ _
      rw [same]
      rfl

theorem cancelRevoked_effect (db : Database) (now : Timestamp) (claimed : ClaimedJob)
    (workerId : WorkerId) :
    WorkerEffect (.cancel claimed workerId) db (cancelRevoked db now claimed workerId) := by
  unfold cancelRevoked
  split
  · exact .refl db
  · obtain ⟨deliveries, same⟩ := updateFirstDelivery_eq _ _ _
    rw [same]
    refine ⟨.updateWhere .refl ?_ fun _ => rfl, .updateWhere .refl
      (fun _ _ _ => .unmoved ⟨⟨rfl, rfl, rfl, rfl, rfl, rfl, rfl, rfl⟩, rfl, rfl⟩) fun _ => rfl,
      rfl, rfl, rfl⟩
    intro row _ held
    exact .cancelled held ⟨⟨rfl, rfl, rfl, rfl, rfl, rfl, rfl⟩, rfl, rfl, rfl⟩ rfl rfl

theorem cancelRevoked_buildsKept (db : Database) (now : Timestamp) (claimed : ClaimedJob)
    (workerId : WorkerId) : BuildsKept db (cancelRevoked db now claimed workerId) := by
  unfold cancelRevoked
  split
  · exact .refl db
  · obtain ⟨deliveries, same⟩ := updateFirstDelivery_eq _ _ _
    rw [same]
    exact ⟨rfl, rfl, rfl⟩

private theorem failedJob_status (settings : Settings) (now : Timestamp) (claimed : ClaimedJob)
    (code safeMessage : String) (retry : Bool) (jitter : Nat) (job : IndexingJob) :
    (failedJob settings now claimed code safeMessage retry jitter job).status = .retrying ∨
      (failedJob settings now claimed code safeMessage retry jitter job).status = .failed := by
  cases retry <;> simp [failedJob]

private theorem failedJob_ended (settings : Settings) (now : Timestamp) (claimed : ClaimedJob)
    (code safeMessage : String) (retry : Bool) (jitter : Nat) (job : IndexingJob)
    (failed : (failedJob settings now claimed code safeMessage retry jitter job).status = .failed) :
    (failedJob settings now claimed code safeMessage retry jitter job).completedAt.isSome = true := by
  cases retry <;> simp_all [failedJob]

theorem fail_effect (settings : Settings) (db : Database) (now : Timestamp) (jitter : Nat)
    (claimed : ClaimedJob) (workerId : WorkerId) (code safeMessage : String) (retryable : Bool) :
    WorkerEffect (.fail claimed workerId) db
      (fail settings db now jitter claimed workerId code safeMessage retryable).2 := by
  unfold fail
  dsimp only
  split
  · exact .refl db
  · obtain ⟨deliveries, same⟩ := updateFirstDelivery_eq _ _ _
    rw [same]
    refine ⟨.updateWhere .refl ?_ fun _ => rfl, .updateWhere .refl
      (fun _ _ _ => .unmoved ⟨⟨rfl, rfl, rfl, rfl, rfl, rfl, rfl, rfl⟩, rfl, rfl⟩) fun _ => rfl,
      rfl, rfl, rfl⟩
    intro row _ held
    exact .failed held ⟨⟨rfl, rfl, rfl, rfl, rfl, rfl, rfl⟩, rfl, rfl, rfl⟩
      (failedJob_status _ _ _ _ _ _ _ _) (failedJob_ended _ _ _ _ _ _ _ _)

theorem fail_buildsKept (settings : Settings) (db : Database) (now : Timestamp) (jitter : Nat)
    (claimed : ClaimedJob) (workerId : WorkerId) (code safeMessage : String) (retryable : Bool) :
    BuildsKept db
      (fail settings db now jitter claimed workerId code safeMessage retryable).2 := by
  unfold fail
  dsimp only
  split
  · exact .refl db
  · obtain ⟨deliveries, same⟩ := updateFirstDelivery_eq _ _ _
    rw [same]
    exact ⟨rfl, rfl, rfl⟩

/-! ## Recovery -/

/-- The recovery loop is one update of the selected jobs. -/
theorem recover_jobs (settings : Settings) (now : Timestamp) (jobs : List IndexingJob)
    (db : Database) : (jobs.foldl (recoverJob settings now) db).indexingJobs =
      updateWhere (fun row => (jobs.map (·.id)).contains row.id) (recoveredJob settings now)
        db.indexingJobs := by
  induction jobs generalizing db with
  | nil => simp [updateWhere]
  | cons job rest ih =>
      rw [List.foldl_cons, ih]
      simp only [recoverJob, Database.updateDeliveries, Database.updateRepositories,
        Database.updateJobs, updateWhere, List.map_map]
      apply List.map_congr_left
      intro row _
      by_cases here : row.id = job.id <;> by_cases later : row.id ∈ rest.map (·.id) <;>
        simp_all [recoveredJob]

private theorem recover_frame (settings : Settings) (now : Timestamp) (jobs : List IndexingJob)
    (db : Database) :
    BuildsKept db (jobs.foldl (recoverJob settings now) db) ∧
      Evolves (·.id) (fun old new => RepositoryUnmoved old new) (fun _ => False) db.repositories
        (jobs.foldl (recoverJob settings now) db).repositories ∧
      (jobs.foldl (recoverJob settings now) db).githubInstallations = db.githubInstallations ∧
      (jobs.foldl (recoverJob settings now) db).installationMembers = db.installationMembers ∧
      (jobs.foldl (recoverJob settings now) db).userRepositories = db.userRepositories := by
  induction jobs generalizing db with
  | nil => exact ⟨.refl db, .refl .refl, rfl, rfl, rfl⟩
  | cons job rest ih =>
      obtain ⟨builds, repositories, installations, members, attachments⟩ :=
        ih (recoverJob settings now db job)
      have first : Evolves (·.id) (fun old new => RepositoryUnmoved old new) (fun _ => False)
          db.repositories (recoverJob settings now db job).repositories :=
        .updateWhere .refl
          (fun _ _ _ => ⟨⟨rfl, rfl, rfl, rfl, rfl, rfl, rfl, rfl⟩, rfl, rfl⟩) fun _ => rfl
      have kept : BuildsKept db (recoverJob settings now db job) := ⟨rfl, rfl, rfl⟩
      refine ⟨kept.trans builds, ?_, installations, members, attachments⟩
      refine .trans ?_ (fun _ _ impossible _ => impossible.elim) first repositories
      intro start middle last left right
      exact ⟨left.toSameIndex.trans right.toSameIndex, right.generation.trans left.generation,
        right.branch.trans left.branch⟩

theorem recoverAbandoned_effect (settings : Settings) (db : Database) (now : Timestamp)
    (unique : UniqueKey (·.id) db.indexingJobs) :
    WorkerEffect .recover db (recoverAbandoned settings db now).2 := by
  obtain ⟨_, repositories, installations, members, attachments⟩ :=
    recover_frame settings now (db.indexingJobs.filter (abandoned settings now)) db
  refine ⟨?_, repositories.mono (fun _ _ => .unmoved) (fun _ => id), installations, members,
    attachments⟩
  simp only [recoverAbandoned, recover_jobs]
  refine .updateWhere .refl ?_ fun _ => rfl
  intro row member selected
  have running : row.status = .running := by
    simp only [List.contains_eq_mem, decide_eq_true_eq, List.mem_map, List.mem_filter] at selected
    obtain ⟨job, ⟨jobMember, stale⟩, same⟩ := selected
    have equal := unique.row_eq jobMember member same
    subst equal
    simp only [abandoned, Bool.and_eq_true, beq_iff_eq] at stale
    exact stale.1
  refine .recovered running ⟨⟨rfl, rfl, rfl, rfl, rfl, rfl, rfl⟩, rfl, rfl, rfl⟩ ?_ ?_ <;>
    by_cases retry : row.attempt < settings.workerMaxAttempts <;> simp [recoveredJob, retry]

theorem recoverAbandoned_buildsKept (settings : Settings) (db : Database) (now : Timestamp) :
    BuildsKept db (recoverAbandoned settings db now).2 :=
  (recover_frame settings now (db.indexingJobs.filter (abandoned settings now)) db).1

theorem markEnqueued_effect {cause : Cause} (db : Database) (now : Timestamp) (jobId : JobId) :
    WorkerEffect cause db (markEnqueued db now jobId) :=
  ⟨.updateWhere .refl
    (fun _ _ _ => .kept ⟨rfl, rfl, rfl, rfl, rfl, rfl, rfl⟩ ⟨rfl, rfl, rfl, rfl, rfl⟩)
    fun _ => rfl,
    .refl .refl, rfl, rfl, rfl⟩

end Codenaut.Services
