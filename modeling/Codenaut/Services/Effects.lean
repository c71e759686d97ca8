import Codenaut.Relational.Evolution
import Codenaut.Services.IndexingJobs.Claims

/-!
# What a transaction may do to a row

The relations between a row before and after one transaction, from which the
invariants of jobs, repositories and builds are derived.
-/

set_option autoImplicit false

namespace Codenaut.Services

open Codenaut.Db Codenaut.Relational

/-! ## Jobs -/

/-- The columns that say what a job was asked to do never change. -/
structure SameRequest (old new : IndexingJob) : Prop where
  id : new.id = old.id
  repositoryId : new.repositoryId = old.repositoryId
  requester : new.requestedByUserId = old.requestedByUserId
  jobType : new.jobType = old.jobType
  targetBranch : new.targetBranch = old.targetBranch
  requestedMode : new.requestedMode = old.requestedMode
  refreshGeneration : new.refreshGeneration = old.refreshGeneration

/-- The columns that say who works on a job, towards which version, and when it ended. -/
structure SameClaim (old new : IndexingJob) : Prop where
  status : new.status = old.status
  attempt : new.attempt = old.attempt
  lockedBy : new.lockedBy = old.lockedBy
  target : new.targetIndexVersion = old.targetIndexVersion
  completedAt : new.completedAt = old.completedAt

structure Released (old new : IndexingJob) : Prop extends SameRequest old new where
  attempt : new.attempt = old.attempt
  unlocked : new.lockedBy = none
  target : new.targetIndexVersion = old.targetIndexVersion

/-- The transactions that move a job between statuses or fix its target. -/
inductive Cause where
  | claim (jobId : JobId) (workerId : WorkerId)
  | authorize (claimed : ClaimedJob)
  | activate (claimed : ClaimedJob) (workerId : WorkerId)
  | cancel (claimed : ClaimedJob) (workerId : WorkerId)
  | fail (claimed : ClaimedJob) (workerId : WorkerId)
  | recover
  | work
  | service

inductive JobStep : Cause → IndexingJob → IndexingJob → Prop where
  | kept {cause : Cause} {old new : IndexingJob} (request : SameRequest old new)
      (claim : SameClaim old new) : JobStep cause old new
  | claimed {jobId : JobId} {workerId : WorkerId} {old new : IndexingJob}
      (request : SameRequest old new) (sameJob : old.id = jobId)
      (waiting : old.status = .queued ∨ old.status = .retrying)
      (running : new.status = .running) (attempt : new.attempt = old.attempt + 1)
      (locked : new.lockedBy = some workerId)
      (target : new.targetIndexVersion = old.targetIndexVersion) :
      JobStep (.claim jobId workerId) old new
  | targeted {claimed : ClaimedJob} {old new : IndexingJob} (request : SameRequest old new)
      (sameJob : old.id = claimed.id) (running : old.status = .running)
      (status : new.status = old.status) (attempt : new.attempt = old.attempt)
      (lockedBy : new.lockedBy = old.lockedBy)
      (fixed : ∀ target, old.targetIndexVersion = some target →
        new.targetIndexVersion = some target) :
      JobStep (.authorize claimed) old new
  | completed {claimed : ClaimedJob} {workerId : WorkerId} {old new : IndexingJob}
      (held : heldBy claimed workerId old = true) (released : Released old new)
      (status : new.status = .complete) (ended : new.completedAt.isSome = true) :
      JobStep (.activate claimed workerId) old new
  | cancelled {claimed : ClaimedJob} {workerId : WorkerId} {old new : IndexingJob}
      (held : heldBy claimed workerId old = true) (released : Released old new)
      (status : new.status = .cancelled) (ended : new.completedAt.isSome = true) :
      JobStep (.cancel claimed workerId) old new
  | failed {claimed : ClaimedJob} {workerId : WorkerId} {old new : IndexingJob}
      (held : heldBy claimed workerId old = true) (released : Released old new)
      (status : new.status = .retrying ∨ new.status = .failed)
      (ended : new.status = .failed → new.completedAt.isSome = true) :
      JobStep (.fail claimed workerId) old new
  | recovered {old new : IndexingJob} (running : old.status = .running)
      (released : Released old new) (status : new.status = .retrying ∨ new.status = .failed)
      (ended : new.status = .failed → new.completedAt.isSome = true) :
      JobStep .recover old new

theorem SameRequest.refl (job : IndexingJob) : SameRequest job job :=
  ⟨rfl, rfl, rfl, rfl, rfl, rfl, rfl⟩

theorem SameClaim.refl (job : IndexingJob) : SameClaim job job :=
  ⟨rfl, rfl, rfl, rfl, rfl⟩

theorem JobStep.refl {cause : Cause} (job : IndexingJob) : JobStep cause job job :=
  .kept (.refl job) (.refl job)

theorem JobStep.request {cause : Cause} {old new : IndexingJob} (step : JobStep cause old new) :
    SameRequest old new := by
  cases step with
  | kept request _ => exact request
  | claimed request => exact request
  | targeted request => exact request
  | completed _ released => exact released.toSameRequest
  | cancelled _ released => exact released.toSameRequest
  | failed _ released => exact released.toSameRequest
  | recovered _ released => exact released.toSameRequest

/-- A job that ended never moves again. -/
theorem JobStep.of_terminal {cause : Cause} {old new : IndexingJob} (step : JobStep cause old new)
    (ended : old.status.terminal = true) : SameClaim old new := by
  have notHeld : ∀ {claimed workerId}, heldBy claimed workerId old = true → False := by
    intro claimed workerId held
    have running : old.status = .running := by
      simp only [heldBy, Bool.and_eq_true, beq_iff_eq] at held
      exact held.1.2
    simp [running, IndexingJobStatus.terminal] at ended
  cases step with
  | kept _ claim => exact claim
  | claimed _ _ waiting =>
      rcases waiting with queued | retrying <;> simp_all [IndexingJobStatus.terminal]
  | targeted _ _ running => simp [running, IndexingJobStatus.terminal] at ended
  | completed held => exact (notHeld held).elim
  | cancelled held => exact (notHeld held).elim
  | failed held => exact (notHeld held).elim
  | recovered running => simp [running, IndexingJobStatus.terminal] at ended

/-- A target version is fixed once. -/
theorem JobStep.target {cause : Cause} {old new : IndexingJob} (step : JobStep cause old new)
    {target : Nat} (fixed : old.targetIndexVersion = some target) :
    new.targetIndexVersion = some target := by
  cases step with
  | kept _ claim => exact claim.target.trans fixed
  | claimed _ _ _ _ _ _ same => exact same.trans fixed
  | targeted _ _ _ _ _ _ kept => exact kept target fixed
  | completed _ released => exact released.target.trans fixed
  | cancelled _ released => exact released.target.trans fixed
  | failed _ released => exact released.target.trans fixed
  | recovered _ released => exact released.target.trans fixed

/-- A lock is only taken by the claim of that worker. -/
theorem JobStep.locked_before {cause : Cause} {old new : IndexingJob} {workerId : WorkerId}
    (step : JobStep cause old new) (running : new.status = .running)
    (locked : new.lockedBy = some workerId) (apart : ∀ jobId, cause ≠ .claim jobId workerId) :
    old.status = .running ∧ old.lockedBy = some workerId ∧ new.attempt = old.attempt := by
  cases step with
  | kept _ claim =>
      exact ⟨claim.status.symm.trans running, claim.lockedBy.symm.trans locked, claim.attempt⟩
  | claimed _ _ _ _ _ taken =>
      rw [taken] at locked
      cases locked
      exact (apart _ rfl).elim
  | targeted _ _ _ status attempt kept =>
      exact ⟨status.symm.trans running, kept.symm.trans locked, attempt⟩
  | completed _ released => simp [released.unlocked] at locked
  | cancelled _ released => simp [released.unlocked] at locked
  | failed _ released => simp [released.unlocked] at locked
  | recovered _ released => simp [released.unlocked] at locked

/-- Attempts are only counted up. -/
theorem JobStep.attempt_le {cause : Cause} {old new : IndexingJob}
    (step : JobStep cause old new) : old.attempt ≤ new.attempt := by
  cases step with
  | kept _ claim => exact Nat.le_of_eq claim.attempt.symm
  | claimed _ _ _ _ counted => exact counted ▸ Nat.le_succ _
  | targeted _ _ _ _ kept => exact Nat.le_of_eq kept.symm
  | completed _ released => exact Nat.le_of_eq released.attempt.symm
  | cancelled _ released => exact Nat.le_of_eq released.attempt.symm
  | failed _ released => exact Nat.le_of_eq released.attempt.symm
  | recovered _ released => exact Nat.le_of_eq released.attempt.symm

/-- A job as a transaction inserts it, for a repository row it has written. -/
structure FreshJob (repositories : List Repository) (job : IndexingJob) : Prop where
  queued : job.status = .queued
  attempt : job.attempt = 0
  unlocked : job.lockedBy = none
  untargeted : job.targetIndexVersion = none
  repository : ∃ row ∈ repositories, row.id = job.repositoryId ∧
    job.refreshGeneration = row.refreshGeneration ∧ job.targetBranch = some row.defaultBranch

/-! ## Repositories -/

/-- The columns that identify a repository and its active index. -/
structure SameIndex (old new : Repository) : Prop where
  id : new.id = old.id
  installationId : new.installationId = old.installationId
  accessMode : new.accessMode = old.accessMode
  githubRepositoryId : new.githubRepositoryId = old.githubRepositoryId
  indexVersion : new.indexVersion = old.indexVersion
  commit : new.lastIndexedCommitSha = old.lastIndexedCommitSha
  indexedBranch : new.indexedBranch = old.indexedBranch
  vectorCount : new.activeVectorCount = old.activeVectorCount

/-- What a service may do to a stored repository. -/
structure RepositoryKept (old new : Repository) : Prop extends SameIndex old new where
  generation : old.refreshGeneration ≤ new.refreshGeneration

/-- What a worker or the reconciler may do to it outside an activation. -/
structure RepositoryUnmoved (old new : Repository) : Prop extends SameIndex old new where
  generation : new.refreshGeneration = old.refreshGeneration
  branch : new.defaultBranch = old.defaultBranch

/-- What an activation does to the repository it activates. -/
structure RepositoryActivated (old new : Repository) : Prop where
  id : new.id = old.id
  installationId : new.installationId = old.installationId
  accessMode : new.accessMode = old.accessMode
  githubRepositoryId : new.githubRepositoryId = old.githubRepositoryId
  generation : new.refreshGeneration = old.refreshGeneration
  branch : new.defaultBranch = old.defaultBranch
  indexVersion : new.indexVersion = old.indexVersion + 1

inductive RepositoryStep : Cause → Repository → Repository → Prop where
  | unmoved {cause : Cause} {old new : Repository} (kept : RepositoryUnmoved old new) :
      RepositoryStep cause old new
  | activated {claimed : ClaimedJob} {workerId : WorkerId} {old new : Repository}
      (change : RepositoryActivated old new) :
      RepositoryStep (.activate claimed workerId) old new
  | served {old new : Repository} (kept : RepositoryKept old new) :
      RepositoryStep .service old new

structure FreshRepository (installations : List GitHubInstallation) (row : Repository) : Prop where
  unindexed : row.indexVersion = 0
  owner : (row.accessMode = .publicAccess ∧ row.installationId = none) ∨
    (row.accessMode = .githubInstallation ∧
      ∃ installation ∈ installations, row.installationId = some installation.id)

theorem SameIndex.refl (row : Repository) : SameIndex row row :=
  ⟨rfl, rfl, rfl, rfl, rfl, rfl, rfl, rfl⟩

theorem SameIndex.trans {first second third : Repository} (left : SameIndex first second)
    (right : SameIndex second third) : SameIndex first third where
  id := right.id.trans left.id
  installationId := right.installationId.trans left.installationId
  accessMode := right.accessMode.trans left.accessMode
  githubRepositoryId := right.githubRepositoryId.trans left.githubRepositoryId
  indexVersion := right.indexVersion.trans left.indexVersion
  commit := right.commit.trans left.commit
  indexedBranch := right.indexedBranch.trans left.indexedBranch
  vectorCount := right.vectorCount.trans left.vectorCount

theorem RepositoryUnmoved.refl (row : Repository) : RepositoryUnmoved row row :=
  ⟨.refl row, rfl, rfl⟩

theorem RepositoryStep.refl {cause : Cause} (row : Repository) : RepositoryStep cause row row :=
  .unmoved (.refl row)

theorem RepositoryKept.refl (row : Repository) : RepositoryKept row row :=
  ⟨.refl row, Nat.le_refl _⟩

theorem RepositoryKept.trans {first second third : Repository} (left : RepositoryKept first second)
    (right : RepositoryKept second third) : RepositoryKept first third where
  toSameIndex := left.toSameIndex.trans right.toSameIndex
  generation := Nat.le_trans left.generation right.generation

theorem RepositoryUnmoved.kept {old new : Repository} (unmoved : RepositoryUnmoved old new) :
    RepositoryKept old new :=
  ⟨unmoved.toSameIndex, Nat.le_of_eq unmoved.generation.symm⟩

theorem FreshRepository.settled {installations : List GitHubInstallation} {row new : Repository}
    (fresh : FreshRepository installations row) (kept : RepositoryKept row new) :
    FreshRepository installations new where
  unindexed := kept.indexVersion.trans fresh.unindexed
  owner := by
    rw [kept.accessMode, kept.installationId]
    exact fresh.owner

/-! ## Whole transactions -/

/-- The build and graph tables are untouched. -/
structure BuildsKept (db stored : Database) : Prop where
  builds : stored.builds = db.builds
  symbols : stored.symbolDefinitions = db.symbolDefinitions
  edges : stored.callEdges = db.callEdges

theorem BuildsKept.refl (db : Database) : BuildsKept db db := ⟨rfl, rfl, rfl⟩

theorem BuildsKept.trans {first second third : Database} (left : BuildsKept first second)
    (right : BuildsKept second third) : BuildsKept first third :=
  ⟨right.builds.trans left.builds, right.symbols.trans left.symbols,
    right.edges.trans left.edges⟩

/-- The effect of a worker's transaction on jobs and repositories. -/
structure WorkerEffect (cause : Cause) (db stored : Database) : Prop where
  jobs : Evolves (·.id) (JobStep cause) (fun _ => False) db.indexingJobs stored.indexingJobs
  repositories : Evolves (·.id) (RepositoryStep cause) (fun _ => False) db.repositories
    stored.repositories
  installations : stored.githubInstallations = db.githubInstallations
  members : stored.installationMembers = db.installationMembers
  attachments : stored.userRepositories = db.userRepositories

theorem WorkerEffect.refl {cause : Cause} (db : Database) : WorkerEffect cause db db :=
  ⟨.refl .refl, .refl .refl, rfl, rfl, rfl⟩

/-- The effect of a service's transaction: rows may be inserted, generations
may rise, and the index tables are untouched. -/
structure ServiceEffect (db stored : Database) : Prop where
  builds : BuildsKept db stored
  jobs : Evolves (·.id) (JobStep .service) (FreshJob stored.repositories) db.indexingJobs
    stored.indexingJobs
  repositories : Evolves (·.id) RepositoryKept (FreshRepository stored.githubInstallations)
    db.repositories stored.repositories
  installations : ∀ row ∈ db.githubInstallations, ∃ next ∈ stored.githubInstallations,
    next.id = row.id

theorem ServiceEffect.refl (db : Database) : ServiceEffect db db :=
  ⟨.refl db, .refl .refl, .refl .refl, fun row member => ⟨row, member, rfl⟩⟩

/-- The effect of a service statement that touches no job. -/
structure RepositoryEffect (db stored : Database) : Prop where
  builds : BuildsKept db stored
  jobs : stored.indexingJobs = db.indexingJobs
  repositories : Evolves (·.id) RepositoryKept (FreshRepository stored.githubInstallations)
    db.repositories stored.repositories
  installations : ∀ row ∈ db.githubInstallations, ∃ next ∈ stored.githubInstallations,
    next.id = row.id

theorem RepositoryEffect.refl (db : Database) : RepositoryEffect db db :=
  ⟨.refl db, rfl, .refl .refl, fun row member => ⟨row, member, rfl⟩⟩

theorem FreshRepository.grown {installations grown : List GitHubInstallation} {row : Repository}
    (fresh : FreshRepository installations row)
    (kept : ∀ row ∈ installations, ∃ next ∈ grown, next.id = row.id) :
    FreshRepository grown row where
  unindexed := fresh.unindexed
  owner := by
    rcases fresh.owner with shared | ⟨mode, installation, member, same⟩
    · exact .inl shared
    · obtain ⟨next, nextMember, nextId⟩ := kept installation member
      exact .inr ⟨mode, next, nextMember, nextId ▸ same⟩

theorem RepositoryEffect.trans {first second third : Database}
    (left : RepositoryEffect first second) (right : RepositoryEffect second third) :
    RepositoryEffect first third where
  builds := left.builds.trans right.builds
  jobs := right.jobs.trans left.jobs
  repositories := by
    have grown := left.repositories.mono (fun _ _ => id)
      fun _ fresh => fresh.grown right.installations
    exact grown.trans (fun _ _ _ => .trans) (fun _ _ fresh kept => fresh.settled kept)
      right.repositories
  installations := by
    intro row member
    obtain ⟨middle, middleMember, middleId⟩ := left.installations row member
    obtain ⟨last, lastMember, lastId⟩ := right.installations middle middleMember
    exact ⟨last, lastMember, lastId.trans middleId⟩

theorem RepositoryEffect.service {db stored : Database} (effect : RepositoryEffect db stored) :
    ServiceEffect db stored :=
  ⟨effect.builds, .ofEq .refl effect.jobs, effect.repositories, effect.installations⟩

/-- Repository columns may be updated when the index columns stay and the
generation does not fall. -/
theorem RepositoryEffect.updateRepositories (db : Database) (guard : Repository → Bool)
    {change : Repository → Repository} (kept : ∀ row, RepositoryKept row (change row)) :
    RepositoryEffect db (db.updateRepositories guard change) :=
  ⟨⟨rfl, rfl, rfl⟩, rfl, .updateWhere .refl (fun row _ _ => kept row) fun row => (kept row).id,
    fun row member => ⟨row, member, rfl⟩⟩

/-- The effect of any transaction on jobs and repositories. -/
structure Effect (cause : Cause) (db stored : Database) : Prop where
  jobs : Evolves (·.id) (JobStep cause)
    (fun job => cause = .service ∧ FreshJob stored.repositories job) db.indexingJobs
    stored.indexingJobs
  repositories : Evolves (·.id) (RepositoryStep cause)
    (fun row => cause = .service ∧ FreshRepository stored.githubInstallations row)
    db.repositories stored.repositories
  installations : ∀ row ∈ db.githubInstallations, ∃ next ∈ stored.githubInstallations,
    next.id = row.id

theorem WorkerEffect.effect {cause : Cause} {db stored : Database}
    (effect : WorkerEffect cause db stored) : Effect cause db stored where
  jobs := effect.jobs.mono (fun _ _ => id) fun _ => False.elim
  repositories := effect.repositories.mono (fun _ _ => id) fun _ => False.elim
  installations := fun row member => ⟨row, effect.installations ▸ member, rfl⟩

theorem ServiceEffect.effect {db stored : Database} (effect : ServiceEffect db stored) :
    Effect .service db stored where
  jobs := effect.jobs.mono (fun _ _ => id) fun _ fresh => ⟨rfl, fresh⟩
  repositories := effect.repositories.mono (fun _ _ => .served) fun _ fresh => ⟨rfl, fresh⟩
  installations := effect.installations

/-! ## Statements on other tables -/

/-- Updating the delivery of a job touches the delivery table only. -/
theorem updateFirstDelivery_eq (db : Database) (jobId : JobId)
    (change : WebhookDelivery → WebhookDelivery) : ∃ deliveries,
      db.updateFirstDelivery jobId change = { db with webhookDeliveries := deliveries } := by
  unfold Database.updateFirstDelivery
  cases db.webhookDeliveries.find? (·.indexingJobId == some jobId) with
  | none => exact ⟨db.webhookDeliveries, rfl⟩
  | some delivery => exact ⟨_, rfl⟩

end Codenaut.Services
