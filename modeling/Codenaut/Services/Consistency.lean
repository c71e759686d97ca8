import Codenaut.Services.OperationProperties

/-!
# Consistency of jobs and repositories

Keys are unique, every job belongs to a stored repository whose generation it
does not exceed, and a repository has at most one running job. Every
transaction preserves this.
-/

set_option autoImplicit false

namespace Codenaut.Services

open Codenaut.Core Codenaut.Db Codenaut.Indexing Codenaut.Relational

/-- At most one RUNNING job for each repository. -/
def RunningUnique (db : Database) : Prop :=
  ∀ left ∈ db.indexingJobs, ∀ right ∈ db.indexingJobs, left.status = .running →
    right.status = .running → left.repositoryId = right.repositoryId → left.id = right.id

/-- The repository of a job, whose generation bounds the job's. -/
def OwnedBy (job : IndexingJob) (row : Repository) : Prop :=
  row.id = job.repositoryId ∧ job.refreshGeneration ≤ row.refreshGeneration

structure Consistent (db : Database) : Prop where
  jobIds : UniqueKey (·.id) db.indexingJobs
  repositoryIds : UniqueKey (·.id) db.repositories
  jobOwners : ∀ job ∈ db.indexingJobs, ∃ row ∈ db.repositories, OwnedBy job row
  runningUnique : RunningUnique db
  installationOwners : ∀ row ∈ db.repositories,
    (row.accessMode = .publicAccess ∧ row.installationId = none) ∨
      (row.accessMode = .githubInstallation ∧
        ∃ installation ∈ db.githubInstallations, row.installationId = some installation.id)

theorem Consistent.empty : Consistent {} where
  jobIds := .nil
  repositoryIds := .nil
  jobOwners := by simp
  runningUnique := by simp [RunningUnique]
  installationOwners := by simp

theorem RepositoryStep.generation {cause : Cause} {old new : Repository}
    (step : RepositoryStep cause old new) : old.refreshGeneration ≤ new.refreshGeneration := by
  cases step with
  | unmoved kept => exact kept.kept.generation
  | activated change => exact Nat.le_of_eq change.generation.symm
  | served kept => exact kept.generation

theorem RepositoryStep.indexVersion {cause : Cause} {old new : Repository}
    (step : RepositoryStep cause old new) : old.indexVersion ≤ new.indexVersion := by
  cases step with
  | unmoved kept => exact Nat.le_of_eq kept.indexVersion.symm
  | activated change => rw [change.indexVersion]; exact Nat.le_succ _
  | served kept => exact Nat.le_of_eq kept.indexVersion.symm

/-- The columns that place a repository never change. -/
structure SamePlace (old new : Repository) : Prop where
  id : new.id = old.id
  installationId : new.installationId = old.installationId
  accessMode : new.accessMode = old.accessMode
  githubRepositoryId : new.githubRepositoryId = old.githubRepositoryId

theorem RepositoryStep.place {cause : Cause} {old new : Repository}
    (step : RepositoryStep cause old new) : SamePlace old new := by
  cases step with
  | unmoved kept =>
      exact ⟨kept.id, kept.installationId, kept.accessMode, kept.githubRepositoryId⟩
  | activated change =>
      exact ⟨change.id, change.installationId, change.accessMode, change.githubRepositoryId⟩
  | served kept =>
      exact ⟨kept.id, kept.installationId, kept.accessMode, kept.githubRepositoryId⟩

/-- Only a claim makes a job RUNNING. -/
theorem JobStep.running_before {cause : Cause} {old new : IndexingJob}
    (step : JobStep cause old new) (running : new.status = .running) :
    old.status = .running ∨ ∃ jobId workerId, cause = .claim jobId workerId ∧ old.id = jobId := by
  cases step with
  | kept _ claim => exact .inl (claim.status.symm.trans running)
  | claimed _ sameJob => exact .inr ⟨_, _, rfl, sameJob⟩
  | targeted _ _ before => exact .inl before
  | completed _ _ status => simp [status] at running
  | cancelled _ _ status => simp [status] at running
  | failed _ _ status => rcases status with retry | failed <;> simp_all
  | recovered before => exact .inl before

/-- A claim is rejected while another job of the repository runs. -/
theorem claim_runningUnique {db : Database} (jobIds : UniqueKey (·.id) db.indexingJobs)
    (unique : RunningUnique db) (now : Timestamp) (jobId : JobId) (workerId : WorkerId) :
    RunningUnique (claim db now jobId workerId).2 := by
  cases attempt : claim db now jobId workerId with
  | mk result stored =>
      cases result with
      | none => rw [claim_none attempt]; exact unique
      | some claimed =>
          obtain ⟨job, found, alone, _, jobs⟩ := claim_ok attempt
          have jobMember := List.mem_of_find?_eq_some found
          have jobMatched := List.find?_some found
          have origin : ∀ row ∈ stored.indexingJobs, row.status = .running →
              ∃ prior ∈ db.indexingJobs, prior.id = row.id ∧
                prior.repositoryId = row.repositoryId ∧
                (prior.status = .running ∨ prior.id = job.id) := by
            intro row member running
            rw [jobs, mem_updateWhere] at member
            obtain ⟨prior, priorMember, rfl⟩ := member
            by_cases matched : claimable jobId now prior = true
            · refine ⟨prior, priorMember, by simp [matched, claimValues],
                by simp [matched, claimValues], .inr ?_⟩
              simp only [claimable, Bool.and_eq_true, beq_iff_eq] at matched jobMatched
              exact matched.1.1.trans jobMatched.1.1.symm
            · simp only [matched] at running ⊢
              exact ⟨prior, priorMember, rfl, rfl, .inl running⟩
          have notElsewhere : ∀ other ∈ db.indexingJobs, other.status = .running →
              other.repositoryId = job.repositoryId → other.id = job.id := by
            intro other member running same
            by_contra different
            simp only [runningElsewhere, List.any_eq_false, Bool.and_eq_true, bne_iff_ne,
              beq_iff_eq] at alone
            exact alone other member ⟨⟨different, same⟩, running⟩
          have jobRow : ∀ prior ∈ db.indexingJobs, prior.id = job.id → prior = job :=
            fun prior member same => jobIds.row_eq member jobMember same
          intro left leftMember right rightMember leftRunning rightRunning same
          obtain ⟨leftPrior, leftIn, leftId, leftRepository, leftCase⟩ :=
            origin left leftMember leftRunning
          obtain ⟨rightPrior, rightIn, rightId, rightRepository, rightCase⟩ :=
            origin right rightMember rightRunning
          have samePrior : leftPrior.repositoryId = rightPrior.repositoryId := by
            rw [leftRepository, rightRepository, same]
          rw [← leftId, ← rightId]
          rcases leftCase with leftRuns | leftIs <;> rcases rightCase with rightRuns | rightIs
          · exact unique _ leftIn _ rightIn leftRuns rightRuns samePrior
          · rw [jobRow _ rightIn rightIs] at samePrior ⊢
            exact notElsewhere _ leftIn leftRuns samePrior
          · rw [jobRow _ leftIn leftIs] at samePrior ⊢
            exact (notElsewhere _ rightIn rightRuns samePrior.symm).symm
          · rw [leftIs, rightIs]

/-- Outside a claim, a RUNNING job was RUNNING before. -/
theorem Effect.runningUnique {cause : Cause} {db stored : Database}
    (effect : Effect cause db stored)
    (noClaim : ∀ jobId workerId, cause ≠ .claim jobId workerId) (unique : RunningUnique db) :
    RunningUnique stored := by
  have before : ∀ row ∈ stored.indexingJobs, row.status = .running →
      ∃ prior ∈ db.indexingJobs, prior.status = .running ∧ prior.id = row.id ∧
        prior.repositoryId = row.repositoryId := by
    intro row member running
    rcases effect.jobs.origin member with ⟨prior, priorMember, step, _⟩ | ⟨_, fresh⟩
    · rcases step.running_before running with runs | ⟨jobId, workerId, claims, _⟩
      · exact ⟨prior, priorMember, runs, step.request.id.symm, step.request.repositoryId.symm⟩
      · exact (noClaim jobId workerId claims).elim
    · rw [fresh.queued] at running
      cases running
  intro left leftMember right rightMember leftRunning rightRunning same
  obtain ⟨leftPrior, leftIn, leftRuns, leftId, leftRepository⟩ := before left leftMember leftRunning
  obtain ⟨rightPrior, rightIn, rightRuns, rightId, rightRepository⟩ :=
    before right rightMember rightRunning
  rw [← leftId, ← rightId]
  exact unique _ leftIn _ rightIn leftRuns rightRuns (by rw [leftRepository, rightRepository, same])

theorem Consistent.apply {db : Database} (consistent : Consistent db) (settings : Settings)
    (platform : Platform) (moment : Moment) (operation : Operation) :
    Consistent (operation.apply settings platform moment db) := by
  have effect := operation.effect settings platform moment consistent.jobIds
    consistent.repositoryIds
  refine ⟨effect.jobs.keys consistent.jobIds, effect.repositories.keys consistent.repositoryIds,
    ?_, ?_, ?_⟩
  · intro job member
    rcases effect.jobs.origin member with ⟨prior, priorMember, step, _⟩ | ⟨_, fresh⟩
    · obtain ⟨row, rowMember, owner, bound⟩ := consistent.jobOwners prior priorMember
      obtain ⟨next, nextMember, rowStep, nextId⟩ := effect.repositories.successor rowMember
      refine ⟨next, nextMember, ?_, ?_⟩
      · rw [step.request.repositoryId, ← owner]
        exact nextId
      · rw [step.request.refreshGeneration]
        exact Nat.le_trans bound rowStep.generation
    · obtain ⟨row, rowMember, owner, generation, _⟩ := fresh.repository
      exact ⟨row, rowMember, owner, Nat.le_of_eq generation⟩
  · by_cases claims : ∃ jobId workerId, operation.cause = .claim jobId workerId
    · obtain ⟨jobId, workerId, claims⟩ := claims
      cases operation with
      | claim taken worker =>
          exact claim_runningUnique consistent.jobIds consistent.runningUnique _ _ _
      | store claimed worker call => cases call <;> cases claims
      | _ => cases claims
    · exact effect.runningUnique (fun jobId workerId same => claims ⟨jobId, workerId, same⟩)
        consistent.runningUnique
  · intro row member
    rcases effect.repositories.origin member with ⟨prior, priorMember, step, _⟩ | ⟨_, fresh⟩
    · have place := step.place
      rw [place.accessMode, place.installationId]
      rcases consistent.installationOwners prior priorMember with
        shared | ⟨mode, installation, installationMember, same⟩
      · exact .inl shared
      · obtain ⟨next, nextMember, nextId⟩ := effect.installations installation installationMember
        exact .inr ⟨mode, next, nextMember, nextId ▸ same⟩
    · exact fresh.owner

theorem Journal.Reachable.consistent {settings : Settings} {platform : Platform}
    {journal : Journal} (reachable : Journal.Reachable settings platform journal) :
    Consistent journal.database := by
  induction reachable with
  | start => exact .empty
  | step moment operation _ _ ih => exact ih.apply settings platform moment operation

end Codenaut.Services
