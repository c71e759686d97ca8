import Codenaut.Services.Consistency

/-!
# The states of a job

Which lock, attempt and timestamp columns go with each status, and how every
transaction keeps them together. A failed run decides on the attempt it was
claimed with, so its retries are bounded where the claim counts that attempt.
-/

set_option autoImplicit false

namespace Codenaut.Services

open Codenaut.Core Codenaut.Db Codenaut.Indexing Codenaut.Relational

structure JobStateOk (limit : Nat) (job : IndexingJob) : Prop where
  running : job.status = .running ↔ job.lockedBy.isSome = true
  attempts : job.attempt ≤ limit
  untried : job.status = .queued → job.attempt = 0
  retrying : job.status = .retrying → job.attempt < limit
  ended : job.status.terminal = true → job.completedAt.isSome = true ∧ job.lockedBy = none

theorem FreshJob.state {repositories : List Repository} {job : IndexingJob}
    (fresh : FreshJob repositories job) (limit : Nat) : JobStateOk limit job where
  running := by simp [fresh.queued, fresh.unlocked]
  attempts := by simp [fresh.attempt]
  untried := fun _ => fresh.attempt
  retrying := by simp [fresh.queued]
  ended := by simp [fresh.queued, IndexingJobStatus.terminal]

theorem JobStateOk.kept {limit : Nat} {old new : IndexingJob} (state : JobStateOk limit old)
    (claim : SameClaim old new) : JobStateOk limit new where
  running := by
    rw [claim.status, claim.lockedBy]
    exact state.running
  attempts := by
    rw [claim.attempt]
    exact state.attempts
  untried := by
    rw [claim.status, claim.attempt]
    exact state.untried
  retrying := by
    rw [claim.status, claim.attempt]
    exact state.retrying
  ended := by
    rw [claim.status, claim.completedAt, claim.lockedBy]
    exact state.ended

theorem JobStateOk.released {limit : Nat} {old new : IndexingJob} (state : JobStateOk limit old)
    (released : Released old new)
    (status : new.status = .retrying ∨ new.status.terminal = true)
    (retries : new.status = .retrying → new.attempt < limit)
    (ended : new.status.terminal = true → new.completedAt.isSome = true) : JobStateOk limit new where
  running := by
    rw [released.unlocked]
    rcases status with retry | terminal
    · simp [retry]
    · refine iff_of_false ?_ (by simp)
      intro running
      simp [running, IndexingJobStatus.terminal] at terminal
  attempts := released.attempt ▸ state.attempts
  untried := by
    intro queued
    rcases status with retry | terminal
    · simp [queued] at retry
    · simp [queued, IndexingJobStatus.terminal] at terminal
  retrying := retries
  ended := fun terminal => ⟨ended terminal, released.unlocked⟩

/-- A transaction keeps the state of a job whose retries it bounds. -/
theorem JobStep.state {cause : Cause} {limit : Nat} {old new : IndexingJob}
    (step : JobStep cause old new) (positive : 1 ≤ limit) (state : JobStateOk limit old)
    (retries : new.status = .retrying → new.attempt < limit) : JobStateOk limit new := by
  cases step with
  | kept _ claim => exact state.kept claim
  | claimed _ _ waiting running attempt locked =>
      have room : new.attempt ≤ limit := by
        rw [attempt]
        rcases waiting with queued | retrying
        · rw [state.untried queued]
          exact positive
        · exact state.retrying retrying
      exact {
        running := by simp [running, locked]
        attempts := room
        untried := by simp [running]
        retrying := by simp [running]
        ended := by simp [running, IndexingJobStatus.terminal] }
  | targeted _ _ running status attempt lockedBy =>
      have runs := status.trans running
      exact {
        running := by
          rw [status, lockedBy]
          exact state.running
        attempts := attempt ▸ state.attempts
        untried := by simp [runs]
        retrying := by simp [runs]
        ended := by simp [runs, IndexingJobStatus.terminal] }
  | completed _ released status ended =>
      exact state.released released (.inr (by simp [status, IndexingJobStatus.terminal])) retries
        fun _ => ended
  | cancelled _ released status ended =>
      exact state.released released (.inr (by simp [status, IndexingJobStatus.terminal])) retries
        fun _ => ended
  | failed _ released status ended =>
      refine state.released released (status.imp_right fun failed => ?_) retries ?_
      · simp [failed, IndexingJobStatus.terminal]
      · intro terminal
        rcases status with retry | failed
        · simp [retry, IndexingJobStatus.terminal] at terminal
        · exact ended failed
  | recovered _ released status ended =>
      refine state.released released (status.imp_right fun failed => ?_) retries ?_
      · simp [failed, IndexingJobStatus.terminal]
      · intro terminal
        rcases status with retry | failed
        · simp [retry, IndexingJobStatus.terminal] at terminal
        · exact ended failed

/-! ## Retries -/

section Retries

variable {settings : Settings} {db : Database} {prior row : IndexingJob}

/-- The row that an update by condition leaves for a stored key. -/
theorem row_of_update {guard : IndexingJob → Bool} {change : IndexingJob → IndexingJob}
    (jobIds : UniqueKey (·.id) db.indexingJobs) (member : prior ∈ db.indexingJobs)
    (rowMember : row ∈ updateWhere guard change db.indexingJobs)
    (sameId : ∀ job, (change job).id = job.id) (same : row.id = prior.id) :
    row = if guard prior then change prior else prior := by
  obtain ⟨other, otherMember, rfl⟩ := mem_updateWhere.mp rowMember
  have key : other.id = prior.id := by
    split at same
    · exact (sameId other).symm.trans same
    · exact same
  rw [jobIds.row_eq otherMember member key]

/-- `fail` schedules a retry only below the limit that it compares with. -/
theorem fail_retrying {now : Timestamp} {jitter : Nat} {claimed : ClaimedJob}
    {workerId : WorkerId} {code safeMessage : String} {retryable : Bool}
    (jobIds : UniqueKey (·.id) db.indexingJobs) (member : prior ∈ db.indexingJobs)
    (held : heldBy claimed workerId prior = true)
    (rowMember : row ∈ (fail settings db now jitter claimed workerId code safeMessage
      retryable).2.indexingJobs)
    (same : row.id = prior.id) (retrying : row.status = .retrying) :
    claimed.attempt < settings.workerMaxAttempts := by
  unfold fail at rowMember
  simp only [find_held jobIds member held] at rowMember
  obtain ⟨deliveries, written⟩ := updateFirstDelivery_eq _ _ _
  rw [written] at rowMember
  change row ∈ updateWhere (heldBy claimed workerId) (failedJob settings now claimed code safeMessage
    (shouldRetry settings claimed retryable) jitter) db.indexingJobs at rowMember
  have row_eq := row_of_update jobIds member rowMember (fun _ => rfl) same
  rw [if_pos held] at row_eq
  by_contra exhausted
  simp [row_eq, failedJob, shouldRetry, exhausted] at retrying

/-- Recovery schedules a retry only below the limit. -/
theorem recover_retrying {now : Timestamp} (jobIds : UniqueKey (·.id) db.indexingJobs)
    (member : prior ∈ db.indexingJobs) (running : prior.status = .running)
    (rowMember : row ∈ (recoverAbandoned settings db now).2.indexingJobs)
    (same : row.id = prior.id) (retrying : row.status = .retrying) :
    row.attempt < settings.workerMaxAttempts := by
  unfold recoverAbandoned at rowMember
  rw [recover_jobs] at rowMember
  have row_eq := row_of_update jobIds member rowMember (fun _ => rfl) same
  split at row_eq
  · by_contra exhausted
    rw [row_eq] at retrying exhausted
    simp only [recoveredJob] at exhausted
    simp [recoveredJob, exhausted] at retrying
  · rw [row_eq, running] at retrying
    cases retrying

/-- A job waits for a retry because it did so before, because its recovery
found an attempt left, or because the run that held it failed with one left. -/
theorem Operation.retrying_cases {platform : Platform} {moment : Moment} {operation : Operation}
    (jobIds : UniqueKey (·.id) db.indexingJobs)
    (repositoryIds : UniqueKey (·.id) db.repositories) (member : prior ∈ db.indexingJobs)
    (rowMember : row ∈ (operation.apply settings platform moment db).indexingJobs)
    (same : row.id = prior.id) (retrying : row.status = .retrying) :
    (prior.status = .retrying ∧ row.attempt = prior.attempt) ∨
      row.attempt < settings.workerMaxAttempts ∨
      ∃ claimed workerId code safeMessage retryable,
        operation = .store claimed workerId (.fail code safeMessage retryable) ∧
        heldBy claimed workerId prior = true ∧ row.attempt = prior.attempt ∧
        claimed.attempt < settings.workerMaxAttempts := by
  have effect := operation.effect settings platform moment jobIds repositoryIds
  have step := effect.jobs.step_of_key jobIds member rowMember same
  generalize named : operation.cause = cause at step
  cases step with
  | kept _ claim => exact .inl ⟨claim.status.symm.trans retrying, claim.attempt⟩
  | claimed _ _ _ running => simp [running] at retrying
  | targeted _ _ running status => simp [status, running] at retrying
  | completed _ _ status => simp [status] at retrying
  | cancelled _ _ status => simp [status] at retrying
  | failed held released =>
      refine .inr (.inr ?_)
      cases operation with
      | store claimed workerId call =>
          cases call with
          | fail code safeMessage retryable =>
              cases named
              exact ⟨_, _, _, _, _, rfl, held, released.attempt,
                fail_retrying jobIds member held rowMember same retrying⟩
          | _ => cases named
      | _ => cases named
  | recovered running =>
      refine .inr (.inl ?_)
      cases operation with
      | recoverAbandoned => exact recover_retrying jobIds member running rowMember same retrying
      | store claimed workerId call => cases call <;> cases named
      | _ => cases named

end Retries

end Codenaut.Services
