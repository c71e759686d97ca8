import Codenaut.Services.JobStates
import Codenaut.System.Runs

/-!
# The job state machine

In every interleaving of workers and services, a RUNNING job is exactly a
locked one, attempts stay within the limit, and a job that ended is unlocked
with its completion time. The bound on retries rests on the attempt that a
live run was claimed with: it is the one its job counts while it holds the job.
-/

set_option autoImplicit false

namespace Codenaut.System

open Codenaut.Core Codenaut.Db Codenaut.Indexing Codenaut.Relational Codenaut.Services

/-- A live run that holds its job was claimed with the attempt that the job counts. -/
def ClaimCounted (world : World) : Prop :=
  ∀ workerId run, world.runs workerId = some run →
    ∀ job ∈ world.journal.database.indexingJobs, heldBy run.claimed workerId job = true →
      job.attempt = run.claimed.attempt

structure JobsOrdered (settings : Settings) (world : World) : Prop where
  states : ∀ job ∈ world.journal.database.indexingJobs, JobStateOk settings.workerMaxAttempts job
  counted : ClaimCounted world

section Step

variable {settings : Settings} {platform : Platform} {world : World}

/-- A transaction that does not claim for a worker leaves the attempts of its jobs. -/
theorem attempt_before {journal : Journal} (consistent : Consistent journal.database)
    {moment : Moment} {operation : Operation} {workerId : WorkerId} {claimed : ClaimedJob}
    (apart : ∀ jobId, operation ≠ .claim jobId workerId) {job : IndexingJob}
    (member : job ∈ (journal.apply settings platform moment operation).database.indexingJobs)
    (held : heldBy claimed workerId job = true) :
    ∃ prior ∈ journal.database.indexingJobs, heldBy claimed workerId prior = true ∧
      job.attempt = prior.attempt := by
  have effect := operation.effect settings platform moment consistent.jobIds
    consistent.repositoryIds
  obtain ⟨sameJob, running, locked⟩ := heldBy_iff.mp held
  rcases effect.jobs.origin member with ⟨prior, priorMember, step, same⟩ | ⟨_, fresh⟩
  · obtain ⟨wasRunning, wasLocked, attempt⟩ :=
      step.locked_before running locked (Operation.cause_ne_claim apart)
    exact ⟨prior, priorMember,
      heldBy_iff.mpr ⟨same.symm.trans sameJob, wasRunning, wasLocked⟩, attempt⟩
  · simp [fresh.queued] at running

/-- A run that was live before a step keeps its count. -/
theorem ClaimCounted.kept (counted : ClaimCounted world)
    (sound : WorldSound settings platform world) {workerId : WorkerId} {run : Run}
    (live : world.runs workerId = some run) (action : Action) {job : IndexingJob}
    (member : job ∈ (world.step settings platform action).journal.database.indexingJobs)
    (held : heldBy run.claimed workerId job = true) : job.attempt = run.claimed.attempt := by
  rcases step_journal settings platform world action with idle | ⟨entry, issued, applied⟩
  · rw [idle] at member
    exact counted workerId run live job member held
  · rw [applied] at member
    obtain ⟨prior, priorMember, priorHeld, attempt⟩ :=
      attempt_before sound.journal.consistent (issued.apart live) member held
    exact attempt.trans (counted workerId run live prior priorMember priorHeld)

/-- A claim counts the attempt that it returns. -/
theorem ClaimCounted.started (sound : WorldSound settings platform world) {moment : Moment}
    {workerId : WorkerId} {jobId : JobId} {claimed : ClaimedJob}
    (idle : world.runs workerId = none)
    (taken : (claim world.journal.database moment.now jobId workerId).1 = some claimed)
    {job : IndexingJob}
    (member : job ∈ (world.step settings platform
      (.claim moment workerId jobId)).journal.database.indexingJobs)
    (held : heldBy claimed workerId job = true) : job.attempt = claimed.attempt := by
  have jobIds := sound.journal.consistent.jobIds
  have journal : (world.step settings platform (.claim moment workerId jobId)).journal =
      world.journal.apply settings platform moment (.claim jobId workerId) := by
    simp [World.step, World.journalAfter, World.transaction, idle]
  cases attempt : claim world.journal.database moment.now jobId workerId with
  | mk result stored =>
      rw [attempt] at taken
      subst taken
      obtain ⟨prior, found, _, same, jobs⟩ := claim_ok attempt
      have database : (world.step settings platform
          (.claim moment workerId jobId)).journal.database = stored := by
        rw [journal]
        simp [Journal.apply, Operation.apply, attempt]
      rw [database, jobs] at member
      have matched := List.find?_some found
      have priorId : job.id = prior.id := by
        rw [(heldBy_iff.mp held).1, same]
      have row_eq := row_of_update jobIds (List.mem_of_find?_eq_some found) member
        (fun _ => rfl) priorId
      rw [if_pos matched] at row_eq
      rw [row_eq, same]
      rfl

theorem ClaimCounted.step (counted : ClaimCounted world)
    (sound : WorldSound settings platform world) (action : Action) :
    ClaimCounted (world.step settings platform action) := by
  intro workerId run live job member held
  cases step_runs live with
  | kept before => exact counted.kept sound before action member held
  | started idle taken => exact ClaimCounted.started sound idle taken member held
  | advanced before => exact counted.kept sound before _ member held

theorem World.Reachable.claimCounted (reachable : World.Reachable settings platform world) :
    ClaimCounted world := by
  induction reachable with
  | refl =>
      intro workerId run live
      simp at live
  | tail path moves ih =>
      obtain ⟨action, _, rfl⟩ := moves
      exact ih.step (World.Reachable.sound path) action

theorem JobsOrdered.step (positive : 1 ≤ settings.workerMaxAttempts)
    (sound : WorldSound settings platform world) (ordered : JobsOrdered settings world)
    (action : Action) : JobsOrdered settings (world.step settings platform action) where
  states := by
    have consistent := sound.journal.consistent
    intro job member
    rcases step_journal settings platform world action with idle | ⟨entry, issued, applied⟩
    · rw [idle] at member
      exact ordered.states job member
    · rw [applied] at member
      have effect := entry.operation.effect settings platform entry.moment consistent.jobIds
        consistent.repositoryIds
      rcases effect.jobs.origin member with ⟨prior, priorMember, step, same⟩ | ⟨_, fresh⟩
      · have state := ordered.states prior priorMember
        refine step.state positive state fun retrying => ?_
        rcases Operation.retrying_cases consistent.jobIds consistent.repositoryIds priorMember
            member same retrying with
          ⟨waited, attempt⟩ | bounded | ⟨claimed, workerId, _, _, _, failed, held, attempt, bounded⟩
        · exact attempt ▸ state.retrying waited
        · exact bounded
        · cases issued with
          | served outsideRuns =>
              subst failed
              cases outsideRuns
          | claimed => cases failed
          | asked live =>
              cases failed
              rw [attempt, ordered.counted workerId _ live prior priorMember held]
              exact bounded
          | beat => cases failed
      · exact fresh.state _
  counted := ordered.counted.step sound action

theorem World.Reachable.jobsOrdered (positive : 1 ≤ settings.workerMaxAttempts)
    (reachable : World.Reachable settings platform world) : JobsOrdered settings world := by
  induction reachable with
  | refl =>
      have start : World.Reachable settings platform {} := .refl
      exact ⟨by simp, start.claimCounted⟩
  | tail path moves ih =>
      obtain ⟨action, _, rfl⟩ := moves
      exact ih.step positive (World.Reachable.sound path) action

end Step

/-- The job state machine, in every reachable state. -/
theorem job_states {settings : Settings} {platform : Platform} {world : World}
    (positive : 1 ≤ settings.workerMaxAttempts)
    (reachable : World.Reachable settings platform world) :
    (∀ job ∈ world.journal.database.indexingJobs,
      (job.status = .running ↔ job.lockedBy.isSome = true) ∧
      job.attempt ≤ settings.workerMaxAttempts ∧
      (job.status = .retrying → job.attempt < settings.workerMaxAttempts) ∧
      (job.status.terminal = true → job.completedAt.isSome = true ∧ job.lockedBy = none)) ∧
    RunningUnique world.journal.database := by
  constructor
  · intro job member
    have state := (reachable.jobsOrdered positive).states job member
    exact ⟨state.running, state.attempts, state.retrying, state.ended⟩
  · exact reachable.sound.journal.consistent.runningUnique

theorem claimed_job_states :
    Onboarding.claimed.journal.database.indexingJobs.map (fun job => (job.status, job.lockedBy)) =
      [(.running, some "worker")] ∧
    RunningUnique Onboarding.claimed.journal.database := by
  constructor
  · decide
  · exact (job_states (by decide) Onboarding.claimed_reachable).2

end Codenaut.System
