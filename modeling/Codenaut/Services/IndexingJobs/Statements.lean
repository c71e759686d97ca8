import Codenaut.Services.IndexingJobs.BuildsProperties
import Codenaut.Services.IndexingJobs.Endings
import Codenaut.Transaction.Rules

/-!
# Job transitions statement by statement

The statements on `indexing_jobs` of the transactions that claim, follow, end
and recover a job, under READ COMMITTED. Recovery selects without a lock and
writes by primary key, so its update is fresh only if the row still has the
status and heartbeat that were selected.
-/

set_option autoImplicit false

namespace Codenaut.Services

open Codenaut.Core Codenaut.Db Codenaut.Relational Codenaut.Transaction

/-- One call with its clock reading. What the statements on other tables decide
(the unique index of running jobs, the rows that `activate` compares) is left
open in `accepted`. -/
inductive JobTransaction where
  | claim (jobId : JobId) (workerId : WorkerId) (now : Timestamp) (accepted : Bool)
  | heartbeat (claimed : ClaimedJob) (workerId : WorkerId) (now : Timestamp)
  | fail (claimed : ClaimedJob) (workerId : WorkerId) (now : Timestamp) (jitter : Nat)
      (code safeMessage : String) (retryable : Bool)
  | activate (claimed : ClaimedJob) (workerId : WorkerId) (now : Timestamp)
      (commitSha : CommitSha) (accepted : Bool)
  | markStale (claimed : ClaimedJob) (workerId : WorkerId) (now : Timestamp) (code : String)
      (superseded : Bool)
  | cancelRevoked (claimed : ClaimedJob) (workerId : WorkerId) (now : Timestamp)
  | recoverAbandoned (now : Timestamp)

/-- An attribute write of the unit of work: unchanged attributes are not sent. -/
def flushColumn {Column : Type} [DecidableEq Column] (loaded new current : Column) : Column :=
  if new = loaded then current else new

/-- The columns of a selected job that recovery flushes onto the stored row. -/
def recoveredColumns (settings : Settings) (now : Timestamp) (loaded current : IndexingJob) :
    IndexingJob :=
  let recovered := recoveredJob settings now loaded
  { current with
    status := flushColumn loaded.status recovered.status current.status
    nextAttemptAt := flushColumn loaded.nextAttemptAt recovered.nextAttemptAt current.nextAttemptAt
    lockedBy := flushColumn loaded.lockedBy recovered.lockedBy current.lockedBy
    errorCode := flushColumn loaded.errorCode recovered.errorCode current.errorCode
    safeErrorMessage :=
      flushColumn loaded.safeErrorMessage recovered.safeErrorMessage current.safeErrorMessage
    stage := flushColumn loaded.stage recovered.stage current.stage
    completedAt := flushColumn loaded.completedAt recovered.completedAt current.completedAt }

abbrev JobScript := Script IndexingJob Unit

/-- `select(…).with_for_update()` on the held job, then its attribute writes. -/
def lockHeld (claimed : ClaimedJob) (workerId : WorkerId)
    (change : IndexingJob → IndexingJob) (accepted : Bool) : JobScript :=
  .lock (heldBy claimed workerId) fun
    | none => .rollback
    | some job => if accepted then .flush job change .commit else .rollback

/-- `update(…).where(…)` on one job, then commit. -/
def updateOne (guard : IndexingJob → Bool) (change : IndexingJob → IndexingJob)
    (accepted : Bool) : JobScript :=
  .update guard change fun
    | none => .rollback
    | some _ => if accepted then .commit else .rollback

def recoverSelected (settings : Settings) (now : Timestamp) : List IndexingJob → JobScript
  | [] => .commit
  | job :: rest => .flush job (recoveredColumns settings now job) (recoverSelected settings now rest)

def jobProgram (settings : Settings) : JobTransaction → JobScript
  | .claim jobId workerId now accepted =>
      updateOne (claimable jobId now) (claimValues workerId now) accepted
  | .heartbeat claimed workerId now =>
      updateOne (heldBy claimed workerId) (heartbeatValues now) true
  | .fail claimed workerId now jitter code safeMessage retryable =>
      updateOne (heldBy claimed workerId)
        (failedJob settings now claimed code safeMessage (shouldRetry settings claimed retryable)
          jitter) true
  | .activate claimed workerId now commitSha accepted =>
      lockHeld claimed workerId (completedJob now commitSha) accepted
  | .markStale claimed workerId now code superseded =>
      lockHeld claimed workerId (staleValues now code superseded) true
  | .cancelRevoked claimed workerId now =>
      updateOne (heldBy claimed workerId) (revokedJob now) true
  | .recoverAbandoned now => .scan (abandoned settings now) (recoverSelected settings now)

/-- The stored row has the status and heartbeat that were selected. -/
def asSelected (loaded current : IndexingJob) : Bool :=
  current.status == loaded.status && current.heartbeatAt == loaded.heartbeatAt

/-! ## What a transaction commits to a job -/

structure JobWrite (settings : Settings) (transaction : JobTransaction)
    (old new : IndexingJob) : Prop where
  absorbed : old.status.terminal = true → new.status = old.status
  abandoned : ∀ now, transaction = .recoverAbandoned now → old.status = .running →
    abandoned settings now old = true
  beating : (old.status = .running → old.heartbeatAt.isSome = true) → new.status = .running →
    new.heartbeatAt.isSome = true

/-- A write to a job that is not at rest, by a call that is not the recovery. -/
theorem JobWrite.of_live {settings : Settings} {transaction : JobTransaction}
    {old new : IndexingJob} (live : old.status.terminal = false)
    (other : ∀ now, transaction ≠ .recoverAbandoned now)
    (beating : new.status = .running → new.heartbeatAt.isSome = true) :
    JobWrite settings transaction old new :=
  ⟨fun ended => by simp [live] at ended, fun now same => (other now same).elim,
    fun _ => beating⟩

def JobFinal (settings : Settings) (transaction : JobTransaction)
    (writes : List (Write IndexingJob)) (_ : List Unit) : Prop :=
  ∀ write ∈ writes, JobWrite settings transaction write.base write.current

section Safe

variable {settings : Settings} {transaction : JobTransaction} {guard : IndexingJob → Bool}
  {change : IndexingJob → IndexingJob}

theorem updateOne_safe (accepted : Bool)
    (step : ∀ job, guard job = true → (change job).id = job.id ∧
      JobWrite settings transaction job (change job)) :
    Safe (·.id) asSelected (JobFinal settings transaction) (updateOne guard change accepted)
      [] [] := by
  refine ⟨trivial, fun job matched _ => ⟨(step job matched).1, ?_⟩⟩
  cases accepted with
  | false => trivial
  | true =>
      intro write member
      have only : write = ⟨job, change job⟩ := by simpa [Transaction.put] using member
      rw [only]
      exact (step job matched).2

theorem lockHeld_safe {claimed : ClaimedJob} {workerId : WorkerId} (accepted : Bool)
    (step : ∀ job, heldBy claimed workerId job = true → (change job).id = job.id ∧
      JobWrite settings transaction job (change job)) :
    Safe (·.id) asSelected (JobFinal settings transaction)
      (lockHeld claimed workerId change accepted) [] [] := by
  refine ⟨trivial, fun job matched _ => ?_⟩
  cases accepted with
  | false => trivial
  | true =>
      intro row _ seen _
      -- the flush meets the version that the lock returned
      have same : job = row :=
        seen ⟨job, job⟩ (by simp [Transaction.put]) (by assumption : row.id = job.id).symm
      subst same
      refine ⟨(step job matched).1, fun write member => ?_⟩
      have only : write = ⟨job, change job⟩ := by simpa [Transaction.put] using member
      rw [only]
      exact (step job matched).2

theorem abandoned_iff {now : Timestamp} {job : IndexingJob} :
    abandoned settings now job = true ↔ job.status = .running ∧
      ∀ beat, job.heartbeatAt = some beat → beat < now - settings.abandonedAfter := by
  simp [abandoned, Option.all_eq_true]

/-- A fresh recovery update acts on a job that is still abandoned. -/
theorem recoveredColumns_write {now : Timestamp} {loaded current : IndexingJob}
    (selected : abandoned settings now loaded = true)
    (fresh : asSelected loaded current = true) :
    JobWrite settings (.recoverAbandoned now) current
      (recoveredColumns settings now loaded current) := by
  simp only [asSelected, Bool.and_eq_true, beq_iff_eq] at fresh
  obtain ⟨running, stale⟩ := abandoned_iff.mp selected
  have status : (recoveredColumns settings now loaded current).status = .retrying ∨
      (recoveredColumns settings now loaded current).status = .failed := by
    simp only [recoveredColumns, recoveredJob, running]
    split <;> simp [flushColumn]
  refine ⟨?_, ?_, ?_⟩
  · intro ended
    simp [fresh.1, running, IndexingJobStatus.terminal] at ended
  · intro other same _
    cases same
    exact abandoned_iff.mpr ⟨fresh.1.trans running, fun beat found => stale beat (fresh.2 ▸ found)⟩
  · intro _ still
    rcases status with retry | failed <;> simp_all

theorem recoverSelected_safe {now : Timestamp} (jobs : List IndexingJob)
    (selected : ∀ job ∈ jobs, abandoned settings now job = true)
    (distinct : (jobs.map (·.id)).Nodup) {writes : List (Write IndexingJob)}
    (unlocked : ∀ job ∈ jobs, ∀ write ∈ writes, write.base.id ≠ job.id)
    (final : JobFinal settings (.recoverAbandoned now) writes []) :
    Safe (·.id) asSelected (JobFinal settings (.recoverAbandoned now))
      (recoverSelected settings now jobs) writes [] := by
  induction jobs generalizing writes with
  | nil => exact final
  | cons job rest ih =>
      intro row same _ fresh
      have free := unlocked job (.head _)
      have stored := recoveredColumns_write (selected job (.head _)) (fresh free)
      have added : Transaction.put (·.id) writes row (recoveredColumns settings now job row) =
          ⟨row, recoveredColumns settings now job row⟩ :: writes := by
        unfold Transaction.put
        rw [if_neg]
        simpa [same] using free
      rw [List.map_cons, List.nodup_cons] at distinct
      refine ⟨rfl, ?_⟩
      rw [added]
      refine ih (fun other member => selected other (.tail _ member)) distinct.2 ?_
        (List.forall_mem_cons.mpr ⟨stored, final⟩)
      intro other member
      refine List.forall_mem_cons.mpr ⟨?_, unlocked other (.tail _ member)⟩
      intro again
      exact distinct.1 (List.mem_map.mpr ⟨other, member, (same.symm.trans again).symm⟩)

end Safe

/-- Every call is safe when recovery's updates are fresh. -/
theorem jobProgram_safe (settings : Settings) :
    SafeProgram (·.id) asSelected (JobFinal settings) (jobProgram settings) := by
  intro transaction
  have held : ∀ {claimed workerId} {job : IndexingJob}, heldBy claimed workerId job = true →
      job.status.terminal = false := by
    intro claimed workerId job matched
    rw [(heldBy_iff.mp matched).2.1]
    rfl
  cases transaction with
  | claim jobId workerId now accepted =>
      refine updateOne_safe accepted fun job matched => ⟨rfl, .of_live ?_ (by simp) fun _ => rfl⟩
      simp only [claimable, Bool.and_eq_true, Bool.or_eq_true, beq_iff_eq] at matched
      rcases matched.1.2 with queued | retrying <;> simp [*, IndexingJobStatus.terminal]
  | heartbeat claimed workerId now =>
      exact updateOne_safe true fun job matched =>
        ⟨rfl, .of_live (held matched) (by simp) fun _ => rfl⟩
  | fail claimed workerId now jitter code safeMessage retryable =>
      exact updateOne_safe true fun job matched =>
        ⟨rfl, .of_live (held matched) (by simp) fun _ => rfl⟩
  | activate claimed workerId now commitSha accepted =>
      exact lockHeld_safe accepted fun job matched =>
        ⟨rfl, .of_live (held matched) (by simp) fun _ => rfl⟩
  | markStale claimed workerId now code superseded =>
      exact lockHeld_safe true fun job matched =>
        ⟨rfl, .of_live (held matched) (by simp) fun _ => rfl⟩
  | cancelRevoked claimed workerId now =>
      exact updateOne_safe true fun job matched =>
        ⟨rfl, .of_live (held matched) (by simp) fun _ => rfl⟩
  | recoverAbandoned now =>
      exact fun jobs selected distinct =>
        recoverSelected_safe jobs selected distinct (by simp) (by simp [JobFinal])

/-! ## Runs -/

abbrev JobState := State IndexingJob Unit JobTransaction

/-- A job at rest keeps its status. -/
def Absorbed (old new : IndexingJob) : Prop :=
  old.status.terminal = true → new.status = old.status

theorem Absorbed.trans {first second third : IndexingJob} (left : Absorbed first second)
    (right : Absorbed second third) : Absorbed first third := by
  intro ended
  have same := left ended
  exact (right (same ▸ ended)).trans same

section Run

variable {settings : Settings} {state : JobState}

theorem run_absorbed (ok : StateOk (·.id) asSelected (JobFinal settings) state)
    (actions : List (Action JobTransaction))
    (fresh : State.freshRun (·.id) asSelected (jobProgram settings) state actions = true) :
    Evolves (·.id) Absorbed (fun _ => False) state.table
      (state.run (·.id) (jobProgram settings) actions).table := by
  refine ok.run_rule (jobProgram_safe settings)
    (fun table _ => Evolves (·.id) Absorbed (fun _ => False) state.table table)
    (.refl fun _ _ => rfl) ?_ actions fresh
  intro table log commit evolved unique committed final
  refine evolved.trans (fun _ _ _ => .trans) (fun _ _ impossible _ => impossible) ?_
  exact committed.evolves unique Absorbed (fun _ _ => rfl)
    fun write member => (final write member).absorbed

/-- A RUNNING job has a heartbeat, because its claim wrote one. -/
theorem run_beating (ok : StateOk (·.id) asSelected (JobFinal settings) state)
    (beating : ∀ job ∈ state.table, job.status = .running → job.heartbeatAt.isSome = true)
    (actions : List (Action JobTransaction))
    (fresh : State.freshRun (·.id) asSelected (jobProgram settings) state actions = true) :
    ∀ job ∈ (state.run (·.id) (jobProgram settings) actions).table, job.status = .running →
      job.heartbeatAt.isSome = true := by
  refine ok.run_rule (jobProgram_safe settings)
    (fun table _ => ∀ job ∈ table, job.status = .running → job.heartbeatAt.isSome = true)
    beating ?_ actions fresh
  intro table log commit prior unique committed final job member
  have evolved := committed.evolves unique
    (fun old new => (old.status = .running → old.heartbeatAt.isSome = true) →
      new.status = .running → new.heartbeatAt.isSome = true)
    (fun _ beats => beats) fun write writeMember => (final write writeMember).beating
  rcases evolved.origin member with ⟨old, oldMember, step, _⟩ | impossible
  · exact step (prior old oldMember)
  · exact impossible.elim

/-- The commit of a recovery takes only abandoned jobs. -/
theorem step_abandoned (ok : StateOk (·.id) asSelected (JobFinal settings) state) {place : Nat}
    {session : Session IndexingJob Unit JobTransaction} {now : Timestamp}
    (located : state.sessions[place]? = some session)
    (recovery : session.label = .recoverAbandoned now) {job next : IndexingJob}
    (member : job ∈ state.table) (running : job.status = .running)
    (nextMember : next ∈ (state.apply (·.id) (jobProgram settings) (.step place)).table)
    (sameId : next.id = job.id) (taken : next.status ≠ .running) :
    abandoned settings now job = true := by
  rcases StateOk.apply_cases (jobProgram settings) ok (.step place) with
    ⟨table, _⟩ | ⟨other, otherSession, commit, same, found, label, committed, final, table, _⟩
  · rw [table] at nextMember
    rw [ok.unique.row_eq nextMember member sameId] at taken
    exact (taken running).elim
  · cases same
    rw [located] at found
    cases found
    have evolved := committed.evolves ok.unique
      (fun old new => new = old ∨ JobWrite settings commit.label old new) (fun _ => .inl rfl)
      fun write writeMember => Or.inr (final write writeMember)
    rw [table] at nextMember
    rcases evolved.step_of_key ok.unique member nextMember sameId with unchanged | written
    · rw [unchanged] at taken
      exact (taken running).elim
    · exact written.abandoned now (label.trans recovery) running

end Run

/-- An interleaving of job transactions on a table of jobs. -/
def jobRun (settings : Settings) (jobs : List IndexingJob)
    (actions : List (Action JobTransaction)) : JobState :=
  State.run (·.id) { table := jobs } (jobProgram settings) actions

/-- Every recovery update finds the status and heartbeat that it selected. -/
def recoveryFresh (settings : Settings) (jobs : List IndexingJob)
    (actions : List (Action JobTransaction)) : Bool :=
  State.freshRun (·.id) asSelected (jobProgram settings) { table := jobs } actions

/-- In every interleaving with fresh recovery updates a job at rest keeps its
status, and a recovery takes a RUNNING job only if its heartbeat is older than
the cutoff when the update commits. -/
theorem fresh_recovery_absorbing {settings : Settings} {jobs : List IndexingJob}
    (unique : UniqueKey (·.id) jobs)
    (beating : ∀ job ∈ jobs, job.status = .running → job.heartbeatAt.isSome = true)
    {actions : List (Action JobTransaction)} (fresh : recoveryFresh settings jobs actions = true) :
    (∀ before after, actions = before ++ after →
      ∀ job ∈ (jobRun settings jobs before).table, job.status.terminal = true →
      ∀ later ∈ (jobRun settings jobs actions).table, later.id = job.id →
        later.status = job.status) ∧
    ∀ before place after, actions = before ++ .step place :: after →
      ∀ session now, (jobRun settings jobs before).sessions[place]? = some session →
        session.label = .recoverAbandoned now →
      ∀ job ∈ (jobRun settings jobs before).table, job.status = .running →
      ∀ next ∈ (jobRun settings jobs (before ++ [.step place])).table, next.id = job.id →
        next.status ≠ .running →
        ∃ beat, job.heartbeatAt = some beat ∧ beat < now - settings.abandonedAfter := by
  have start : StateOk (·.id) asSelected (JobFinal settings) ({ table := jobs } : JobState) :=
    .ofTable unique
  unfold recoveryFresh at fresh
  constructor
  · rintro before after rfl job member ended later laterMember sameId
    rw [State.freshRun_append, Bool.and_eq_true] at fresh
    have middle := start.run (jobProgram_safe settings) before fresh.1
    rw [jobRun, State.run_append] at laterMember
    exact (run_absorbed middle after fresh.2).step_of_key middle.unique member laterMember sameId
      ended
  · rintro before place after rfl session now located recovery job member running next nextMember
      sameId taken
    rw [State.freshRun_append, Bool.and_eq_true] at fresh
    have middle := start.run (jobProgram_safe settings) before fresh.1
    rw [jobRun, State.run_snoc] at nextMember
    have stale := step_abandoned middle located recovery member running nextMember sameId taken
    have beats := run_beating start beating before fresh.1 job member running
    obtain ⟨beat, found⟩ := Option.isSome_iff_exists.mp beats
    exact ⟨beat, found, (abandoned_iff.mp stale).2 beat found⟩

/-! ## A recovery that overlaps a live worker -/

namespace Overlap

def settings : Settings where
  embeddingModelIdentifier := "model"
  embeddingModelRevision := "revision"
  embeddingDimension := 1

/-- A claimed job whose last heartbeat is forty seconds old at the recovery. -/
def job : IndexingJob where
  id := 1
  repositoryId := 1
  jobType := .initialIndex
  status := .running
  attempt := 1
  lockedBy := some "worker"
  heartbeatAt := some 0

def claimed : ClaimedJob := ⟨1, 1, 1⟩

/-- Recovery selects the job; the call runs to its commit; then recovery writes. -/
def schedule (call : JobTransaction) (statements : Nat) : List (Action JobTransaction) :=
  [.start (.recoverAbandoned 40000), .step 0, .start call] ++
    List.replicate statements (.step 1)

def recovery : List (Action JobTransaction) := [.step 0, .step 0]

def activation : JobTransaction := .activate claimed "worker" 40001 "commit" true

def beat : JobTransaction := .heartbeat claimed "worker" 40001

def statuses (state : JobState) : List (IndexingJobStatus × Option Timestamp) :=
  state.table.map fun row => (row.status, row.heartbeatAt)

end Overlap

open Overlap in
/-- The recovery reopens a completed job, and takes a claim that just beat. -/
theorem overlapping_recovery_reopens :
    statuses (jobRun settings [job] (schedule activation 3)) = [(.complete, some 40001)] ∧
    statuses (jobRun settings [job] (schedule activation 3 ++ recovery)) =
      [(.retrying, some 40001)] ∧
    statuses (jobRun settings [job] (schedule beat 2)) = [(.running, some 40001)] ∧
    statuses (jobRun settings [job] (schedule beat 2 ++ recovery)) = [(.retrying, some 40001)] ∧
    40000 - settings.abandonedAfter < 40001 := by
  decide

open Overlap in
/-- A recovery that nothing overlaps takes the abandoned job. -/
theorem lone_recovery_takes : ∃ beat, job.heartbeatAt = some beat ∧
    beat < 40000 - settings.abandonedAfter := by
  have unique : UniqueKey (·.id) [job] := by simp [UniqueKey]
  have fresh : recoveryFresh settings [job]
      [.start (.recoverAbandoned 40000), .step 0, .step 0, .step 0] = true := by decide
  exact (fresh_recovery_absorbing unique (by decide) fresh).2
    [.start (.recoverAbandoned 40000), .step 0, .step 0] 0 [] rfl _ 40000 rfl rfl job (by decide)
    rfl ((jobRun settings [job] [.start (.recoverAbandoned 40000), .step 0, .step 0,
      .step 0]).table.head (by decide)) (List.head_mem _) (by decide) (by decide)

end Codenaut.Services
