import Codenaut.Services.AcceptedPushes
import Codenaut.System.ActiveVectors

/-!
# Pushes and the branch head

One repository's default branch at its provider beside the world: pushes move
the head, each push is delivered once, and a clone answers the head. An accepted
push that creates no job relies on a run that is already under way.
-/

set_option autoImplicit false

namespace Codenaut.System

open Codenaut.ActiveIndex Codenaut.Core Codenaut.Db Codenaut.Indexing Codenaut.Interaction
open Codenaut.Relational Codenaut.Services

/-! ## The branch -/

/-- The world with the head of a branch, the pushes whose deliveries are
outstanding, and the commit of the push that was accepted last. -/
structure Hosted where
  world : World := {}
  head : CommitSha
  outstanding : List CommitSha := []
  accepted : Option CommitSha := none

inductive Event where
  | push (after : CommitSha)
  | act (action : Action)

/-- The transactions of the worker process and its queue outside a claimed run. -/
def queueWork : Operation → Bool
  | .recoverAbandoned | .markEnqueued _ | .recordEnqueued _ | .recordQueueFailure _ => true
  | _ => false

def Action.ofWorker : Action → Bool
  | .serve _ operation _ => queueWork operation
  | _ => true

/-- A clone that succeeds answers this commit. -/
def clonesCommit (commit : CommitSha) (outside : Outside) :
    Program Request Request.Reply (Except Failure Unit × RunState) → Bool
  | .ask (.clone owner name defaultBranch token) _ =>
      match outside.reply (.clone owner name defaultBranch token) with
      | .ok cloned => cloned.commitSha == commit
      | .error _ => true
  | _ => true

/-- The job ended FAILED, or was cancelled because its authorization was lost. -/
def failed (job : IndexingJob) : Bool :=
  job.status == .failed ||
    (job.status == .cancelled && job.errorCode == some "repository_access_revoked")

namespace World

/-- The commit of an accepted push to the default branch of a repository. -/
def pushed (world : World) (repositoryId : RepositoryId) : Action → Option CommitSha
  | .serve _ operation _ =>
      (acceptedPush world.journal.database operation).bind fun (repository, after) =>
        if repository.id = repositoryId then some after else none
  | _ => none

def clonesHead (world : World) (repositoryId : RepositoryId) (head : CommitSha) : Action → Bool
  | .work workerId outside =>
      (world.runs workerId).all fun run =>
        run.claimed.repositoryId != repositoryId || clonesCommit head outside run.program
  | _ => true

/-- No job of the repository fails in the step. -/
def unfailing (settings : Settings) (platform : Platform) (repositoryId : RepositoryId)
    (world : World) (action : Action) : Bool :=
  (world.step settings platform action).journal.database.indexingJobs.all fun job =>
    job.repositoryId != repositoryId || !failed job ||
      world.journal.database.indexingJobs.any fun prior => prior.id == job.id && failed prior

end World

namespace Hosted

def step (settings : Settings) (platform : Platform) (repositoryId : RepositoryId)
    (hosted : Hosted) : Event → Hosted
  | .push after => { hosted with head := after, outstanding := after :: hosted.outstanding }
  | .act action =>
      let pushed := hosted.world.pushed repositoryId action
      { world := hosted.world.step settings platform action
        head := hosted.head
        outstanding := pushed.elim hosted.outstanding hosted.outstanding.erase
        accepted := pushed.or hosted.accepted }

/-- The events of the repository: pushes, each delivered and accepted once, and
the worker's steps, in which clones answer the head and no job fails. -/
def admits (settings : Settings) (platform : Platform) (repositoryId : RepositoryId)
    (hosted : Hosted) : Event → Bool
  | .push _ => true
  | .act action =>
      hosted.world.unfailing settings platform repositoryId action &&
        match hosted.world.pushed repositoryId action with
        | some after => hosted.outstanding.contains after
        | none => action.ofWorker && hosted.world.clonesHead repositoryId hosted.head action

def Moves (settings : Settings) (platform : Platform) (repositoryId : RepositoryId)
    (condition : Hosted → Event → Prop) (before after : Hosted) : Prop :=
  ∃ event, before.admits settings platform repositoryId event = true ∧ condition before event ∧
    after = before.step settings platform repositoryId event

/-- Any number of events of one repository that each meet the condition. -/
def Path (settings : Settings) (platform : Platform) (repositoryId : RepositoryId)
    (condition : Hosted → Event → Prop) : Hosted → Hosted → Prop :=
  Relation.ReflTransGen (Moves settings platform repositoryId condition)

end Hosted

/-! ## What a shortcut relies on -/

/-- The job passes the freshness fence of its repository. -/
def Current (db : Database) (job : IndexingJob) : Prop :=
  ∃ row ∈ db.repositories, row.id = job.repositoryId ∧ fenceAllows job row = true

/-- The repository will come to this commit without a new job: no run of a
current job has been superseded or has cloned another commit, and the commit is
active or a current job is live. -/
structure Follows (world : World) (repositoryId : RepositoryId) (commit : CommitSha) : Prop where
  holders : ∀ workerId run, Holds world workerId run →
    ∀ job ∈ world.journal.database.indexingJobs, job.id = run.claimed.id →
    job.repositoryId = repositoryId → Current world.journal.database job →
    run.view.superseded = false ∧ ∀ cloned, run.view.cloned = some cloned → cloned = commit
  pending : ActiveCommit world.journal.database repositoryId (some commit) ∨
    ∃ job ∈ world.journal.database.indexingJobs, job.repositoryId = repositoryId ∧
      live job = true ∧ Current world.journal.database job

/-- A shortcut takes the last outstanding push only if the repository will come
to its commit. -/
def Hosted.sparesLast (repositoryId : RepositoryId) (hosted : Hosted) : Event → Prop
  | .push _ => True
  | .act action =>
      ∀ after, hosted.world.pushed repositoryId action = some after →
        hosted.outstanding.erase after = [] →
        (∀ row ∈ hosted.world.journal.database.repositories, row.id = repositoryId →
          takenByShortcut hosted.world.journal.database row after = true) →
        Follows hosted.world repositoryId after

/-! ## Rows under the fence -/

/-- Jobs move as their cause allows, none is inserted, and no column of the
freshness fence changes. -/
structure FencesKept (cause : Cause) (db stored : Database) : Prop where
  jobs : Evolves (·.id) (JobStep cause) (fun _ => False) db.indexingJobs stored.indexingJobs
  repositories : Evolves (·.id)
    (fun old new => new.refreshGeneration = old.refreshGeneration ∧
      new.defaultBranch = old.defaultBranch)
    (fun _ => False) db.repositories stored.repositories

theorem RepositoryStep.fence {cause : Cause} {old new : Repository}
    (step : RepositoryStep cause old new) (work : cause ≠ .service) :
    new.refreshGeneration = old.refreshGeneration ∧ new.defaultBranch = old.defaultBranch := by
  cases step with
  | unmoved kept => exact ⟨kept.generation, kept.branch⟩
  | activated change => exact ⟨change.generation, change.branch⟩
  | served => exact (work rfl).elim

section Rows

variable {cause : Cause} {db stored : Database} {job next : IndexingJob}

theorem fenceAllows_congr {row successor : Repository} (request : SameRequest job next)
    (fence : successor.refreshGeneration = row.refreshGeneration ∧
      successor.defaultBranch = row.defaultBranch) :
    fenceAllows next successor = fenceAllows job row := by
  simp only [fenceAllows, request.refreshGeneration, request.targetBranch, fence.1, fence.2]

theorem Current.before (kept : FencesKept cause db stored) (request : SameRequest job next)
    (current : Current stored next) : Current db job := by
  obtain ⟨row, member, place, allowed⟩ := current
  rcases kept.repositories.origin member with ⟨prior, priorMember, fence, sameId⟩ | impossible
  · refine ⟨prior, priorMember, sameId.symm.trans (place.trans request.repositoryId), ?_⟩
    rw [← fenceAllows_congr request fence]
    exact allowed
  · exact impossible.elim

theorem Current.after (kept : FencesKept cause db stored) (request : SameRequest job next)
    (current : Current db job) : Current stored next := by
  obtain ⟨row, member, place, allowed⟩ := current
  obtain ⟨successor, successorMember, fence, sameId⟩ := kept.repositories.successor member
  refine ⟨successor, successorMember, sameId.trans (place.trans request.repositoryId.symm), ?_⟩
  rw [fenceAllows_congr request fence]
  exact allowed

end Rows

section Step

variable {settings : Settings} {platform : Platform} {world : World} {action : Action}
  {repositoryId : RepositoryId} {head : CommitSha} {entry : Transaction}

theorem Issued.fencesKept (issued : Issued world action entry)
    (consistent : Consistent world.journal.database) (worker : action.ofWorker = true) :
    FencesKept entry.operation.cause world.journal.database
      (entry.operation.apply settings platform entry.moment world.journal.database) := by
  by_cases service : entry.operation.cause = .service
  · cases issued with
    | served outsideRuns =>
        rename_i moment operation
        cases operation with
        | recordQueueFailure deliveryRow => exact ⟨.refl .refl, .refl fun _ => ⟨rfl, rfl⟩⟩
        | recoverAbandoned => cases service
        | markEnqueued jobId => cases service
        | recordEnqueued jobId => cases service
        | _ => cases worker
    | claimed => cases service
    | beat => cases service
    | asked live asks =>
        rename_i workerId outside run call next committed
        cases call <;> cases service
  · have effect := entry.operation.workerEffect settings platform entry.moment consistent.jobIds
      consistent.repositoryIds service
    exact ⟨effect.jobs, effect.repositories.mono (fun _ _ step => RepositoryStep.fence step service)
      fun _ => id⟩

/-- The commit of a committed activation is active after it. -/
theorem activeCommit_of_committed {journal after : Journal} {operation : Operation}
    {activation : Activation} {claimed : ClaimedJob} {workerId : WorkerId}
    {build : RepositoryIndexBuild} {now : Timestamp}
    (committed : CommittedActivation journal after operation activation claimed workerId build
      now) :
    ActiveCommit after.database activation.repository.id (some activation.commitSha) := by
  obtain ⟨delivered, rows⟩ := committed.repositories
  refine ⟨activatedRepository now (activation.repository.indexVersion + 1) activation.commitSha
    build.vectorCount delivered activation.repository, ?_, rfl, rfl⟩
  rw [rows]
  exact mem_updateWhere.mpr ⟨activation.repository, committed.repository_mem, by simp⟩

/-- A transaction activates a commit of the repository or keeps the active one. -/
theorem activeCommit_cases (sound : WorldSound settings platform world) (entry : Transaction)
    (repositoryId : RepositoryId) :
    (∃ activation claimed workerId build, CommittedActivation world.journal
        (world.journal.apply settings platform entry.moment entry.operation) entry.operation
        activation claimed workerId build entry.moment.now ∧
      activation.repository.id = repositoryId) ∨
    ∀ commit, ActiveCommit world.journal.database repositoryId commit →
      ActiveCommit (world.journal.apply settings platform entry.moment entry.operation).database
        repositoryId commit := by
  have consistent := sound.journal.consistent
  by_cases kept : (world.journal.apply settings platform entry.moment
      entry.operation).history.activationsOf repositoryId =
        world.journal.history.activationsOf repositoryId
  · right
    rintro commit ⟨row, member, rfl, indexed⟩
    have effect := entry.operation.effect settings platform entry.moment consistent.jobIds
      consistent.repositoryIds
    obtain ⟨next, nextMember, _, sameId⟩ := effect.repositories.successor member
    have same := (reachable_sound sound.journal).sameIndex entry.moment entry.operation member
      nextMember sameId kept
    exact ⟨next, nextMember, same.id, same.commit.trans indexed⟩
  · left
    rcases apply_cases settings platform consistent entry.moment entry.operation with
      ⟨activation, claimed, workerId, build, committed⟩ | unactivated
    · refine ⟨activation, claimed, workerId, build, committed, ?_⟩
      by_contra apart
      exact kept (by simp [History.activationsOf, committed.recorded, apart])
    · exact (kept (by simp [History.activationsOf, unactivated.activations])).elim

/-- A current holder activates the commit that it cloned. -/
theorem Follows.activated (follows : Follows world repositoryId head)
    (sound : WorldSound settings platform world) (issued : Issued world action entry)
    {after : Journal} {activation : Activation} {claimed : ClaimedJob} {workerId : WorkerId}
    {build : RepositoryIndexBuild} {now : Timestamp}
    (committed : CommittedActivation world.journal after entry.operation activation claimed
      workerId build now) (here : activation.repository.id = repositoryId) :
    ActiveCommit after.database repositoryId (some head) := by
  obtain ⟨outside, run, next, rfl, live, rfl, asks⟩ := issued.asker committed.operation nofun
  obtain ⟨cloned, _⟩ := (sound.runs workerId run live).allowed asks
  obtain ⟨jobMember, held⟩ := held_of_find committed.guards.found
  have owner := (repository?_mem committed.guards.located).2
  have holds : Holds world workerId run :=
    ⟨live, List.any_eq_true.mpr ⟨activation.job, jobMember, held⟩⟩
  have current : Current world.journal.database activation.job :=
    ⟨activation.repository, committed.repository_mem, owner, committed.guards.fenced⟩
  have same := (follows.holders workerId run holds activation.job jobMember (heldBy_iff.mp held).1
    (owner.symm.trans here) current).2 _ cloned
  rw [← same, ← here]
  exact activeCommit_of_committed committed

/-- A held job that passes the fence is answered to be current. -/
theorem Current.answered {db : Database} {job : IndexingJob} {claimed : ClaimedJob}
    {workerId : WorkerId} (consistent : Consistent db) (current : Current db job)
    (member : job ∈ db.indexingJobs) (held : heldBy claimed workerId job = true) :
    isCurrent db claimed workerId = true := by
  obtain ⟨row, rowMember, place, allowed⟩ := current
  have found := find_held consistent.jobIds member held
  have located := repository?_eq_some consistent.repositoryIds rowMember
  rw [place] at located
  simp [isCurrent, found, located, allowed]

theorem Follows.holders_step (follows : Follows world repositoryId head)
    (sound : WorldSound settings platform world)
    (kept : ∃ cause, FencesKept cause world.journal.database
      (world.step settings platform action).journal.database)
    (clones : world.clonesHead repositoryId head action = true) {workerId : WorkerId} {run : Run}
    (holds : Holds (world.step settings platform action) workerId run) {job : IndexingJob}
    (member : job ∈ (world.step settings platform action).journal.database.indexingJobs)
    (sameJob : job.id = run.claimed.id) (owner : job.repositoryId = repositoryId)
    (current : Current (world.step settings platform action).journal.database job) :
    run.view.superseded = false ∧ ∀ cloned, run.view.cloned = some cloned → cloned = head := by
  obtain ⟨cause, kept⟩ := kept
  rcases kept.jobs.origin member with ⟨prior, priorMember, step, sameId⟩ | impossible
  swap
  · exact impossible.elim
  have priorOwner : prior.repositoryId = repositoryId := step.request.repositoryId.symm.trans owner
  have priorCurrent := Current.before kept step.request current
  cases step_runs holds.live with
  | kept before =>
      exact follows.holders workerId run (holds.before sound before rfl) prior priorMember
        (sameId.symm.trans sameJob) priorOwner priorCurrent
  | started => exact ⟨rfl, nofun⟩
  | advanced before asks =>
      rename_i outside earlier request rest
      have held := holds.before sound before rfl
      have priorJob : prior.id = earlier.claimed.id := sameId.symm.trans sameJob
      have earlierView := follows.holders workerId earlier held prior priorMember priorJob
        priorOwner priorCurrent
      simp only [Run.advance]
      generalize replied : world.reply settings platform workerId earlier.claimed outside request =
        reply
      have learned := earlier.view.learned request reply
      generalize earlier.view.learn request reply = learnt at learned ⊢
      cases learned with
      | authorized answer =>
          rw [RunView.authorize_superseded, RunView.authorize_cloned]
          exact earlierView
      | currency answer =>
          obtain ⟨_, stored, success⟩ : outside.commit = .answered ∧ ∃ stored,
              StoreCall.isCurrent.transact settings platform outside.moment earlier.claimed
                workerId world.journal.database = .ok (answer, stored) := callReply_ok replied
          obtain ⟨own, ownMember, ownHeld, _⟩ := held.job sound
          obtain rfl := sound.journal.consistent.jobIds.row_eq ownMember priorMember
            ((heldBy_iff.mp ownHeld).1.trans priorJob.symm)
          have answered : isCurrent world.journal.database earlier.claimed workerId = answer :=
            congrArg Prod.fst (Except.ok.inj success)
          rw [priorCurrent.answered sound.journal.consistent ownMember ownHeld] at answered
          refine ⟨?_, earlierView.2⟩
          simp [← answered, earlierView.1]
      | @cloned login name branch token result =>
          refine ⟨earlierView.1, ?_⟩
          rintro _ ⟨⟩
          obtain ⟨own, ownMember, ownHeld, ownOwner⟩ := held.job sound
          have equal := sound.journal.consistent.jobIds.row_eq ownMember priorMember
            ((heldBy_iff.mp ownHeld).1.trans priorJob.symm)
          have here : earlier.claimed.repositoryId = repositoryId :=
            ownOwner.symm.trans (equal ▸ priorOwner)
          have answered : outside.reply (.clone login name branch token) = .ok result := replied
          simpa [World.clonesHead, before, here, clonesCommit, asks, answered] using clones
      | _ => exact earlierView

/-- Only a committed activation completes a job. -/
theorem completed_activation (sound : WorldSound settings platform world) {claimed : ClaimedJob}
    {workerId : WorkerId} {job next : IndexingJob}
    (cause : entry.operation.cause = .activate claimed workerId)
    (member : job ∈ world.journal.database.indexingJobs)
    (held : heldBy claimed workerId job = true)
    (nextMember : next ∈ (world.journal.apply settings platform entry.moment
      entry.operation).database.indexingJobs)
    (sameId : next.id = job.id) (complete : next.status = .complete) :
    ∃ activation build, CommittedActivation world.journal
      (world.journal.apply settings platform entry.moment entry.operation) entry.operation
      activation claimed workerId build entry.moment.now ∧ activation.job = job := by
  have consistent := sound.journal.consistent
  obtain ⟨commitSha, activates⟩ : ∃ commitSha,
      entry.operation = .store claimed workerId (.activate commitSha) := by
    cases operation : entry.operation with
    | store taken worker call =>
        rw [operation] at cause
        cases call with
        | activate commitSha =>
            cases cause
            exact ⟨commitSha, rfl⟩
        | _ => cases cause
    | _ =>
        rw [operation] at cause
        cases cause
  cases outcome : activate world.journal.database entry.moment.now claimed workerId commitSha with
  | error failure =>
      have unchanged : (world.journal.apply settings platform entry.moment
          entry.operation).database = world.journal.database := by
        simp [activates, Journal.apply, Operation.apply, StoreCall.apply, StoreCall.transact,
          outcome]
      rw [unchanged] at nextMember
      rw [consistent.jobIds.row_eq nextMember member sameId, (heldBy_iff.mp held).2.1] at complete
      cases complete
  | ok result =>
      rcases apply_cases settings platform consistent entry.moment entry.operation with
        ⟨activation, taken, worker, build, committed⟩ | unactivated
      · have same := activates.symm.trans committed.operation
        cases same
        have found := find_held consistent.jobIds member held
        exact ⟨activation, build, committed,
          Option.some.inj (committed.guards.found.symm.trans found)⟩
      · obtain ⟨activation, recorded⟩ : ∃ activation, Recorded world.journal
            (world.journal.apply settings platform entry.moment
              (.store claimed workerId (.activate commitSha))) claimed commitSha activation :=
          activate_recorded (reachable_sound sound.journal) outcome
        have grown := recorded.entry
        rw [← activates, unactivated.activations] at grown
        exact absurd (congrArg List.length grown) (by simp)

/-- A job of the repository that was live has not failed after the step. -/
theorem intact_of_unfailing (sound : WorldSound settings platform world)
    (unfailing : world.unfailing settings platform repositoryId action = true)
    {job next : IndexingJob} (member : job ∈ world.journal.database.indexingJobs)
    (alive : live job = true)
    (nextMember : next ∈ (world.step settings platform action).journal.database.indexingJobs)
    (sameId : next.id = job.id) (owner : next.repositoryId = repositoryId) :
    failed next = false := by
  have spared := List.all_eq_true.mp unfailing next nextMember
  simp only [owner, bne_self_eq_false, Bool.false_or, Bool.or_eq_true, Bool.not_eq_true',
    List.any_eq_true, Bool.and_eq_true, beq_iff_eq] at spared
  rcases spared with intact | ⟨prior, priorMember, priorId, already⟩
  · exact intact
  · obtain rfl := sound.journal.consistent.jobIds.row_eq priorMember member
      (priorId.trans sameId)
    cases status : prior.status <;> simp [live, failed, status] at alive already

/-- A current holder that ends its job as stale cloned the active commit. -/
theorem Follows.stale_active (follows : Follows world repositoryId head)
    (sound : WorldSound settings platform world) (known : KnownCommits world)
    {workerId : WorkerId} {run : Run} (holds : Holds world workerId run)
    {code : String} {superseded : Bool}
    {rest : Except Failure Unit → Program Request Request.Reply (Except Failure Unit × RunState)}
    (asks : run.program = .ask (.store (.markStale code superseded)) rest) {job : IndexingJob}
    (member : job ∈ world.journal.database.indexingJobs) (sameJob : job.id = run.claimed.id)
    (owner : job.repositoryId = repositoryId) (current : Current world.journal.database job) :
    ActiveCommit world.journal.database repositoryId (some head) := by
  obtain ⟨unsuperseded, clones⟩ :=
    follows.holders workerId run holds job member sameJob owner current
  obtain ⟨own, ownMember, ownHeld, ownOwner⟩ := holds.job sound
  obtain rfl := sound.journal.consistent.jobIds.row_eq ownMember member
    ((heldBy_iff.mp ownHeld).1.trans sameJob.symm)
  have allowed : run.view.superseded = true ∨ run.view.unchangedTarget :=
    (sound.runs workerId run holds.live).allowed asks
  rcases allowed with overtaken | ⟨context, present, indexed, unchanged⟩
  · simp [unsuperseded] at overtaken
  · have active := known workerId run context holds present
    obtain ⟨commit, commits⟩ := Option.isSome_iff_exists.mp indexed
    rw [commits] at active unchanged
    rw [clones commit unchanged.symm, ownOwner.symm.trans owner] at active
    exact active

/-- A job whose run is cancelled for want of access has failed. -/
theorem cancelRevoked_failed {db : Database} {now : Timestamp} {claimed : ClaimedJob}
    {workerId : WorkerId} {job next : IndexingJob} (jobIds : UniqueKey (·.id) db.indexingJobs)
    (member : job ∈ db.indexingJobs) (held : heldBy claimed workerId job = true)
    (nextMember : next ∈ (cancelRevoked db now claimed workerId).indexingJobs)
    (sameId : next.id = job.id) : failed next = true := by
  rw [cancelRevoked_jobs, mem_updateWhere] at nextMember
  obtain ⟨prior, priorMember, rfl⟩ := nextMember
  have priorId : prior.id = job.id := by
    rw [← sameId]
    split <;> rfl
  obtain rfl := jobIds.row_eq priorMember member priorId
  simp [held, revokedJob, failed]

/-- A current job ends with the head active, unless it fails. -/
theorem Follows.ended (follows : Follows world repositoryId head)
    (sound : WorldSound settings platform world) (known : KnownCommits world)
    (issued : Issued world action entry) {job next : IndexingJob}
    (member : job ∈ world.journal.database.indexingJobs) (owner : job.repositoryId = repositoryId)
    (alive : live job = true) (current : Current world.journal.database job)
    (nextMember : next ∈ (world.journal.apply settings platform entry.moment
      entry.operation).database.indexingJobs)
    (sameId : next.id = job.id) (step : JobStep entry.operation.cause job next)
    (finished : live next = false) (intact : failed next = false) :
    ActiveCommit world.journal.database repositoryId (some head) ∨
      ∃ activation claimed workerId build, CommittedActivation world.journal
        (world.journal.apply settings platform entry.moment entry.operation) entry.operation
        activation claimed workerId build entry.moment.now ∧
        activation.repository.id = repositoryId := by
  have consistent := sound.journal.consistent
  generalize same : entry.operation.cause = cause at step
  cases step with
  | kept _ claim =>
      have unchanged : live next = live job := by simp only [live, claim.status]
      rw [unchanged, alive] at finished
      cases finished
  | claimed _ _ _ running => simp [live, running] at finished
  | targeted _ _ running status => simp [live, status, running] at finished
  | completed held released status =>
      obtain ⟨activation, build, committed, rfl⟩ :=
        completed_activation sound same member held nextMember sameId status
      exact .inr ⟨activation, _, _, build, committed,
        (repository?_mem committed.guards.located).2.trans owner⟩
  | @cancelled claimed workerId _ _ held released status =>
      left
      cases operation : entry.operation with
      | store taken worker call =>
          rw [operation] at same
          cases call with
          | markStale code superseded =>
              cases same
              obtain ⟨outside, run, rest, rfl, live, rfl, asks⟩ := issued.asker operation nofun
              have holds : Holds world workerId run :=
                ⟨live, List.any_eq_true.mpr ⟨job, member, held⟩⟩
              exact follows.stale_active sound known holds asks member (heldBy_iff.mp held).1
                owner current
          | cancelRevoked =>
              cases same
              rw [operation] at nextMember
              rw [cancelRevoked_failed consistent.jobIds member held nextMember sameId] at intact
              cases intact
          | _ => cases same
      | _ =>
          rw [operation] at same
          cases same
  | failed held released status =>
      rcases status with retrying | failed
      · simp [live, retrying] at finished
      · simp [System.failed, failed] at intact
  | recovered running released status =>
      rcases status with retrying | failed
      · simp [live, retrying] at finished
      · simp [System.failed, failed] at intact

/-- A worker's step does not leave the head behind. -/
theorem Follows.step (follows : Follows world repositoryId head)
    (sound : WorldSound settings platform world) (known : KnownCommits world)
    (worker : action.ofWorker = true)
    (clones : world.clonesHead repositoryId head action = true)
    (unfailing : world.unfailing settings platform repositoryId action = true) :
    Follows (world.step settings platform action) repositoryId head := by
  have consistent := sound.journal.consistent
  rcases step_journal settings platform world action with idle | ⟨entry, issued, applied⟩
  · have kept : FencesKept .work world.journal.database
        (world.step settings platform action).journal.database := by
      rw [idle]
      exact ⟨.refl .refl, .refl fun _ => ⟨rfl, rfl⟩⟩
    refine ⟨fun workerId run holds job member => follows.holders_step sound ⟨_, kept⟩ clones holds
      member, ?_⟩
    rw [idle]
    exact follows.pending
  · have kept : FencesKept entry.operation.cause world.journal.database
        (world.step settings platform action).journal.database := by
      rw [applied]
      exact issued.fencesKept consistent worker
    refine ⟨fun workerId run holds job member => follows.holders_step sound ⟨_, kept⟩ clones holds
      member, ?_⟩
    rcases activeCommit_cases sound entry repositoryId with
      ⟨activation, claimed, workerId, build, committed, here⟩ | keeps
    · rw [applied]
      exact .inl (follows.activated sound issued committed here)
    · rw [← applied] at keeps
      rcases follows.pending with active | ⟨job, member, owner, alive, current⟩
      · exact .inl (keeps _ active)
      · obtain ⟨next, nextMember, step, sameId⟩ := kept.jobs.successor member
        have nextOwner := step.request.repositoryId.trans owner
        cases finished : live next with
        | true =>
            exact .inr
              ⟨next, nextMember, nextOwner, finished, Current.after kept step.request current⟩
        | false =>
            have intact := intact_of_unfailing sound unfailing member alive nextMember sameId
              nextOwner
            have stored := nextMember
            rw [applied] at stored
            rcases follows.ended sound known issued member owner alive current stored sameId step
              finished intact with active | ⟨activation, claimed, workerId, build, committed, here⟩
            · exact .inl (keeps _ active)
            · rw [applied]
              exact .inl (follows.activated sound issued committed here)

/-- What an accepted push of the repository commits. -/
theorem pushed_outcome (settings : Settings) (platform : Platform) {after : CommitSha}
    (pushed : world.pushed repositoryId action = some after) :
    ∃ repository ∈ world.journal.database.repositories, repository.id = repositoryId ∧
      PushOutcome world.journal.database
        (world.step settings platform action).journal.database repository after := by
  cases action with
  | serve moment operation outsideRuns =>
      simp only [World.pushed, Option.bind_eq_some_iff] at pushed
      obtain ⟨⟨repository, commit⟩, accepted, here⟩ := pushed
      split at here
      case isTrue same =>
          cases here
          obtain ⟨member, outcome⟩ := acceptedPush_outcome accepted
          exact ⟨repository, member, same, outcome⟩
      case isFalse => cases here
  | _ => cases pushed

/-- A raised generation leaves no job of before it current. -/
theorem Follows.of_refreshed (sound : WorldSound settings platform world)
    {repository : Repository} (member : repository ∈ world.journal.database.repositories)
    {job : IndexingJob}
    (jobs : (world.step settings platform action).journal.database.indexingJobs =
      world.journal.database.indexingJobs ++ [job])
    (owner : job.repositoryId = repository.id) (alive : live job = true)
    (row : ∃ row ∈ (world.step settings platform action).journal.database.repositories,
      row.id = repository.id ∧ repository.refreshGeneration < row.refreshGeneration ∧
      fenceAllows job row = true)
    (runs : (world.step settings platform action).runs = world.runs) (commit : CommitSha) :
    Follows (world.step settings platform action) repository.id commit := by
  have consistent := sound.journal.consistent
  have after := (sound.step action).journal.consistent
  obtain ⟨row, rowMember, rowId, raised, allowed⟩ := row
  constructor
  · intro workerId run holds other otherMember sameJob otherOwner current
    have live := holds.live
    rw [runs] at live
    obtain ⟨prior, priorMember, priorId, _⟩ := (sound.runs workerId run live).job
    have stored := jobs ▸ List.mem_append_left [job] priorMember
    obtain rfl := after.jobIds.row_eq stored otherMember (priorId.trans sameJob.symm)
    obtain ⟨place, placeMember, placeId, bound⟩ := consistent.jobOwners prior priorMember
    obtain rfl := consistent.repositoryIds.row_eq placeMember member (placeId.trans otherOwner)
    obtain ⟨fenced, fencedMember, fencedId, fence⟩ := current
    obtain rfl := after.repositoryIds.row_eq fencedMember rowMember
      ((fencedId.trans otherOwner).trans rowId.symm)
    simp only [fenceAllows, Bool.and_eq_true, beq_iff_eq] at fence
    omega
  · refine .inr ⟨job, ?_, owner, alive, row, rowMember, rowId.trans owner.symm, allowed⟩
    rw [jobs]
    exact List.mem_append_right _ (.head _)

/-- An accepted push is followed, by a new job or by what its shortcut relies on. -/
theorem Follows.of_pushed (sound : WorldSound settings platform world) {after : CommitSha}
    (pushed : world.pushed repositoryId action = some after)
    (spares : (∀ row ∈ world.journal.database.repositories, row.id = repositoryId →
        takenByShortcut world.journal.database row after = true) →
      Follows world repositoryId after) :
    Follows (world.step settings platform action) repositoryId after := by
  have consistent := sound.journal.consistent
  obtain ⟨repository, member, rfl, outcome⟩ := pushed_outcome settings platform pushed
  cases outcome with
  | noted taken jobs repositories =>
      have follows := spares fun row rowMember same =>
        consistent.repositoryIds.row_eq rowMember member same ▸ taken
      have kept : FencesKept .service world.journal.database
          (world.step settings platform action).journal.database :=
        ⟨.ofEq .refl jobs, repositories.mono (fun _ _ same => ⟨same.generation, same.branch⟩)
          fun _ => id⟩
      refine ⟨fun workerId run holds job => follows.holders_step sound ⟨_, kept⟩ ?_ holds, ?_⟩
      · cases action with
        | serve => rfl
        | _ => cases pushed
      · rcases follows.pending with ⟨row, rowMember, here, active⟩ |
          ⟨job, jobMember, owner, alive, current⟩
        · obtain ⟨next, nextMember, same, sameId⟩ := repositories.successor rowMember
          exact .inl ⟨next, nextMember, sameId.trans here, same.commit.trans active⟩
        · exact .inr ⟨job, jobs ▸ jobMember, owner, alive,
            Current.after kept (.refl job) current⟩
  | refreshed job jobs owner alive row =>
      refine Follows.of_refreshed sound member jobs owner alive row ?_ after
      cases action with
      | serve => rfl
      | _ => cases pushed

end Step

/-! ## Runs -/

/-- What holds in every state of the events of a repository. -/
structure HostedSound (settings : Settings) (platform : Platform) (repositoryId : RepositoryId)
    (hosted : Hosted) : Prop where
  world : WorldSound settings platform hosted.world
  known : KnownCommits hosted.world
  follows : hosted.outstanding = [] → hosted.accepted = some hosted.head →
    Follows hosted.world repositoryId hosted.head

theorem HostedSound.step {settings : Settings} {platform : Platform}
    {repositoryId : RepositoryId} {hosted : Hosted}
    (sound : HostedSound settings platform repositoryId hosted) {event : Event}
    (admitted : hosted.admits settings platform repositoryId event = true)
    (spares : hosted.sparesLast repositoryId event) :
    HostedSound settings platform repositoryId
      (hosted.step settings platform repositoryId event) := by
  cases event with
  | push after => exact ⟨sound.world, sound.known, nofun⟩
  | act action =>
      refine ⟨sound.world.step action, sound.known.step sound.world action, ?_⟩
      simp only [Hosted.admits, Bool.and_eq_true] at admitted
      obtain ⟨unfailing, admitted⟩ := admitted
      simp only [Hosted.step]
      cases pushed : hosted.world.pushed repositoryId action with
      | some after =>
          intro delivered latest
          cases latest
          exact Follows.of_pushed sound.world pushed (spares _ pushed delivered)
      | none =>
          intro delivered latest
          simp only [pushed, Bool.and_eq_true] at admitted
          exact (sound.follows delivered latest).step sound.world sound.known admitted.1
            admitted.2 unfailing

theorem Hosted.Path.sound {settings : Settings} {platform : Platform}
    {repositoryId : RepositoryId} {before after : Hosted}
    (path : Hosted.Path settings platform repositoryId (Hosted.sparesLast repositoryId) before
      after)
    (sound : HostedSound settings platform repositoryId before) :
    HostedSound settings platform repositoryId after := by
  induction path with
  | refl => exact sound
  | tail _ moves ih =>
      obtain ⟨event, admitted, spares, rfl⟩ := moves
      exact ih.step admitted spares

/-- However pushes and the worker's steps interleave: once every push was
delivered and accepted and no job of the repository is live, the commit of the
last accepted push, if it is the branch head, is the active one, provided that a
shortcut took the last outstanding push only when a current job or the active
index would come to its commit. -/
theorem spared_pushes_kept {settings : Settings} {platform : Platform}
    {repositoryId : RepositoryId} {before after : Hosted}
    (reachable : World.Reachable settings platform before.world) (fresh : before.accepted = none)
    (path : Hosted.Path settings platform repositoryId (Hosted.sparesLast repositoryId) before
      after)
    (delivered : after.outstanding = []) (latest : after.accepted = some after.head)
    (quiet : ∀ job ∈ after.world.journal.database.indexingJobs,
      job.repositoryId = repositoryId → live job = false) :
    ActiveCommit after.world.journal.database repositoryId (some after.head) := by
  have start : HostedSound settings platform repositoryId before := by
    refine ⟨reachable.sound, reachable.known, fun _ latest => ?_⟩
    rw [fresh] at latest
    cases latest
  have sound := path.sound start
  rcases (sound.follows delivered latest).pending with active | ⟨job, member, owner, alive, _⟩
  · exact active
  · rw [quiet job member owner] at alive
    cases alive

/-! ## Lists of events -/

namespace Hosted

variable {settings : Settings} {platform : Platform} {repositoryId : RepositoryId}

def run (settings : Settings) (platform : Platform) (repositoryId : RepositoryId)
    (hosted : Hosted) (events : List Event) : Hosted :=
  events.foldl (fun current event => current.step settings platform repositoryId event) hosted

/-- Every event of a list is admitted and meets a condition where it happens. -/
def meets (settings : Settings) (platform : Platform) (repositoryId : RepositoryId)
    (condition : Hosted → Event → Bool) : Hosted → List Event → Bool
  | _, [] => true
  | hosted, event :: rest =>
      hosted.admits settings platform repositoryId event && condition hosted event &&
        meets settings platform repositoryId condition
          (hosted.step settings platform repositoryId event) rest

theorem path_run {condition : Hosted → Event → Bool} {hosted : Hosted} {events : List Event}
    (met : meets settings platform repositoryId condition hosted events = true) :
    Path settings platform repositoryId (fun before event => condition before event = true) hosted
      (hosted.run settings platform repositoryId events) := by
  induction events generalizing hosted with
  | nil => exact .refl
  | cons event rest ih =>
      simp only [meets, Bool.and_eq_true] at met
      exact .head ⟨event, met.1.1, met.1.2, rfl⟩ (ih met.2)

theorem Path.mono {condition weaker : Hosted → Event → Prop} {before after : Hosted}
    (path : Path settings platform repositoryId condition before after)
    (weaken : ∀ hosted event, condition hosted event → weaker hosted event) :
    Path settings platform repositoryId weaker before after := by
  induction path with
  | refl => exact .refl
  | tail _ moves ih =>
      obtain ⟨event, admitted, met, same⟩ := moves
      exact .tail ih ⟨event, admitted, weaken _ _ met, same⟩

/-- An accepted push of the repository creates a job. -/
def refreshes (repositoryId : RepositoryId) (hosted : Hosted) : Event → Bool
  | .push _ => true
  | .act action =>
      (hosted.world.pushed repositoryId action).all fun after =>
        hosted.world.journal.database.repositories.any fun row =>
          row.id == repositoryId && !takenByShortcut hosted.world.journal.database row after

theorem sparesLast_of_refreshes {hosted : Hosted} {event : Event}
    (creates : hosted.refreshes repositoryId event = true) :
    hosted.sparesLast repositoryId event := by
  cases event with
  | push after => trivial
  | act action =>
      intro after pushed _ taken
      simp only [refreshes, pushed, Option.all_some, List.any_eq_true, Bool.and_eq_true,
        beq_iff_eq, Bool.not_eq_true'] at creates
      obtain ⟨row, member, here, untaken⟩ := creates
      rw [taken row member here] at untaken
      cases untaken

end Hosted

namespace Onboarding

/-- The first index is active; the branch has not moved since. -/
def hostedAlone : Hosted where
  world := indexedAlone
  head := "first"

/-- Every outside call succeeds, the clone answers the head, and no comparison is available. -/
def refreshing (head : CommitSha) (now : Timestamp) : Outside where
  moment := { now }
  reply
    | .clone _ _ _ _ => .ok ⟨"checkout", head⟩
    | .compare _ _ _ _ _ => .error .api
    | request => (chunked now).reply request

/-- The delivery of a push to the default branch. -/
def delivery (now : Timestamp) (deliveryId : String) (before after : CommitSha)
    (forced : Bool) : Event :=
  .act (.serve { now } (.handle deliveryId "push"
    { installation := some Services.Onboarding.installation
      repository := some (Services.Onboarding.repository "main")
      ref := some "refs/heads/main"
      before := some before
      after := some after
      forced := forced }) rfl)

/-- A second commit is pushed, and its job is claimed. -/
def secondPush : List Event :=
  [.push "second", delivery 4 "second push" "first" "second" false,
    .act (.claim { now := 5 } "second" 2)]

/-- The branch is forced back once the second commit was cloned. -/
def overtakenEvents : List Event :=
  secondPush ++ List.replicate 10 (.act (.work "second" (refreshing "second" 6))) ++
    [.push "first", delivery 7 "forced push" "second" "first" true] ++
    List.replicate 30 (.act (.work "second" (refreshing "first" 8)))

def forcedBack : Hosted :=
  hostedAlone.run Services.Onboarding.settings Services.Onboarding.platform 1 overtakenEvents

/-- The second commit is pushed and indexed without another push. -/
def followed : List Event :=
  secondPush ++ List.replicate 40 (.act (.work "second" (refreshing "second" 6)))

def pushedAlone : Hosted :=
  hostedAlone.run Services.Onboarding.settings Services.Onboarding.platform 1 followed

def idle (hosted : Hosted) : Bool :=
  hosted.world.journal.database.indexingJobs.all fun job => !live job

def activeCommits (hosted : Hosted) : List (RepositoryId × Option CommitSha) :=
  hosted.world.journal.database.repositories.map fun row => (row.id, row.lastIndexedCommitSha)

end Onboarding

open Onboarding in
/-- The forced push is taken as already active, while the run of the push before
it has cloned another commit, which it then activates. -/
theorem forced_push_lost :
    World.Reachable Services.Onboarding.settings Services.Onboarding.platform
      hostedAlone.world ∧ hostedAlone.accepted = none ∧
    Hosted.Path Services.Onboarding.settings Services.Onboarding.platform 1 (fun _ _ => True)
      hostedAlone forcedBack ∧
    forcedBack.outstanding = [] ∧ forcedBack.accepted = some forcedBack.head ∧
    (∀ job ∈ forcedBack.world.journal.database.indexingJobs, job.repositoryId = 1 →
      live job = false) ∧
    ¬ ActiveCommit forcedBack.world.journal.database 1 (some forcedBack.head) := by
  have outcome : Hosted.meets Services.Onboarding.settings Services.Onboarding.platform 1
      (fun _ _ => true) hostedAlone overtakenEvents = true ∧ forcedBack.outstanding = [] ∧
      forcedBack.accepted = some "first" ∧ forcedBack.head = "first" ∧
      idle forcedBack = true ∧ activeCommits forcedBack = [(1, some "second")] := by
    decide +kernel
  obtain ⟨met, delivered, latest, head, quiet, commits⟩ := outcome
  refine ⟨World.Reachable.run .refl _, rfl, (Hosted.path_run met).mono fun _ _ _ => trivial,
    delivered, latest.trans (congrArg some head.symm), ?_, ?_⟩
  · intro job member _
    simpa using List.all_eq_true.mp quiet job member
  · rintro ⟨row, member, here, active⟩
    have listed : (row.id, row.lastIndexedCommitSha) ∈ activeCommits forcedBack :=
      List.mem_map.mpr ⟨row, member, rfl⟩
    rw [commits, active, head] at listed
    simp at listed

open Onboarding in
theorem followed_push_kept : pushedAlone.head = "second" ∧
    ActiveCommit pushedAlone.world.journal.database 1 (some pushedAlone.head) := by
  have outcome : Hosted.meets Services.Onboarding.settings Services.Onboarding.platform 1
      (Hosted.refreshes 1) hostedAlone followed = true ∧ pushedAlone.outstanding = [] ∧
      pushedAlone.accepted = some pushedAlone.head ∧ pushedAlone.head = "second" ∧
      idle pushedAlone = true := by
    decide +kernel
  obtain ⟨met, delivered, latest, head, quiet⟩ := outcome
  have path := (Hosted.path_run met).mono fun _ _ => Hosted.sparesLast_of_refreshes
  refine ⟨head, spared_pushes_kept (World.Reachable.run .refl _) rfl path delivered latest ?_⟩
  intro job member _
  simpa using List.all_eq_true.mp quiet job member

end Codenaut.System
