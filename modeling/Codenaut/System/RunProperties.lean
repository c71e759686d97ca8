import Codenaut.System.WorldProperties

/-!
# Live runs

What every live run may rely on, in every state of any interleaving: its job
and its repository are stored, its context describes them, its target version is
the job's, and its activation is in the history.
-/

set_option autoImplicit false

namespace Codenaut.System

open Codenaut.ActiveIndex Codenaut.Core Codenaut.Db Codenaut.Indexing Codenaut.Interaction
open Codenaut.Relational Codenaut.Services Codenaut.Vector

/-- The context that a run was authorized with still describes its job and
the place of its repository. -/
structure ContextSound (db : Database) (claimed : ClaimedJob) (context : JobContext) : Prop where
  repository : context.repositoryId = claimed.repositoryId
  target : ∃ job ∈ db.indexingJobs, job.id = claimed.id ∧
    job.targetIndexVersion = some context.indexVersion
  place : ∃ row ∈ db.repositories, row.id = context.repositoryId ∧
    row.installationId = context.installationId ∧ row.accessMode = context.accessMode ∧
    row.githubRepositoryId = context.githubRepositoryId

/-- The activation that a run was answered. -/
def ActivatedBy (history : History) (claimed : ClaimedJob) (version : Nat) : Prop :=
  ∃ activation ∈ history.activations, activation.job.id = claimed.id ∧
    activation.repository.id = claimed.repositoryId ∧
    activation.repository.indexVersion = version

structure RunSound (journal : Journal) (run : Run) : Prop where
  safe : run.program.Safe runContract (fun _ _ => True) run.view
  job : ∃ job ∈ journal.database.indexingJobs, job.id = run.claimed.id ∧
    job.repositoryId = run.claimed.repositoryId
  context : ∀ context, run.view.context = some context →
    ContextSound journal.database run.claimed context
  activated : ∀ version, run.view.activated = some version →
    ActivatedBy journal.history run.claimed version
  built : run.view.validated = true → run.view.prepared = true

structure WorldSound (settings : Settings) (platform : Platform) (world : World) : Prop where
  journal : Journal.Reachable settings platform world.journal
  runs : ∀ workerId run, world.runs workerId = some run → RunSound world.journal run

/-! ## Transactions -/

section Transactions

variable {settings : Settings} {platform : Platform} {journal : Journal}

theorem activations_kept (settings : Settings) (platform : Platform)
    (consistent : Consistent journal.database) (moment : Moment) (operation : Operation)
    {activation : Activation} (member : activation ∈ journal.history.activations) :
    activation ∈ (journal.apply settings platform moment operation).history.activations := by
  rcases apply_cases settings platform consistent moment operation with
    ⟨_, _, _, _, committed⟩ | idle
  · rw [committed.recorded]
    exact .tail _ member
  · rw [idle.activations]
    exact member

theorem ContextSound.evolves {cause : Cause} {db stored : Database} {claimed : ClaimedJob}
    {context : JobContext} (sound : ContextSound db claimed context)
    (effect : Effect cause db stored) : ContextSound stored claimed context where
  repository := sound.repository
  target := by
    obtain ⟨job, member, same, target⟩ := sound.target
    obtain ⟨next, nextMember, step, nextId⟩ := effect.jobs.successor member
    exact ⟨next, nextMember, nextId.trans same, step.target target⟩
  place := by
    obtain ⟨row, member, same, installation, mode, github⟩ := sound.place
    obtain ⟨next, nextMember, step, nextId⟩ := effect.repositories.successor member
    have place := step.place
    exact ⟨next, nextMember, nextId.trans same, place.installationId.trans installation,
      place.accessMode.trans mode, place.githubRepositoryId.trans github⟩

theorem RunSound.evolves (reachable : Journal.Reachable settings platform journal) {run : Run}
    (sound : RunSound journal run) (moment : Moment) (operation : Operation) :
    RunSound (journal.apply settings platform moment operation) run := by
  have consistent := reachable.consistent
  have effect := operation.effect settings platform moment consistent.jobIds
    consistent.repositoryIds
  refine ⟨sound.safe, ?_, fun context known => (sound.context context known).evolves effect, ?_,
    sound.built⟩
  · obtain ⟨job, member, same, owner⟩ := sound.job
    obtain ⟨next, nextMember, step, nextId⟩ := effect.jobs.successor member
    exact ⟨next, nextMember, nextId.trans same, step.request.repositoryId.trans owner⟩
  · intro version activated
    obtain ⟨activation, member, facts⟩ := sound.activated version activated
    exact ⟨activation, activations_kept settings platform consistent moment operation member,
      facts⟩

/-- The installation that a context reads is the one its repository names. -/
theorem installation_of_row {db : Database} (consistent : Consistent db) {row : Repository}
    (member : row ∈ db.repositories) :
    (row.installationId.bind db.installation?).map (·.id) = row.installationId := by
  rcases consistent.installationOwners row member with ⟨_, shared⟩ | ⟨_, installation, stored, owner⟩
  · simp [shared]
  · rw [owner]
    cases found : db.installation? installation.id with
    | none =>
        have absent := List.find?_eq_none.mp found installation stored
        simp at absent
    | some other =>
        have same : other.id = installation.id := by simpa using List.find?_some found
        simp [found, same]

theorem Authorized.contextSound {db stored : Database} {now : Timestamp} {claimed : ClaimedJob}
    {job : IndexingJob} {repository : Repository} {context : JobContext}
    (consistent : Consistent db)
    (authorized : Authorized settings db stored now claimed job repository context)
    (owner : ∃ job ∈ db.indexingJobs, job.id = claimed.id ∧
      job.repositoryId = claimed.repositoryId) : ContextSound stored claimed context := by
  obtain ⟨claimedJob, claimedMember, claimedId, claimedOwner⟩ := owner
  have same : claimedJob = job :=
    consistent.jobIds.row_eq claimedMember authorized.member (claimedId.trans authorized.sameJob.symm)
  subst same
  obtain ⟨rowMember, rowId⟩ := repository?_mem authorized.located
  have contents := authorized.contents
  refine ⟨?_, ?_, repository, ?_, ?_, ?_, ?_, ?_⟩
  · rw [contents]
    exact rowId.trans claimedOwner
  · refine ⟨{ claimedJob with targetIndexVersion := some context.indexVersion }, ?_, claimedId, rfl⟩
    rw [authorized.stored]
    exact mem_updateWhere.mpr ⟨claimedJob, claimedMember, by simp⟩
  · rw [authorized.stored]
    exact rowMember
  · rw [contents]; rfl
  · rw [contents]
    exact (installation_of_row consistent rowMember).symm
  · rw [contents]; rfl
  · rw [contents]; rfl

theorem Operation.cause_ne_claim {operation : Operation} {workerId : WorkerId}
    (apart : ∀ jobId, operation ≠ .claim jobId workerId) (jobId : JobId) :
    operation.cause ≠ .claim jobId workerId := by
  intro claims
  cases operation with
  | claim taken worker =>
      cases claims
      exact apart _ rfl
  | store taken worker call => cases call <;> cases claims
  | _ => cases claims

/-- A run that holds its claim after a transaction held it before, unless the
transaction is that worker's claim. -/
theorem holdsClaim_before (consistent : Consistent journal.database) {moment : Moment}
    {operation : Operation} {workerId : WorkerId} {claimed : ClaimedJob}
    (stored : ∃ job ∈ journal.database.indexingJobs, job.id = claimed.id)
    (apart : ∀ jobId, operation ≠ .claim jobId workerId)
    (held : holdsClaim (journal.apply settings platform moment operation).database workerId claimed
      = true) : holdsClaim journal.database workerId claimed = true := by
  have effect := operation.effect settings platform moment consistent.jobIds
    consistent.repositoryIds
  obtain ⟨next, nextMember, nextId, running, locked⟩ := holdsClaim_iff.mp held
  obtain ⟨job, member, same⟩ := stored
  have step := effect.jobs.step_of_key consistent.jobIds member nextMember (nextId.trans same.symm)
  obtain ⟨wasRunning, wasLocked, _⟩ :=
    step.locked_before running locked (Operation.cause_ne_claim apart)
  exact holdsClaim_iff.mpr ⟨job, member, same, wasRunning, wasLocked⟩

end Transactions

/-! ## Replies -/

section Replies

variable {settings : Settings} {platform : Platform} {world : World} {workerId : WorkerId}
  {outside : Outside} {run : Run} {call : StoreCall}
  {next : Except Failure call.Reply →
    Program Request Request.Reply (Except Failure Unit × RunState)}

theorem callReply_ok {db : Database} {claimed : ClaimedJob} {answer : call.Reply}
    (replied : callReply settings platform outside claimed workerId db call = .ok answer) :
    outside.commit = .answered ∧ ∃ stored,
      call.transact settings platform outside.moment claimed workerId db = .ok (answer, stored) := by
  unfold callReply at replied
  split at replied
  case h_1 => cases replied
  case h_2 value stored success =>
      split at replied
      case isFalse => cases replied
      case isTrue answered =>
          cases replied
          exact ⟨answered, stored, success⟩

/-- The transaction of a run's store request. -/
theorem step_call (live : world.runs workerId = some run)
    (asks : run.program = .ask (.store call) next) (committed : outside.commit ≠ .rolledBack) :
    (world.step settings platform (.work workerId outside)).journal =
      world.journal.apply settings platform outside.moment (.store run.claimed workerId call) := by
  simp [World.step, World.journalAfter, World.transaction, live, Run.transaction, asks, committed]

/-- A store request that was answered committed its transaction. -/
theorem step_answered (live : world.runs workerId = some run)
    (asks : run.program = .ask (.store call) next) {answer : call.Reply}
    (replied : callReply settings platform outside run.claimed workerId world.journal.database call
      = .ok answer) :
    ∃ stored, call.transact settings platform outside.moment run.claimed workerId
        world.journal.database = .ok (answer, stored) ∧
      (world.step settings platform (.work workerId outside)).journal =
        world.journal.apply settings platform outside.moment (.store run.claimed workerId call) ∧
      (world.step settings platform (.work workerId outside)).journal.database = stored := by
  obtain ⟨answered, stored, success⟩ := callReply_ok replied
  have committed : outside.commit ≠ .rolledBack := by
    rw [answered]
    nofun
  have journal : (world.step settings platform (.work workerId outside)).journal =
      world.journal.apply settings platform outside.moment (.store run.claimed workerId call) :=
    step_call live asks committed
  refine ⟨stored, success, journal, ?_⟩
  rw [journal]
  simp [Journal.apply, Operation.apply, StoreCall.apply, success]

end Replies

/-! ## Every reachable world -/

section Sound

variable {settings : Settings} {platform : Platform} {world : World}

theorem RunSound.allowed {journal : Journal} {run : Run} {request : Request}
    {next : request.Reply → Program Request Request.Reply (Except Failure Unit × RunState)}
    (sound : RunSound journal run) (asks : run.program = .ask request next) :
    run.view.allows request := by
  have safe := sound.safe
  rw [asks] at safe
  exact safe.1

theorem issued_admissible (sound : WorldSound settings platform world) {action : Action}
    {entry : Transaction} (issued : Issued world action entry) :
    entry.operation.admissible world.journal.history := by
  cases issued with
  | served outsideRuns =>
      apply Operation.admissible_of_unrestricted
      rename_i moment operation
      cases operation <;> first | rfl | cases outsideRuns
  | claimed => exact Operation.admissible_of_unrestricted rfl _
  | beat => exact Operation.admissible_of_unrestricted rfl _
  | asked live asks =>
      rename_i workerId outside run call next committed
      cases call with
      | completeSupersededCleanup repositoryId indexVersion =>
          have runSound := sound.runs workerId run live
          obtain ⟨activated, context, known, same⟩ := runSound.allowed asks
          obtain ⟨activation, member, _, owner, version⟩ := runSound.activated _ activated
          refine ⟨activation, Sound.mem_activationsOf.mpr ⟨member, ?_⟩, version⟩
          rw [owner, ← same, (runSound.context context known).repository]
      | _ => exact Operation.admissible_of_unrestricted rfl _

theorem step_reachable (sound : WorldSound settings platform world) (action : Action) :
    Journal.Reachable settings platform (world.step settings platform action).journal := by
  rcases step_journal settings platform world action with idle | ⟨entry, issued, applied⟩
  · rw [idle]
    exact sound.journal
  · rw [applied]
    exact .step entry.moment entry.operation sound.journal (issued_admissible sound issued)

/-- A live run keeps its rights through any step. -/
theorem RunSound.step (sound : WorldSound settings platform world) {run : Run}
    (runSound : RunSound world.journal run) (action : Action) :
    RunSound (world.step settings platform action).journal run := by
  rcases step_journal settings platform world action with idle | ⟨entry, _, applied⟩
  · rw [idle]
    exact runSound
  · rw [applied]
    exact runSound.evolves sound.journal entry.moment entry.operation

/-- An answered activation is the newest in the history. -/
theorem activated_by (sound : WorldSound settings platform world) {workerId : WorkerId}
    {moment : Moment} {claimed : ClaimedJob} {commitSha : CommitSha} {previous : Nat}
    {stored : Database}
    (owner : ∃ job ∈ world.journal.database.indexingJobs, job.id = claimed.id ∧
      job.repositoryId = claimed.repositoryId)
    (success : activate world.journal.database moment.now claimed workerId commitSha =
      .ok (previous, stored)) :
    ActivatedBy (world.journal.apply settings platform moment
      (.store claimed workerId (.activate commitSha))).history claimed previous := by
  have jobIds := sound.journal.consistent.jobIds
  obtain ⟨job, repository, build, guards, version, _⟩ := activate_ok success
  obtain ⟨jobMember, held⟩ := held_of_find guards.found
  have jobId := (heldBy_iff.mp held).1
  have located := repository?_mem guards.located
  obtain ⟨claimedJob, claimedMember, claimedId, claimedOwner⟩ := owner
  have same := jobIds.row_eq claimedMember jobMember (claimedId.trans jobId.symm)
  have read := job?_eq_some jobIds jobMember
  rw [jobId] at read
  refine ⟨⟨job, repository, repository.installationId.bind world.journal.database.installation?,
    commitSha⟩, ?_, jobId, ?_, version.symm⟩
  · simp [Journal.apply, History.record, StoreCall.transact, success, activationOf, read,
      guards.located]
  · exact located.2.trans (same ▸ claimedOwner)

/-- What an answered request teaches a run is true of the journal it leaves. -/
theorem RunSound.learned (sound : WorldSound settings platform world) {workerId : WorkerId}
    {outside : Outside} {run : Run} {request : Request}
    {next : request.Reply → Program Request Request.Reply (Except Failure Unit × RunState)}
    (live : world.runs workerId = some run) (asks : run.program = .ask request next) :
    RunSound (world.step settings platform (.work workerId outside)).journal
      (run.advance world.points request next
        (world.reply settings platform workerId run.claimed outside request)) := by
  have runSound := sound.runs workerId run live
  have kept := runSound.step sound (.work workerId outside)
  have safe := runSound.safe
  rw [asks] at safe
  have allowed := runSound.allowed asks
  generalize replied : world.reply settings platform workerId run.claimed outside request = reply
  refine ⟨safe.2 reply, kept.job, ?_, ?_, ?_⟩ <;> simp only [Run.advance]
  · intro context known
    generalize view : run.view.learn request reply = learnt at known
    have learned := run.view.learned request reply
    rw [view] at learned
    cases learned with
    | authorized answer =>
        obtain ⟨stored, success, _, database⟩ := step_answered live asks replied
        cases answer with
        | none => exact kept.context context known
        | some granted =>
            obtain ⟨job, repository, authorized⟩ :=
              authorizedContext_some (Except.ok.inj success)
            have first := Authorized.contextSound sound.journal.consistent authorized runSound.job
            unfold RunView.authorize at known
            cases before : run.view.context with
            | none =>
                simp only [before] at known
                cases known
                rw [database]
                exact first
            | some earlier =>
                simp only [before] at known
                exact kept.context context (before.trans known)
    | _ => exact kept.context context known
  · intro version known
    generalize view : run.view.learn request reply = learnt at known
    have learned := run.view.learned request reply
    rw [view] at learned
    cases learned with
    | authorized answer =>
        rw [RunView.authorize_activated] at known
        exact kept.activated version known
    | activated previous =>
        cases known
        obtain ⟨stored, success, journal, _⟩ := step_answered live asks replied
        rw [journal]
        exact activated_by sound runSound.job success
    | _ => exact kept.activated version known
  · generalize view : run.view.learn request reply = learnt
    have learned := run.view.learned request reply
    rw [view] at learned
    cases learned with
    | authorized answer =>
        rw [RunView.authorize_validated, RunView.authorize_prepared]
        exact kept.built
    | prepared => exact fun _ => rfl
    | deleted => exact nofun
    | upserted => exact nofun
    | validated => exact fun _ => allowed.1
    | _ => exact kept.built

/-- A claimed run starts with its job stored and nothing seen. -/
theorem RunSound.start {settings : Settings} {platform : Platform} {journal : Journal}
    {now : Timestamp} {jobId : JobId} {workerId : WorkerId} {claimed : ClaimedJob}
    (taken : (claim journal.database now jobId workerId).1 = some claimed) :
    RunSound journal (Run.start settings platform claimed) where
  safe := runClaimed_safe settings platform
  job := by
    cases attempt : claim journal.database now jobId workerId with
    | mk result stored =>
        rw [attempt] at taken
        subst taken
        obtain ⟨job, found, _, same, _⟩ := claim_ok attempt
        exact ⟨job, List.mem_of_find?_eq_some found, by rw [same]; exact ⟨rfl, rfl⟩⟩
  context := by
    intro context known
    cases known
  activated := by
    intro version known
    cases known
  built := nofun

theorem WorldSound.step (sound : WorldSound settings platform world) (action : Action) :
    WorldSound settings platform (world.step settings platform action) where
  journal := step_reachable sound action
  runs := by
    intro workerId run live
    cases step_runs live with
    | kept before => exact (sound.runs workerId run before).step sound action
    | started idle taken => exact (RunSound.start taken).step sound _
    | advanced before asks => exact .learned sound before asks

theorem WorldSound.start (settings : Settings) (platform : Platform) :
    WorldSound settings platform {} where
  journal := .start
  runs := by
    intro workerId run live
    simp at live

theorem World.Reachable.sound (reachable : World.Reachable settings platform world) :
    WorldSound settings platform world := by
  induction reachable with
  | refl => exact .start settings platform
  | tail _ moves ih =>
      obtain ⟨action, _, rfl⟩ := moves
      exact ih.step action

end Sound

end Codenaut.System
