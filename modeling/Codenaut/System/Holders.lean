import Codenaut.System.RunProperties

/-!
# The run that holds a claim

At most one live run holds a claim of a repository. It has not activated, the
active index is the one its context names, and once it prepared its build the
repository waits at the version before it.
-/

set_option autoImplicit false

namespace Codenaut.System

open Codenaut.ActiveIndex Codenaut.Core Codenaut.Db Codenaut.Indexing Codenaut.Interaction
open Codenaut.Relational Codenaut.Services

/-- A live run under whose lock its job is still RUNNING. -/
structure Holds (world : World) (workerId : WorkerId) (run : Run) : Prop where
  live : world.runs workerId = some run
  held : holdsClaim world.journal.database workerId run.claimed = true

section Holders

variable {settings : Settings} {platform : Platform} {world : World} {workerId : WorkerId}
  {run : Run}

/-- The RUNNING job of a run that holds its claim. -/
theorem Holds.job (holds : Holds world workerId run)
    (sound : WorldSound settings platform world) :
    ∃ job ∈ world.journal.database.indexingJobs, heldBy run.claimed workerId job = true ∧
      job.repositoryId = run.claimed.repositoryId := by
  obtain ⟨job, member, held⟩ := List.any_eq_true.mp holds.held
  obtain ⟨claimedJob, claimedMember, claimedId, owner⟩ := (sound.runs workerId run holds.live).job
  have same := sound.journal.consistent.jobIds.row_eq claimedMember member
    (claimedId.trans (heldBy_iff.mp held).1.symm)
  exact ⟨job, member, held, same ▸ owner⟩

/-- A worker whose guard finds a job of the repository is the holder's worker. -/
theorem Holds.same_worker (holds : Holds world workerId run)
    (sound : WorldSound settings platform world) {other : WorkerId} {claimed : ClaimedJob}
    {job : IndexingJob} (member : job ∈ world.journal.database.indexingJobs)
    (held : heldBy claimed other job = true) (same : job.repositoryId = run.claimed.repositoryId) :
    other = workerId ∧ job.id = run.claimed.id := by
  have consistent := sound.journal.consistent
  obtain ⟨own, ownMember, ownHeld, owner⟩ := holds.job sound
  obtain ⟨ownId, ownRunning, ownLocked⟩ := heldBy_iff.mp ownHeld
  obtain ⟨_, running, locked⟩ := heldBy_iff.mp held
  have sameId := consistent.runningUnique job member own ownMember running ownRunning
    (same.trans owner.symm)
  have equal := consistent.jobIds.row_eq member ownMember sameId
  rw [equal, ownLocked] at locked
  exact ⟨(Option.some.inj locked).symm, sameId.trans ownId⟩

/-- One holder for each repository. -/
theorem Holds.unique (holds : Holds world workerId run)
    (sound : WorldSound settings platform world) {other : WorkerId} {rival : Run}
    (rivals : Holds world other rival)
    (same : rival.claimed.repositoryId = run.claimed.repositoryId) :
    other = workerId ∧ rival = run := by
  obtain ⟨job, member, held, owner⟩ := rivals.job sound
  obtain ⟨rfl, _⟩ := holds.same_worker sound member held (owner.trans same)
  exact ⟨rfl, Option.some.inj (rivals.live.symm.trans holds.live)⟩

/-- The job of a past activation is complete, not RUNNING. -/
theorem Holds.unactivated (holds : Holds world workerId run)
    (sound : WorldSound settings platform world) : run.view.activated = none := by
  cases activated : run.view.activated with
  | none => rfl
  | some version =>
      obtain ⟨activation, activationMember, sameJob, _⟩ :=
        (sound.runs workerId run holds.live).activated version activated
      obtain ⟨ended, endedMember, endedId, complete⟩ :=
        ((reachable_sound sound.journal).past activation activationMember).job
      obtain ⟨job, member, held, _⟩ := holds.job sound
      obtain ⟨jobId, running, _⟩ := heldBy_iff.mp held
      have equal := sound.journal.consistent.jobIds.row_eq endedMember member
        ((endedId.trans sameJob).trans jobId.symm)
      rw [← equal, complete] at running
      cases running

/-- While a run is live, no step gives its claim back. -/
theorem unheld_step (sound : WorldSound settings platform world) {run : Run}
    (live : world.runs workerId = some run)
    (unheld : holdsClaim world.journal.database workerId run.claimed = false) (action : Action) :
    holdsClaim (world.step settings platform action).journal.database workerId run.claimed =
      false := by
  rw [Bool.eq_false_iff] at unheld ⊢
  intro held
  rcases step_journal settings platform world action with idle | ⟨entry, issued, applied⟩
  · rw [idle] at held
    exact unheld held
  · rw [applied] at held
    obtain ⟨job, member, same, _⟩ := (sound.runs workerId run live).job
    exact unheld (holdsClaim_before sound.journal.consistent ⟨job, member, same⟩
      (issued.apart live) held)

/-- A run that holds its claim after a step held it before. -/
theorem Holds.before {action : Action}
    (holds : Holds (world.step settings platform action) workerId run)
    (sound : WorldSound settings platform world) {earlier : Run}
    (live : world.runs workerId = some earlier) (same : earlier.claimed = run.claimed) :
    Holds world workerId earlier := by
  refine ⟨live, ?_⟩
  cases unheld : holdsClaim world.journal.database workerId earlier.claimed with
  | true => rfl
  | false =>
      have lost := unheld_step sound live unheld action
      rw [same, holds.held] at lost
      cases lost

/-- A transaction that leaves a claim held activates nothing in its repository. -/
theorem Holds.unactivating (holds : Holds world workerId run)
    (sound : WorldSound settings platform world) (entry : Transaction)
    (still : holdsClaim (world.journal.apply settings platform entry.moment
      entry.operation).database workerId run.claimed = true) :
    (world.journal.apply settings platform entry.moment
      entry.operation).history.activationsOf run.claimed.repositoryId =
        world.journal.history.activationsOf run.claimed.repositoryId := by
  have consistent := sound.journal.consistent
  rcases apply_cases settings platform consistent entry.moment entry.operation with
    ⟨activation, claimed, other, build, committed⟩ | unactivated
  · have apart : activation.repository.id ≠ run.claimed.repositoryId := by
      intro here
      obtain ⟨jobMember, held⟩ := held_of_find committed.guards.found
      have owner := (repository?_mem committed.guards.located).2
      obtain ⟨_, sameJob⟩ := holds.same_worker sound jobMember held (owner.symm.trans here)
      obtain ⟨ended, endedMember, endedId, complete⟩ := committed.past.job
      obtain ⟨job, running, jobId, isRunning, _⟩ := holdsClaim_iff.mp still
      have after := consistent.apply settings platform entry.moment entry.operation
      have equal := after.jobIds.row_eq endedMember running
        ((endedId.trans sameJob).trans jobId.symm)
      rw [← equal, complete] at isRunning
      cases isRunning
    simp [History.activationsOf, committed.recorded, apart]
  · simp [History.activationsOf, unactivated.activations]

/-- While a run holds its claim, its repository keeps its index. -/
theorem Holds.row_kept (holds : Holds world workerId run)
    (sound : WorldSound settings platform world) {action : Action}
    (still : holdsClaim (world.step settings platform action).journal.database workerId
      run.claimed = true)
    {row : Repository} (member : row ∈ world.journal.database.repositories)
    (sameRow : row.id = run.claimed.repositoryId) :
    ∃ next ∈ (world.step settings platform action).journal.database.repositories,
      SameIndex row next := by
  have consistent := sound.journal.consistent
  rcases step_journal settings platform world action with idle | ⟨entry, _, applied⟩
  · rw [idle]
    exact ⟨row, member, .refl row⟩
  · rw [applied] at still ⊢
    have effect := entry.operation.effect settings platform entry.moment consistent.jobIds
      consistent.repositoryIds
    obtain ⟨next, nextMember, _, sameId⟩ := effect.repositories.successor member
    have kept := holds.unactivating sound entry still
    rw [← sameRow] at kept
    exact ⟨next, nextMember, (reachable_sound sound.journal).sameIndex entry.moment
      entry.operation member nextMember sameId kept⟩

/-! ## The version that a holder builds -/

/-- The repository waits at the version before the context's. -/
def WaitsFor (db : Database) (claimed : ClaimedJob) (context : JobContext) : Prop :=
  ∃ row ∈ db.repositories, row.id = claimed.repositoryId ∧
    context.indexVersion = row.indexVersion + 1

/-- The holder that prepared a build raises its repository's version by one. -/
def NextVersions (world : World) : Prop :=
  ∀ workerId run, Holds world workerId run → run.view.prepared = true →
    ∃ context, run.view.context = some context ∧
      WaitsFor world.journal.database run.claimed context

theorem Holds.waits_kept (holds : Holds world workerId run)
    (sound : WorldSound settings platform world) {action : Action}
    (still : holdsClaim (world.step settings platform action).journal.database workerId
      run.claimed = true)
    {context : JobContext} (waits : WaitsFor world.journal.database run.claimed context) :
    WaitsFor (world.step settings platform action).journal.database run.claimed context := by
  obtain ⟨row, member, sameRow, version⟩ := waits
  obtain ⟨next, nextMember, same⟩ := holds.row_kept sound still member sameRow
  exact ⟨next, nextMember, same.id.trans sameRow, by rw [same.indexVersion, version]⟩

/-- An accepted `prepare_build` found the repository at the version before its own. -/
theorem waits_of_prepared {db stored : Database} {claimed : ClaimedJob} {commitSha : CommitSha}
    {discovery : DiscoveryResult} {processing : ProcessingResult} {fingerprint : String}
    {context : JobContext} (jobIds : UniqueKey (·.id) db.indexingJobs)
    (owner : ∃ job ∈ db.indexingJobs, job.id = claimed.id ∧
      job.repositoryId = claimed.repositoryId)
    (same : processing.indexVersion = context.indexVersion)
    (success : prepareBuild settings platform db claimed workerId commitSha discovery processing
      fingerprint = .ok stored) : WaitsFor db claimed context := by
  obtain ⟨job, repository, guards, _⟩ := prepareBuild_ok success
  obtain ⟨member, held⟩ := held_of_find guards.found
  obtain ⟨claimedJob, claimedMember, claimedId, claimedOwner⟩ := owner
  obtain rfl := jobIds.row_eq claimedMember member (claimedId.trans (heldBy_iff.mp held).1.symm)
  obtain ⟨rowMember, rowId⟩ := repository?_mem guards.located
  exact ⟨repository, rowMember, rowId.trans claimedOwner, same.symm.trans guards.next⟩

theorem NextVersions.step (next : NextVersions world)
    (sound : WorldSound settings platform world) (action : Action) :
    NextVersions (world.step settings platform action) := by
  intro workerId run holds prepared
  cases step_runs holds.live with
  | kept before =>
      have held := holds.before sound before rfl
      obtain ⟨context, known, waits⟩ := next workerId run held prepared
      exact ⟨context, known, held.waits_kept sound holds.held waits⟩
  | started => cases prepared
  | advanced before asks =>
      rename_i outside earlier request rest
      have held := holds.before sound before rfl
      suffices found : ∃ context, (earlier.view.learn request (world.reply settings platform
          workerId earlier.claimed outside request)).context = some context ∧
          WaitsFor world.journal.database earlier.claimed context by
        obtain ⟨context, known, waits⟩ := found
        exact ⟨context, known, held.waits_kept sound holds.held waits⟩
      simp only [Run.advance] at prepared
      generalize replied : world.reply settings platform workerId earlier.claimed outside request =
        reply at prepared ⊢
      have learned := earlier.view.learned request reply
      generalize earlier.view.learn request reply = learnt at learned prepared ⊢
      cases learned with
      | authorized answer =>
          rw [RunView.authorize_prepared] at prepared
          obtain ⟨context, known, waits⟩ := next workerId earlier held prepared
          exact ⟨context, RunView.authorize_context known answer, waits⟩
      | prepared =>
          obtain ⟨_, context, known, same⟩ := (sound.runs workerId earlier before).allowed asks
          obtain ⟨stored, success, _⟩ := step_answered before asks replied
          obtain ⟨_, accepted, _⟩ := map_ok success
          exact ⟨context, known, waits_of_prepared sound.journal.consistent.jobIds
            (sound.runs workerId earlier before).job same accepted⟩
      | _ => exact next workerId earlier held prepared

theorem NextVersions.start : NextVersions {} := by
  intro workerId run holds
  have live := holds.live
  simp at live

/-! ## The commit that a holder compares with -/

/-- The commit of the active index of a repository. -/
def ActiveCommit (db : Database) (repositoryId : RepositoryId) (commit : Option CommitSha) :
    Prop :=
  ∃ row ∈ db.repositories, row.id = repositoryId ∧ row.lastIndexedCommitSha = commit

/-- The commit in a holder's context is still the active one. -/
def KnownCommits (world : World) : Prop :=
  ∀ workerId run context, Holds world workerId run → run.view.context = some context →
    ActiveCommit world.journal.database run.claimed.repositoryId context.activeCommitSha

theorem Holds.commit_kept (holds : Holds world workerId run)
    (sound : WorldSound settings platform world) {action : Action}
    (still : holdsClaim (world.step settings platform action).journal.database workerId
      run.claimed = true)
    {commit : Option CommitSha}
    (active : ActiveCommit world.journal.database run.claimed.repositoryId commit) :
    ActiveCommit (world.step settings platform action).journal.database run.claimed.repositoryId
      commit := by
  obtain ⟨row, member, sameRow, indexed⟩ := active
  obtain ⟨next, nextMember, same⟩ := holds.row_kept sound still member sameRow
  exact ⟨next, nextMember, same.id.trans sameRow, same.commit.trans indexed⟩

theorem commit_of_authorized {db stored : Database} {now : Timestamp} {claimed : ClaimedJob}
    {context : JobContext} (jobIds : UniqueKey (·.id) db.indexingJobs)
    (owner : ∃ job ∈ db.indexingJobs, job.id = claimed.id ∧
      job.repositoryId = claimed.repositoryId)
    (success : authorizedContext settings db now claimed = (some context, stored)) :
    ActiveCommit db claimed.repositoryId context.activeCommitSha := by
  obtain ⟨job, repository, authorized⟩ := authorizedContext_some success
  obtain ⟨claimedJob, member, sameJob, sameOwner⟩ := owner
  obtain rfl := jobIds.row_eq member authorized.member (sameJob.trans authorized.sameJob.symm)
  obtain ⟨rowMember, rowId⟩ := repository?_mem authorized.located
  refine ⟨repository, rowMember, rowId.trans sameOwner, ?_⟩
  rw [authorized.contents]
  rfl

theorem KnownCommits.step (known : KnownCommits world)
    (sound : WorldSound settings platform world) (action : Action) :
    KnownCommits (world.step settings platform action) := by
  intro workerId run context holds present
  cases step_runs holds.live with
  | kept before =>
      have held := holds.before sound before rfl
      exact held.commit_kept sound holds.held (known workerId run context held present)
  | started => cases present
  | advanced before asks =>
      rename_i outside earlier request rest
      have held := holds.before sound before rfl
      refine held.commit_kept sound holds.held ?_
      simp only [Run.advance] at present
      generalize replied : world.reply settings platform workerId earlier.claimed outside request =
        reply at present
      cases first : earlier.view.context with
      | some prior =>
          rw [RunView.learn_context first] at present
          cases present
          exact known workerId earlier context held first
      | none =>
          have learned := earlier.view.learned request reply
          generalize earlier.view.learn request reply = learnt at learned present
          cases learned with
          | authorized answer =>
              cases answer with
              | none => simp [RunView.authorize, first] at present
              | some granted =>
                  simp only [RunView.authorize, first, Option.some.injEq] at present
                  obtain rfl := present
                  obtain ⟨_, stored, success⟩ : outside.commit = .answered ∧ ∃ stored,
                      StoreCall.authorizedContext.transact settings platform outside.moment
                        earlier.claimed workerId world.journal.database =
                          .ok (some granted, stored) := callReply_ok replied
                  exact commit_of_authorized sound.journal.consistent.jobIds
                    (sound.runs workerId earlier before).job (Except.ok.inj success)
          | _ => simp [first] at present

theorem KnownCommits.start : KnownCommits {} := by
  intro workerId run context holds
  have live := holds.live
  simp at live

theorem World.Reachable.known (reachable : World.Reachable settings platform world) :
    KnownCommits world := by
  induction reachable with
  | refl => exact .start
  | tail prior moves ih =>
      obtain ⟨action, _, rfl⟩ := moves
      exact ih.step (World.Reachable.sound prior) action

end Holders

end Codenaut.System
