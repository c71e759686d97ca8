import Codenaut.ActiveIndex.Operations

/-!
# Invariant of the journal

What every sequence of transactions keeps true of the database and its history:
each repository's index is a sound versioned store, and its activations are
fenced, unique for each job, ordered by generation, and counted by its version.
-/

set_option autoImplicit false

namespace Codenaut.ActiveIndex

open Codenaut.Core Codenaut.Db Codenaut.Db.Database Codenaut.Indexing Codenaut.Relational
open Codenaut.Services Codenaut.Versioning

/-! ## Activations -/

/-- The rows an activation committed with: the freshness fence held. -/
structure Fenced (activation : Activation) : Prop where
  generation : activation.job.refreshGeneration = activation.repository.refreshGeneration
  branch : ∀ branch, activation.job.targetBranch = some branch →
    branch = activation.repository.defaultBranch

theorem Fenced.of_fence {activation : Activation}
    (allowed : fenceAllows activation.job activation.repository = true) : Fenced activation := by
  simp only [fenceAllows, Bool.and_eq_true, beq_iff_eq, Option.all_eq_true] at allowed
  exact ⟨allowed.1, allowed.2⟩

/-- What a past activation leaves behind: its repository moved on, its job is complete. -/
structure Past (db : Database) (activation : Activation) : Prop where
  repository : ∃ row ∈ db.repositories, row.id = activation.repository.id ∧
    activation.repository.indexVersion < row.indexVersion ∧
    activation.job.refreshGeneration ≤ row.refreshGeneration
  job : ∃ job ∈ db.indexingJobs, job.id = activation.job.id ∧ job.status = .complete

theorem Past.evolves {cause : Cause} {db stored : Database} {activation : Activation}
    (past : Past db activation) (effect : Effect cause db stored) : Past stored activation where
  repository := by
    obtain ⟨row, member, same, version, generation⟩ := past.repository
    obtain ⟨next, nextMember, step, nextId⟩ := effect.repositories.successor member
    exact ⟨next, nextMember, nextId.trans same, Nat.lt_of_lt_of_le version step.indexVersion,
      Nat.le_trans generation step.generation⟩
  job := by
    obtain ⟨job, member, same, complete⟩ := past.job
    obtain ⟨next, nextMember, step, nextId⟩ := effect.jobs.successor member
    have kept := step.of_terminal (by rw [complete]; rfl)
    exact ⟨next, nextMember, nextId.trans same, kept.status.trans complete⟩

/-- A committed activation, with the history it leaves. -/
structure CommittedActivation (journal after : Journal) (operation : Operation)
    (activation : Activation) (claimed : ClaimedJob) (workerId : WorkerId)
    (build : RepositoryIndexBuild) (now : Timestamp) : Prop where
  operation : operation = .store claimed workerId (.activate activation.commitSha)
  guards : Activated journal.database claimed workerId activation.commitSha activation.job
    activation.repository build
  installation : activation.installation =
    activation.repository.installationId.bind journal.database.installation?
  database : ∃ deliveries, after.database =
    { activatedDatabase journal.database now claimed activation.job activation.repository
        activation.commitSha build with webhookDeliveries := deliveries }
  recorded : after.history.activations = activation :: journal.history.activations

/-- A transaction that activates nothing leaves every index version alone. -/
structure Unactivated (journal after : Journal) : Prop where
  activations : after.history.activations = journal.history.activations
  repositories : Evolves (·.id) SameIndex (fun row => row.indexVersion = 0)
    journal.database.repositories after.database.repositories

section Apply

variable {settings : Settings} {platform : Platform} {journal : Journal}

theorem record_activations {moment : Moment} {operation : Operation}
    (other : ∀ claimed workerId commitSha, operation ≠ .store claimed workerId (.activate commitSha)) :
    (journal.history.record settings platform moment journal.database operation).activations =
      journal.history.activations := by
  unfold History.record
  split
  case h_1 => split <;> rfl
  case h_2 => exact (other _ _ _ rfl).elim
  case h_3 => rfl

/-- An operation activates one repository or leaves all indexes alone. -/
theorem apply_cases (settings : Settings) (platform : Platform)
    (consistent : Consistent journal.database) (moment : Moment) (operation : Operation) :
    (∃ activation claimed workerId build, CommittedActivation journal
      (journal.apply settings platform moment operation) operation activation claimed workerId
      build moment.now) ∨
    Unactivated journal (journal.apply settings platform moment operation) := by
  have effect := operation.effect settings platform moment consistent.jobIds
    consistent.repositoryIds
  by_cases activates : ∃ claimed workerId commitSha,
      operation = .store claimed workerId (.activate commitSha)
  · obtain ⟨claimed, workerId, commitSha, rfl⟩ := activates
    cases outcome : StoreCall.transact settings platform moment claimed workerId journal.database
        (.activate commitSha) with
    | error failure =>
        have unchanged : journal.apply settings platform moment
            (.store claimed workerId (.activate commitSha)) = journal := by
          simp only [Journal.apply, Operation.apply, StoreCall.apply, outcome,
            record_rolledBack outcome]
        rw [unchanged]
        exact .inr ⟨rfl, .refl .refl⟩
    | ok result =>
        obtain ⟨previous, stored⟩ := result
        obtain ⟨job, repository, build, guards, _, deliveries, database⟩ := activate_ok outcome
        obtain ⟨jobMember, held⟩ := held_of_find guards.found
        have read := job?_eq_some consistent.jobIds jobMember
        rw [(heldBy_iff.mp held).1] at read
        refine .inl ⟨⟨job, repository,
          repository.installationId.bind journal.database.installation?, commitSha⟩, claimed,
          workerId, build, rfl, guards, rfl, ⟨deliveries, ?_⟩, ?_⟩
        · rw [← database]
          simp [Journal.apply, Operation.apply, StoreCall.apply, outcome]
        · simp [Journal.apply, History.record, outcome, activationOf, read, guards.located]
  · have noActivation : ∀ claimed workerId, operation.cause ≠ .activate claimed workerId := by
      intro claimed workerId same
      cases operation with
      | store taken worker call =>
          cases call with
          | activate commitSha => exact activates ⟨_, _, _, rfl⟩
          | _ => cases same
      | _ => cases same
    exact .inr ⟨record_activations fun _ _ _ same => activates ⟨_, _, _, same⟩,
      effect.repositories.mono (fun _ _ step => RepositoryStep.sameIndex step noActivation)
        fun _ fresh => fresh.2.unindexed⟩

end Apply

section Committed

variable {journal after : Journal} {operation : Operation} {activation : Activation}
  {claimed : ClaimedJob} {workerId : WorkerId} {build : RepositoryIndexBuild} {now : Timestamp}

theorem CommittedActivation.repository_mem
    (committed : CommittedActivation journal after operation activation claimed workerId build
      now) : activation.repository ∈ journal.database.repositories :=
  (repository?_mem committed.guards.located).1

theorem CommittedActivation.job_mem
    (committed : CommittedActivation journal after operation activation claimed workerId build
      now) : activation.job ∈ journal.database.indexingJobs :=
  (held_of_find committed.guards.found).1

theorem CommittedActivation.fenced
    (committed : CommittedActivation journal after operation activation claimed workerId build
      now) : Fenced activation :=
  .of_fence committed.guards.fenced

/-- The repository rows after an activation. -/
theorem CommittedActivation.repositories
    (committed : CommittedActivation journal after operation activation claimed workerId build
      now) : ∃ delivered, after.database.repositories =
        updateWhere (·.id == activation.repository.id)
          (activatedRepository now (activation.repository.indexVersion + 1) activation.commitSha
            build.vectorCount delivered) journal.database.repositories := by
  obtain ⟨deliveries, database⟩ := committed.database
  refine ⟨journal.database.webhookDeliveries.any (·.indexingJobId == some activation.job.id), ?_⟩
  rw [database]
  simp only [activatedDatabase, activatedBuilds, supersedePrevious, updateRepositories, updateJobs,
    updateBuilds]
  split <;> rfl

/-- The job rows after an activation. -/
theorem CommittedActivation.jobs
    (committed : CommittedActivation journal after operation activation claimed workerId build
      now) : after.database.indexingJobs = updateWhere (·.id == activation.job.id)
        (completedJob now activation.commitSha) journal.database.indexingJobs := by
  obtain ⟨deliveries, database⟩ := committed.database
  rw [database]
  simp only [activatedDatabase, activatedBuilds, supersedePrevious, updateRepositories, updateJobs,
    updateBuilds]
  split <;> rfl

/-- The activated repository is one version further. -/
theorem CommittedActivation.past
    (committed : CommittedActivation journal after operation activation claimed workerId build
      now) : Past after.database activation where
  repository := by
    obtain ⟨delivered, rows⟩ := committed.repositories
    refine ⟨activatedRepository now (activation.repository.indexVersion + 1) activation.commitSha
      build.vectorCount delivered activation.repository, ?_, rfl, Nat.lt_succ_self _,
      Nat.le_of_eq committed.fenced.generation⟩
    rw [rows, mem_updateWhere]
    exact ⟨activation.repository, committed.repository_mem, by simp⟩
  job := by
    refine ⟨completedJob now activation.commitSha activation.job, ?_, rfl, rfl⟩
    rw [committed.jobs, mem_updateWhere]
    exact ⟨activation.job, committed.job_mem, by simp⟩

/-- An activation moves the version of its repository only. -/
theorem CommittedActivation.version (consistent : Consistent journal.database)
    (committed : CommittedActivation journal after operation activation claimed workerId build now)
    {row next : Repository} (member : row ∈ journal.database.repositories)
    (nextMember : next ∈ after.database.repositories) (sameId : next.id = row.id) :
    (row = activation.repository ∧ next.indexVersion = row.indexVersion + 1) ∨
      (row.id ≠ activation.repository.id ∧ next.indexVersion = row.indexVersion) := by
  obtain ⟨delivered, rows⟩ := committed.repositories
  rw [rows, mem_updateWhere] at nextMember
  obtain ⟨prior, priorMember, rewritten⟩ := nextMember
  have priorId : prior.id = row.id := by
    rw [← sameId, ← rewritten]
    split <;> rfl
  have equal := consistent.repositoryIds.row_eq priorMember member priorId
  subst equal
  by_cases here : prior.id = activation.repository.id
  · have activated := consistent.repositoryIds.row_eq member committed.repository_mem here
    subst activated
    rw [if_pos (by simp)] at rewritten
    exact .inl ⟨rfl, rewritten ▸ rfl⟩
  · rw [if_neg (by simpa using here)] at rewritten
    exact .inr ⟨here, rewritten ▸ rfl⟩

end Committed

/-! ## The invariant -/

/-- A build belongs to a stored repository and, if any, a stored job. -/
structure BuildOwned (db : Database) (build : RepositoryIndexBuild) : Prop where
  repository : ∃ row ∈ db.repositories, row.id = build.repositoryId
  job : ∀ jobId, build.jobId = some jobId → ∃ job ∈ db.indexingJobs, job.id = jobId

structure Sound (platform : Platform) (journal : Journal) : Prop where
  table : BuildTable journal.database
  owned : ∀ build ∈ journal.database.builds, BuildOwned journal.database build
  staged : ∀ row ∈ journal.database.repositories,
    (indexDiscipline platform).Invariant (indexSlots journal row)
  past : ∀ activation ∈ journal.history.activations, Past journal.database activation
  fenced : ∀ activation ∈ journal.history.activations, Fenced activation
  once : (journal.history.activations.map (·.job.id)).Nodup
  ordered : ∀ repositoryId, (journal.history.activationsOf repositoryId).Pairwise
    fun later earlier => earlier.job.refreshGeneration ≤ later.job.refreshGeneration
  counted : ∀ row ∈ journal.database.repositories,
    row.indexVersion = (journal.history.activationsOf row.id).length

namespace Sound

variable {settings : Settings} {platform : Platform} {journal : Journal}

theorem start : Sound platform { database := {} } where
  table := ⟨.empty, .nil, by simp, by simp [EdgesOwned]⟩
  owned := by simp
  staged := by simp
  past := by simp
  fenced := by simp
  once := .nil
  ordered := fun _ => .nil
  counted := by simp

theorem mem_activationsOf {history : History} {repositoryId : RepositoryId}
    {activation : Activation} : activation ∈ history.activationsOf repositoryId ↔
      activation ∈ history.activations ∧ activation.repository.id = repositoryId := by
  simp [History.activationsOf]

/-- Every activation of a repository read a version below the current one. -/
theorem version_lt (sound : Sound platform journal) {row : Repository}
    (member : row ∈ journal.database.repositories) {activation : Activation}
    (activated : activation ∈ journal.history.activationsOf row.id) :
    activation.repository.indexVersion < row.indexVersion := by
  obtain ⟨entry, place⟩ := mem_activationsOf.mp activated
  obtain ⟨other, otherMember, same, version, _⟩ := (sound.past _ entry).repository
  have equal := sound.table.consistent.repositoryIds.row_eq otherMember member (same.trans place)
  exact equal ▸ version

private theorem table_apply (sound : Sound platform journal) (settings : Settings)
    (moment : Moment) (operation : Operation) :
    BuildTable (journal.apply settings platform moment operation).database ∧
      ∀ build ∈ (journal.apply settings platform moment operation).database.builds,
        BuildOwned (journal.apply settings platform moment operation).database build := by
  have effect := operation.effect settings platform moment sound.table.consistent.jobIds
    sound.table.consistent.repositoryIds
  have builds := operation_buildEffect settings platform moment sound.table.keys operation
  have keptRepository : ∀ id, (∃ row ∈ journal.database.repositories, row.id = id) →
      ∃ row ∈ (journal.apply settings platform moment operation).database.repositories,
        row.id = id := by
    rintro id ⟨row, member, rfl⟩
    obtain ⟨next, nextMember, _, nextId⟩ := effect.repositories.successor member
    exact ⟨next, nextMember, nextId⟩
  have keptJob : ∀ id, (∃ job ∈ journal.database.indexingJobs, job.id = id) →
      ∃ job ∈ (journal.apply settings platform moment operation).database.indexingJobs,
        job.id = id := by
    rintro id ⟨job, member, rfl⟩
    obtain ⟨next, nextMember, _, nextId⟩ := effect.jobs.successor member
    exact ⟨next, nextMember, nextId⟩
  refine ⟨⟨sound.table.consistent.apply settings platform moment operation,
    builds.builds.keys sound.table.keys, ?_, builds.edgesOwned sound.table.edgesOwned⟩, ?_⟩
  · intro build member
    rcases builds.builds.origin member with ⟨prior, priorMember, _, same⟩ | fresh
    · have version : build.indexVersion = prior.indexVersion := congrArg Prod.snd same
      exact version ▸ sound.table.positive prior priorMember
    · exact fresh.positive
  · intro build member
    rcases builds.builds.origin member with ⟨prior, priorMember, step, same⟩ | fresh
    · have owned := sound.owned prior priorMember
      have place : build.repositoryId = prior.repositoryId := congrArg Prod.fst same
      refine ⟨keptRepository _ (place ▸ owned.repository), fun jobId assigned => ?_⟩
      rcases step with kept | ⟨job, jobMember, taken⟩
      · exact keptJob jobId (owned.job jobId (kept.symm.trans assigned))
      · exact keptJob jobId ⟨job, jobMember, Option.some.inj (taken.symm.trans assigned)⟩
    · refine ⟨keptRepository _ fresh.repository, fun jobId assigned => ?_⟩
      obtain ⟨job, jobMember, taken⟩ := fresh.job
      exact keptJob jobId ⟨job, jobMember, Option.some.inj (taken.symm.trans assigned)⟩

/-- A transaction is one step of the index of every stored repository. -/
theorem index_step (sound : Sound platform journal) (settings : Settings) (moment : Moment)
    {operation : Operation} (admissible : operation.admissible journal.history)
    {row next : Repository} (member : row ∈ journal.database.repositories)
    (nextMember : next ∈
      (journal.apply settings platform moment operation).database.repositories)
    (sameId : next.id = row.id) :
    (indexDiscipline platform).Step (indexSlots journal row)
      (indexSlots (journal.apply settings platform moment operation) next) := by
  refine operation_step settings moment sound.table member nextMember sameId ?_
  rintro claimed workerId indexVersion rfl
  obtain ⟨activation, activated, rfl⟩ := admissible
  exact sound.version_lt member activated

private theorem staged_apply (sound : Sound platform journal) (moment : Moment)
    {operation : Operation} (admissible : operation.admissible journal.history) :
    ∀ next ∈ (journal.apply settings platform moment operation).database.repositories,
      (indexDiscipline platform).Invariant
        (indexSlots (journal.apply settings platform moment operation) next) := by
  have effect := operation.effect settings platform moment sound.table.consistent.jobIds
    sound.table.consistent.repositoryIds
  intro next nextMember
  rcases effect.repositories.origin_of_key sound.table.consistent.repositoryIds nextMember with
    ⟨row, member, _, sameId⟩ | ⟨⟨service, fresh⟩, new⟩
  · exact (sound.index_step settings moment admissible member nextMember sameId).invariant
      (sound.staged row member)
  · refine .fresh fresh.unindexed fun version => ?_
    have effect : ServiceEffect journal.database
        (operation.apply settings platform moment journal.database) :=
      operation.serviceEffect settings platform moment service
    have read : (journal.apply settings platform moment operation).database.build? next.id version =
        journal.database.build? next.id version := build?_of_builds effect.builds.builds _ _
    refine read.trans ?_
    cases found : journal.database.build? next.id version with
    | none => rfl
    | some build =>
        obtain ⟨buildMember, place, _⟩ := build?_mem found
        obtain ⟨row, member, same⟩ := (sound.owned build buildMember).repository
        exact (new row member (same.trans place)).elim

private theorem history_apply (sound : Sound platform journal) {moment : Moment}
    {operation : Operation} {after : Journal}
    (applied : after = journal.apply settings platform moment operation) :
    (∀ activation ∈ after.history.activations, Past after.database activation) ∧
      (∀ activation ∈ after.history.activations, Fenced activation) ∧
      (after.history.activations.map (·.job.id)).Nodup ∧
      ∀ repositoryId, (after.history.activationsOf repositoryId).Pairwise
        fun later earlier => earlier.job.refreshGeneration ≤ later.job.refreshGeneration := by
  have evolved : ∀ activation ∈ journal.history.activations, Past after.database activation := by
    intro activation member
    rw [applied]
    exact (sound.past activation member).evolves (operation.effect settings platform moment
      sound.table.consistent.jobIds sound.table.consistent.repositoryIds)
  have outcome := apply_cases settings platform sound.table.consistent moment operation
  rw [← applied] at outcome
  rcases outcome with ⟨activation, claimed, workerId, build, committed⟩ | idle
  · rw [committed.recorded]
    refine ⟨?_, ?_, ?_, ?_⟩
    · exact List.forall_mem_cons.mpr ⟨committed.past, evolved⟩
    · exact List.forall_mem_cons.mpr ⟨committed.fenced, sound.fenced⟩
    · refine List.nodup_cons.mpr ⟨?_, sound.once⟩
      intro again
      obtain ⟨earlier, entry, same⟩ := List.mem_map.mp again
      obtain ⟨job, jobMember, jobId, complete⟩ := (sound.past earlier entry).job
      have equal := sound.table.consistent.jobIds.row_eq jobMember committed.job_mem
        (jobId.trans same)
      have running := (heldBy_iff.mp (held_of_find committed.guards.found).2).2.1
      rw [← equal, complete] at running
      cases running
    · intro repositoryId
      simp only [History.activationsOf, committed.recorded, List.filter_cons]
      split
      case isFalse => exact sound.ordered repositoryId
      case isTrue here =>
        refine List.pairwise_cons.mpr ⟨?_, sound.ordered repositoryId⟩
        intro earlier earlierMember
        obtain ⟨entry, place⟩ := mem_activationsOf.mp earlierMember
        obtain ⟨row, rowMember, rowId, _, generation⟩ := (sound.past earlier entry).repository
        have equal := sound.table.consistent.repositoryIds.row_eq rowMember
          committed.repository_mem (rowId.trans (place.trans (beq_iff_eq.mp here).symm))
        rw [committed.fenced.generation, ← equal]
        exact generation
  · simp only [History.activationsOf, idle.activations]
    exact ⟨evolved, sound.fenced, sound.once, sound.ordered⟩

/-- The activations of a row that was just inserted. -/
private theorem activationsOf_new (sound : Sound platform journal) {repositoryId : RepositoryId}
    (new : ∀ prior ∈ journal.database.repositories, prior.id ≠ repositoryId) :
    journal.history.activationsOf repositoryId = [] := by
  refine List.eq_nil_iff_forall_not_mem.mpr fun activation member => ?_
  obtain ⟨entry, place⟩ := mem_activationsOf.mp member
  obtain ⟨row, rowMember, same, _⟩ := (sound.past activation entry).repository
  exact new row rowMember (same.trans place)

private theorem counted_apply (sound : Sound platform journal) {moment : Moment}
    {operation : Operation} {after : Journal}
    (applied : after = journal.apply settings platform moment operation) :
    ∀ next ∈ after.database.repositories,
      next.indexVersion = (after.history.activationsOf next.id).length := by
  have outcome := apply_cases settings platform sound.table.consistent moment operation
  rw [← applied] at outcome
  intro next nextMember
  rcases outcome with ⟨activation, claimed, workerId, build, committed⟩ | idle
  · have origin : ∃ row ∈ journal.database.repositories, next.id = row.id := by
      obtain ⟨delivered, rows⟩ := committed.repositories
      rw [rows, mem_updateWhere] at nextMember
      obtain ⟨row, member, rfl⟩ := nextMember
      exact ⟨row, member, by split <;> rfl⟩
    obtain ⟨row, member, sameId⟩ := origin
    have counted := sound.counted row member
    rw [sameId]
    simp only [History.activationsOf, committed.recorded, List.filter_cons] at counted ⊢
    rcases committed.version sound.table.consistent member nextMember sameId with
      ⟨rfl, version⟩ | ⟨apart, version⟩
    · simp [version, counted]
    · have other : (activation.repository.id == row.id) = false := by
        simpa using fun same => apart same.symm
      simp [version, counted, other]
  · simp only [History.activationsOf, idle.activations]
    rcases idle.repositories.origin_of_key sound.table.consistent.repositoryIds nextMember with
      ⟨row, member, same, _⟩ | ⟨unindexed, new⟩
    · rw [same.indexVersion, same.id]
      exact sound.counted row member
    · rw [unindexed]
      have none := sound.activationsOf_new new
      rw [History.activationsOf] at none
      simp [none]

theorem apply (sound : Sound platform journal) (settings : Settings) (moment : Moment)
    {operation : Operation} (admissible : operation.admissible journal.history) :
    Sound platform (journal.apply settings platform moment operation) := by
  obtain ⟨table, owned⟩ := sound.table_apply settings moment operation
  obtain ⟨past, fenced, once, ordered⟩ := sound.history_apply rfl
  exact ⟨table, owned, sound.staged_apply moment admissible, past, fenced, once, ordered,
    sound.counted_apply rfl⟩

end Sound

/-- The invariant holds after every sequence of transactions. -/
theorem reachable_sound {settings : Settings} {platform : Platform} {journal : Journal}
    (reachable : Journal.Reachable settings platform journal) : Sound platform journal := by
  induction reachable with
  | start => exact .start
  | step moment operation _ admissible ih => exact ih.apply settings moment admissible

end Codenaut.ActiveIndex
