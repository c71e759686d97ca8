import Codenaut.ActiveIndex.Invariant
import Codenaut.Services.Runs

/-!
# The active index of a repository

What the journal invariant says in the database's own terms: the active build
of every repository, and the freshness fence that activations pass.
-/

set_option autoImplicit false

namespace Codenaut.ActiveIndex

open Codenaut.Core Codenaut.Db Codenaut.Db.Database Codenaut.Indexing Codenaut.Relational
open Codenaut.Services

variable {settings : Settings} {platform : Platform} {journal : Journal}

/-- The build of an active index: it repeats the columns of its repository, and
the stored graph is the last prepared one, accepted by its counts and
fingerprint. -/
structure ActiveBuild (platform : Platform) (journal : Journal) (row : Repository)
    (build : RepositoryIndexBuild) : Prop where
  stored : build ∈ journal.database.builds
  repository : build.repositoryId = row.id
  active : build.state = .active
  version : build.indexVersion = row.indexVersion
  commit : row.lastIndexedCommitSha = some build.commitSha
  expected : build.expectedChunkCount = row.activeVectorCount
  embedded : build.embeddedChunkCount = row.activeVectorCount
  vectors : build.vectorCount = row.activeVectorCount
  graph : build.graphValidated = true
  prepared : ∃ preparation,
    journal.history.lastPreparation row.id row.indexVersion = some preparation ∧
      journal.database.symbolsAt row.id row.indexVersion = preparation.symbols ∧
      journal.database.edgesAt row.id row.indexVersion = preparation.edges
  stamped : ∀ edge ∈ journal.database.edgesAt row.id row.indexVersion,
    edge.commitSha = build.commitSha
  accepted : graphMatches platform build (validatedEdges platform journal.database row.id
    row.indexVersion build.commitSha) = true

/-- An ACTIVE build carries the version of its repository. -/
theorem Sound.active_version (sound : Sound platform journal) {row : Repository}
    (member : row ∈ journal.database.repositories) {build : RepositoryIndexBuild}
    (stored : build ∈ journal.database.builds) (place : build.repositoryId = row.id)
    (active : build.state = .active) : build.indexVersion = row.indexVersion := by
  have found := build?_eq_some sound.table.keys stored
  rw [place] at found
  exact (sound.staged row member).active _ build found (buildPhase_active.mpr active)

/-- At every reachable state a repository has at most one ACTIVE build, and once
it has a version exactly the build of that version. -/
theorem activeBuild_unique (reachable : Journal.Reachable settings platform journal)
    {row : Repository} (member : row ∈ journal.database.repositories) :
    (∀ left ∈ journal.database.builds, ∀ right ∈ journal.database.builds,
      left.repositoryId = row.id → right.repositoryId = row.id → left.state = .active →
      right.state = .active → left = right) ∧
    (1 ≤ row.indexVersion → ∃ build, ActiveBuild platform journal row build) := by
  have sound := reachable_sound reachable
  constructor
  · intro left leftStored right rightStored leftPlace rightPlace leftActive rightActive
    have leftVersion := sound.active_version member leftStored leftPlace leftActive
    have rightVersion := sound.active_version member rightStored rightPlace rightActive
    refine sound.table.keys.row_eq leftStored rightStored ?_
    simp [buildKey, leftPlace, rightPlace, leftVersion, rightVersion]
  · intro positive
    have staged := sound.staged row member
    obtain ⟨build, found, active, describes⟩ := staged.current positive
    obtain ⟨stored, place, version⟩ := build?_mem found
    have graph := staged.sound _ build found (by simp [active])
    exact ⟨build, {
      stored, version
      repository := place
      active := buildPhase_active.mp active
      commit := describes.commit
      expected := describes.expected
      embedded := describes.embedded
      vectors := describes.vectors
      graph := describes.graph
      prepared := graph.prepared
      stamped := graph.stamped
      accepted := graph.validated describes.graph }⟩

/-- The repository that the onboarding run indexed. -/
def indexedRepository : Repository :=
  Onboarding.indexed.database.repositories.head (by decide)

theorem indexed_activeBuild :
    ∃ build, ActiveBuild Onboarding.platform Onboarding.indexed indexedRepository build :=
  (activeBuild_unique Onboarding.indexed_reachable (List.head_mem _)).2 (by decide)

/-! ## The freshness fence -/

/-- The journal entry of a committed activation: the rows that it read. -/
structure Recorded (journal after : Journal) (claimed : ClaimedJob) (commitSha : CommitSha)
    (activation : Activation) : Prop where
  entry : after.history.activations = activation :: journal.history.activations
  job : activation.job ∈ journal.database.indexingJobs ∧ activation.job.id = claimed.id
  repository : activation.repository ∈ journal.database.repositories ∧
    activation.repository.id = activation.job.repositoryId
  commit : activation.commitSha = commitSha

/-- Every committed activation is recorded with the rows of its database. -/
theorem activate_recorded (sound : Sound platform journal) {moment : Moment}
    {claimed : ClaimedJob} {workerId : WorkerId} {commitSha : CommitSha} {previous : Nat}
    {stored : Database}
    (success : activate journal.database moment.now claimed workerId commitSha =
      .ok (previous, stored)) :
    ∃ activation, Recorded journal (journal.apply settings platform moment
      (.store claimed workerId (.activate commitSha))) claimed commitSha activation := by
  obtain ⟨job, repository, build, guards, _⟩ := activate_ok success
  obtain ⟨jobMember, held⟩ := held_of_find guards.found
  have located := repository?_mem guards.located
  have read := job?_eq_some sound.table.consistent.jobIds jobMember
  have jobId := (heldBy_iff.mp held).1
  rw [jobId] at read
  refine ⟨⟨job, repository, repository.installationId.bind journal.database.installation?,
    commitSha⟩, ?_, ⟨jobMember, jobId⟩, located, rfl⟩
  simp [Journal.apply, History.record, StoreCall.transact, success, activationOf, read,
    guards.located]

/-- An operation either activates this repository, raising its version by one,
or leaves its version and its activations alone. -/
def VersionStep (journal after : Journal) (row next : Repository) : Prop :=
  (∃ activation, after.history.activations = activation :: journal.history.activations ∧
      activation.repository = row ∧ next.indexVersion = row.indexVersion + 1) ∨
    (after.history.activationsOf row.id = journal.history.activationsOf row.id ∧
      next.indexVersion = row.indexVersion)

theorem Sound.versionStep (sound : Sound platform journal) (moment : Moment)
    (operation : Operation) {row next : Repository}
    (member : row ∈ journal.database.repositories)
    (nextMember : next ∈
      (journal.apply settings platform moment operation).database.repositories)
    (sameId : next.id = row.id) :
    VersionStep journal (journal.apply settings platform moment operation) row next := by
  rcases apply_cases settings platform sound.table.consistent moment operation with
    ⟨activation, claimed, workerId, build, committed⟩ | idle
  · rcases committed.version sound.table.consistent member nextMember sameId with
      ⟨rfl, version⟩ | ⟨apart, version⟩
    · exact .inl ⟨activation, committed.recorded, rfl, version⟩
    · refine .inr ⟨?_, version⟩
      have other : (activation.repository.id == row.id) = false := by
        simpa using fun same => apart same.symm
      simp [History.activationsOf, committed.recorded, other]
  · refine .inr ⟨by simp [History.activationsOf, idle.activations], ?_⟩
    exact (idle.repositories.step_of_key sound.table.consistent.repositoryIds member nextMember
      sameId).indexVersion

/-- A transaction that activates nothing in a repository keeps its index columns. -/
theorem Sound.sameIndex (sound : Sound platform journal) (moment : Moment)
    (operation : Operation) {row next : Repository}
    (member : row ∈ journal.database.repositories)
    (nextMember : next ∈
      (journal.apply settings platform moment operation).database.repositories)
    (sameId : next.id = row.id)
    (kept : (journal.apply settings platform moment operation).history.activationsOf row.id =
      journal.history.activationsOf row.id) : SameIndex row next := by
  have repositoryIds := sound.table.consistent.repositoryIds
  rcases apply_cases settings platform sound.table.consistent moment operation with
    ⟨activation, claimed, workerId, build, committed⟩ | unactivated
  · have apart : row.id ≠ activation.repository.id := by
      intro here
      simp [History.activationsOf, committed.recorded, here] at kept
    obtain ⟨delivered, rows⟩ := committed.repositories
    rw [rows, mem_updateWhere] at nextMember
    obtain ⟨prior, priorMember, rewritten⟩ := nextMember
    have priorId : prior.id = row.id := by
      rw [← sameId, ← rewritten]
      split <;> rfl
    obtain rfl := repositoryIds.row_eq priorMember member priorId
    rw [if_neg (by simpa using apart)] at rewritten
    exact rewritten ▸ .refl prior
  · exact unactivated.repositories.step_of_key repositoryIds member nextMember sameId

/-- Activations pass the freshness fence at their commit, happen at most once
for each job, follow non-decreasing generations, and are exactly the steps that
move an index version, by one. -/
theorem activations_fenced (reachable : Journal.Reachable settings platform journal) :
    (∀ activation ∈ journal.history.activations, Fenced activation) ∧
    (journal.history.activations.map (·.job.id)).Nodup ∧
    (∀ repositoryId, (journal.history.activationsOf repositoryId).Pairwise
      fun later earlier => earlier.job.refreshGeneration ≤ later.job.refreshGeneration) ∧
    (∀ moment claimed workerId commitSha previous stored,
      activate journal.database (Moment.now moment) claimed workerId commitSha =
        .ok (previous, stored) →
      ∃ activation, Fenced activation ∧ Recorded journal (journal.apply settings platform moment
        (.store claimed workerId (.activate commitSha))) claimed commitSha activation) ∧
    ∀ moment operation, ∀ row ∈ journal.database.repositories,
      ∀ next ∈ (journal.apply settings platform moment operation).database.repositories,
        next.id = row.id →
        VersionStep journal (journal.apply settings platform moment operation) row next := by
  have sound := reachable_sound reachable
  refine ⟨sound.fenced, sound.once, sound.ordered, ?_, ?_⟩
  · intro moment claimed workerId commitSha previous stored success
    obtain ⟨activation, recorded⟩ := activate_recorded sound success
    refine ⟨activation, ?_, recorded⟩
    have after := sound.apply settings moment
      (Operation.admissible_of_unrestricted rfl journal.history :
        Operation.admissible journal.history (.store claimed workerId (.activate commitSha)))
    exact after.fenced activation (by rw [recorded.entry]; exact .head _)
  · intro moment operation row member next nextMember sameId
    exact sound.versionStep moment operation member nextMember sameId

theorem indexed_fenced : (Onboarding.indexed.history.activations.map (·.job.id)).Nodup ∧
    ∀ activation ∈ Onboarding.indexed.history.activations, Fenced activation := by
  obtain ⟨fenced, once, _⟩ := activations_fenced Onboarding.indexed_reachable
  exact ⟨once, fenced⟩

end Codenaut.ActiveIndex
