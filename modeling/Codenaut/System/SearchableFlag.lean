import Codenaut.ActiveIndex.BuildPolicies
import Codenaut.System.ActiveVectors

/-!
# The searchable flag

`_is_searchable` (`app/api/repositories.py`) beside the load of the question path,
in every state of any interleaving of workers and services under one set of
settings. The flag does not read the vectors of the index.
-/

set_option autoImplicit false

namespace Codenaut.System

open Codenaut.ActiveIndex Codenaut.Agent Codenaut.Core Codenaut.Db Codenaut.Embeddings
open Codenaut.Indexing Codenaut.Interaction Codenaut.Relational Codenaut.Services

/-- `_is_searchable`, the flag of a repository response. -/
def isSearchable (repository : Repository) : Bool :=
  decide (0 < repository.indexVersion) && repository.lastIndexedCommitSha.isSome &&
    !(repository.indexingStatus == .notIndexed || repository.indexingStatus == .accessRevoked ||
      repository.indexingStatus == .deleting)

/-- The flag says that the question path loads an index. -/
def FlagAgrees (settings : Settings) (platform : Platform) (db : Database)
    (row : Repository) : Prop :=
  isSearchable row = true ↔ (loadActiveIndex settings platform db row).isSome = true

section Policy

variable {settings : Settings} {platform : Platform} {world : World}

/-- The builds of the world are of the workers' policy, and its runs prepare no other. -/
structure PolicySound (settings : Settings) (platform : Platform) (world : World) : Prop where
  builds : AllPresent settings platform world.journal.database
  runs : ∀ workerId run, world.runs workerId = some run →
    run.program.AsksOnly (preparesUnder (policyFingerprint settings platform))

theorem PolicySound.start (settings : Settings) (platform : Platform) :
    PolicySound settings platform {} where
  builds := by
    intro build member
    simp at member
  runs := by
    intro workerId run live
    simp at live

theorem Issued.prepares (sound : PolicySound settings platform world) {action : Action}
    {entry : Transaction} (issued : Issued world action entry) (claimed : ClaimedJob)
    (workerId : WorkerId) (call : StoreCall)
    (stores : entry.operation = .store claimed workerId call) :
    preparesUnder (policyFingerprint settings platform) (.store call) := by
  cases issued with
  | served outsideRuns =>
      subst stores
      cases outsideRuns
  | claimed => cases stores
  | beat =>
      cases stores
      trivial
  | asked live asks =>
      cases stores
      have asked := sound.runs _ _ live
      rw [asks] at asked
      exact asked.1

theorem PolicySound.step (sound : PolicySound settings platform world) (action : Action) :
    PolicySound settings platform (world.step settings platform action) where
  builds := by
    rcases step_journal settings platform world action with same | ⟨entry, issued, applied⟩
    · rw [same]
      exact sound.builds
    · rw [applied]
      exact operation_allPresent entry.moment entry.operation sound.builds (issued.prepares sound)
  runs := by
    intro workerId run live
    cases step_runs live with
    | kept before _ => exact sound.runs workerId run before
    | started => exact runClaimed_policy settings platform _
    | advanced before asks =>
        have asked := sound.runs workerId _ before
        rw [asks] at asked
        exact asked.2 _

theorem World.Reachable.policySound (reachable : World.Reachable settings platform world) :
    PolicySound settings platform world := by
  induction reachable with
  | refl => exact .start settings platform
  | tail _ moves ih =>
      obtain ⟨action, _, rfl⟩ := moves
      exact ih.step action

end Policy

/-! ## Vectors of the active index -/

section Vectors

variable {settings : Settings} {platform : Platform} {world : World}

/-- The job activates no build without vectors. -/
def activatesVectors (db : Database) : Operation → Prop
  | .store claimed _ (.activate _) =>
      ∀ build ∈ db.builds, build.jobId = some claimed.id → build.state = .ready →
        1 ≤ build.vectorCount
  | _ => True

/-- Every indexed repository has an active vector. -/
def VectorsServed (db : Database) : Prop :=
  ∀ row ∈ db.repositories, 1 ≤ row.indexVersion → 1 ≤ row.activeVectorCount

theorem activate_vectorsServed {db stored : Database} {now : Timestamp} {claimed : ClaimedJob}
    {workerId : WorkerId} {commitSha : CommitSha} {previous : Nat} (served : VectorsServed db)
    (vectors : activatesVectors db (.store claimed workerId (.activate commitSha)))
    (success : activate db now claimed workerId commitSha = .ok (previous, stored)) :
    VectorsServed stored := by
  obtain ⟨job, repository, build, guards, _, deliveries, rfl⟩ := activate_ok success
  have counted : 1 ≤ build.vectorCount := by
    have matched := List.find?_some guards.ready
    simp only [activatable, Bool.and_eq_true, beq_iff_eq] at matched
    exact vectors build (List.mem_of_find?_eq_some guards.ready) matched.1.1.1.2 matched.1.1.2
  have repositories : (activatedBuilds db now claimed repository commitSha).repositories =
      db.repositories := by
    unfold activatedBuilds supersedePrevious
    split <;> rfl
  intro row member positive
  simp only [activatedDatabase, Database.updateJobs, Database.updateRepositories,
    repositories] at member
  obtain ⟨old, oldMember, rfl⟩ := mem_updateWhere.mp member
  split at positive
  case isTrue matched =>
      rw [if_pos matched]
      exact counted
  case isFalse unmatched =>
      rw [if_neg unmatched]
      exact served old oldMember positive

/-- Only an activation changes the index columns of a repository. -/
theorem RepositoryStep.sameIndex {cause : Cause} {old new : Repository}
    (step : RepositoryStep cause old new)
    (other : ∀ claimed workerId, cause ≠ .activate claimed workerId) : SameIndex old new := by
  cases step with
  | unmoved kept => exact kept.toSameIndex
  | activated => exact absurd rfl (other _ _)
  | served kept => exact kept.toSameIndex

theorem operation_vectorsServed {db : Database} (moment : Moment) (operation : Operation)
    (jobIds : UniqueKey (·.id) db.indexingJobs)
    (repositoryIds : UniqueKey (·.id) db.repositories) (served : VectorsServed db)
    (vectors : activatesVectors db operation) :
    VectorsServed (operation.apply settings platform moment db) := by
  by_cases activates : ∃ claimed workerId commitSha,
      operation = .store claimed workerId (.activate commitSha)
  · obtain ⟨claimed, workerId, commitSha, rfl⟩ := activates
    simp only [Operation.apply, StoreCall.apply]
    split
    case h_1 stored success => exact activate_vectorsServed served vectors success
    case h_2 => exact served
  · have effect := operation.effect settings platform moment jobIds repositoryIds
    intro row member positive
    rcases effect.repositories.origin member with ⟨old, oldMember, step, -⟩ | ⟨-, fresh⟩
    · have kept := RepositoryStep.sameIndex step fun claimed workerId cause => ?_
      · rw [kept.vectorCount]
        exact served old oldMember (kept.indexVersion ▸ positive)
      · apply activates
        cases operation with
        | store claimed workerId call =>
            cases call with
            | activate commitSha => exact ⟨claimed, workerId, commitSha, rfl⟩
            | _ => cases cause
        | _ => cases cause
    · simp [fresh.unindexed] at positive

theorem VectorsServed.step (sound : WorldSound settings platform world)
    (served : VectorsServed world.journal.database) {action : Action}
    (vectors : world.Commits activatesVectors action) :
    VectorsServed (world.step settings platform action).journal.database := by
  simp only [World.step, World.journalAfter]
  cases committed : world.transaction action with
  | none => exact served
  | some entry =>
      have consistent := sound.journal.consistent
      exact operation_vectorsServed entry.moment entry.operation consistent.jobIds
        consistent.repositoryIds served (vectors entry committed)

theorem path_vectorsServed
    (path : World.Path settings platform (World.Commits activatesVectors) {} world) :
    VectorsServed world.journal.database := by
  have kept : WorldSound settings platform world ∧ VectorsServed world.journal.database := by
    induction path with
    | refl => exact ⟨.start settings platform, by simp [VectorsServed]⟩
    | tail _ moves ih =>
        obtain ⟨action, vectors, rfl⟩ := moves
        exact ⟨ih.1.step action, VectorsServed.step ih.1 ih.2 vectors⟩
  exact kept.2

end Vectors

/-! ## Agreement -/

section Agreement

variable {settings : Settings} {platform : Platform} {world : World} {row : Repository}

/-- At a reachable state the flag tells of a version and a loadable status. -/
theorem isSearchable_iff (reachable : World.Reachable settings platform world)
    (member : row ∈ world.journal.database.repositories) :
    isSearchable row = true ↔ 1 ≤ row.indexVersion ∧ unloadable row.indexingStatus = false := by
  simp only [isSearchable, unloadable, Bool.and_eq_true, decide_eq_true_eq, Bool.not_eq_true']
  constructor
  · rintro ⟨⟨version, -⟩, status⟩
    exact ⟨version, status⟩
  · rintro ⟨version, status⟩
    obtain ⟨build, columns⟩ := (activeBuild_unique reachable.sound.journal member).2 version
    refine ⟨⟨version, ?_⟩, status⟩
    rw [columns.commit]
    rfl

theorem loads_iff (reachable : World.Reachable settings platform world)
    (member : row ∈ world.journal.database.repositories) :
    (loadActiveIndex settings platform world.journal.database row).isSome = true ↔
      isSearchable row = true ∧ 1 ≤ row.activeVectorCount := by
  have journal := reachable.sound.journal
  rw [loads_iff_searchable journal member, isSearchable_iff reachable member]
  constructor
  · intro searchable
    exact ⟨⟨searchable.version, searchable.status⟩, searchable.vectors⟩
  · rintro ⟨⟨version, status⟩, vectors⟩
    obtain ⟨build, columns⟩ := (activeBuild_unique journal member).2 version
    exact ⟨status, version, vectors, build, columns.stored, columns.repository, columns.active,
      reachable.policySound.builds build columns.stored⟩

theorem flagAgrees_iff (reachable : World.Reachable settings platform world)
    (member : row ∈ world.journal.database.repositories) :
    FlagAgrees settings platform world.journal.database row ↔
      1 ≤ row.activeVectorCount ∨ row.indexVersion = 0 ∨
        unloadable row.indexingStatus = true := by
  rw [FlagAgrees, loads_iff reachable member, isSearchable_iff reachable member]
  constructor
  · intro agrees
    by_cases shown : 1 ≤ row.indexVersion ∧ unloadable row.indexingStatus = false
    · exact .inl (agrees.mp shown).2
    · rw [not_and_or, Nat.not_le, Nat.lt_one_iff, Bool.not_eq_false] at shown
      exact .inr shown
  · rintro (vectors | unversioned | status)
    · exact ⟨fun shown => ⟨shown, vectors⟩, fun loads => loads.1⟩
    · simp [unversioned]
    · simp [status]

end Agreement

/-- At every reachable state the flag of a stored repository agrees with the load
exactly if the index has a vector or the flag is down for its version or status.
In a run that activates no build without vectors it agrees at every state. -/
theorem searchable_flag_agrees_iff (settings : Settings) (platform : Platform) :
    (∀ world, World.Reachable settings platform world →
      ∀ row ∈ world.journal.database.repositories,
        (FlagAgrees settings platform world.journal.database row ↔
          1 ≤ row.activeVectorCount ∨ row.indexVersion = 0 ∨
            unloadable row.indexingStatus = true)) ∧
    ∀ world, World.Path settings platform (World.Commits activatesVectors) {} world →
      ∀ row ∈ world.journal.database.repositories,
        FlagAgrees settings platform world.journal.database row := by
  refine ⟨fun world reachable row member => flagAgrees_iff reachable member,
    fun world path row member => ?_⟩
  have reachable := World.Path.reachable .refl path
  rw [flagAgrees_iff reachable member]
  by_cases positive : 1 ≤ row.indexVersion
  · exact .inl (path_vectorsServed path row member positive)
  · exact .inr (.inl (by omega))

/-! ## An index without vectors -/

namespace Onboarding

/-- Every outside call succeeds; the checkout has no chunk. -/
def chunkless (now : Timestamp) : Outside where
  moment := { now }
  reply
    | .analysisResult input => .ok
        { repositoryId := 1
          indexVersion := input.indexVersion
          commitSha := input.commitSha
          graphFingerprint := "digest"
          chunksCounted := rfl
          edgesStamped := by simp }
    | request => (chunked now).reply request

/-- The worker takes a repository without chunks to activation. -/
def emptyIndexed : World :=
  World.run Services.Onboarding.settings Services.Onboarding.platform {}
    (selection 0 ++ [.claim { now := 2 } "worker" 1] ++
      List.replicate 31 (.work "worker" (chunkless 3)))

end Onboarding

open Onboarding in
/-- The index of a repository without chunks is shown as searchable, and no
question loads it. -/
theorem empty_index_shown :
    World.Reachable Services.Onboarding.settings Services.Onboarding.platform emptyIndexed ∧
    ∃ row ∈ emptyIndexed.journal.database.repositories,
      row.indexingStatus = .complete ∧ row.accessRevokedAt = none ∧
      isSearchable row = true ∧
      loadActiveIndex Services.Onboarding.settings Services.Onboarding.platform
        emptyIndexed.journal.database row = none ∧
      ¬ FlagAgrees Services.Onboarding.settings Services.Onboarding.platform
        emptyIndexed.journal.database row := by
  refine ⟨World.Reachable.run .refl _, ?_⟩
  have outcome : ∃ row ∈ emptyIndexed.journal.database.repositories,
      row.indexingStatus = .complete ∧ row.accessRevokedAt = none ∧ isSearchable row = true ∧
      loadActiveIndex Services.Onboarding.settings Services.Onboarding.platform
        emptyIndexed.journal.database row = none := by decide +kernel
  obtain ⟨row, member, status, unrevoked, shown, unloaded⟩ := outcome
  refine ⟨row, member, status, unrevoked, shown, unloaded, fun agrees => ?_⟩
  have loads := agrees.mp shown
  simp [unloaded] at loads

end Codenaut.System
