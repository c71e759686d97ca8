import Codenaut.ActiveIndex.Discipline

/-!
# The build table over a transaction

A transaction keeps the key of every build, gives a build only to a stored job,
and inserts a build only for a stored repository and a positive version.
-/

set_option autoImplicit false

namespace Codenaut.ActiveIndex

open Codenaut.Core Codenaut.Db Codenaut.Db.Database Codenaut.Indexing Codenaut.Relational
open Codenaut.Services

/-- A build keeps its job or passes to a stored one. -/
def BuildStep (db : Database) (old new : RepositoryIndexBuild) : Prop :=
  new.jobId = old.jobId ∨ ∃ job ∈ db.indexingJobs, new.jobId = some job.id

structure FreshBuild (db : Database) (build : RepositoryIndexBuild) : Prop where
  positive : 1 ≤ build.indexVersion
  repository : ∃ row ∈ db.repositories, row.id = build.repositoryId
  job : ∃ job ∈ db.indexingJobs, build.jobId = some job.id

/-- The effect of a transaction on the build table and on edge ownership. -/
structure BuildEffect (db stored : Database) : Prop where
  builds : Evolves buildKey (BuildStep db) (FreshBuild db) db.builds stored.builds
  edgesOwned : db.EdgesOwned → stored.EdgesOwned

theorem BuildStep.refl {db : Database} (build : RepositoryIndexBuild) : BuildStep db build build :=
  .inl rfl

theorem BuildEffect.ofKept {db stored : Database} (kept : BuildsKept db stored) :
    BuildEffect db stored where
  builds := .ofEq .refl kept.builds
  edgesOwned := by
    intro owned
    unfold Database.EdgesOwned
    rw [kept.edges, kept.symbols]
    exact owned

/-- An update of builds that keeps their keys and jobs. -/
theorem BuildEffect.update {db stored : Database} {guard : RepositoryIndexBuild → Bool}
    {change : RepositoryIndexBuild → RepositoryIndexBuild}
    (builds : stored.builds = updateWhere guard change db.builds)
    (graph : stored.symbolDefinitions = db.symbolDefinitions ∧ stored.callEdges = db.callEdges)
    (key : ∀ build, buildKey (change build) = buildKey build)
    (job : ∀ build, (change build).jobId = build.jobId) :
    BuildEffect db stored where
  builds := by
    rw [builds]
    exact .updateWhere .refl (fun build _ _ => .inl (job build)) key
  edgesOwned := by
    intro owned
    unfold Database.EdgesOwned
    rw [graph.1, graph.2]
    exact owned

theorem BuildEffect.refl (db : Database) : BuildEffect db db :=
  .ofKept (.refl db)

/-- Deleting the symbols of a version keeps edges owned. -/
theorem BuildEffect.deleteSymbols {db stored : Database} (effect : BuildEffect db stored)
    (repositoryId : RepositoryId) (indexVersion : Nat) :
    BuildEffect db (stored.deleteSymbols repositoryId indexVersion) where
  builds := effect.builds
  edgesOwned := fun owned => (effect.edgesOwned owned).deleteSymbols repositoryId indexVersion

section Calls

variable {settings : Settings} {platform : Platform} {db stored : Database} {now : Timestamp}
  {claimed : ClaimedJob} {workerId : WorkerId} {commitSha : CommitSha}

theorem prepareBuild_buildEffect {discovery : DiscoveryResult} {processing : ProcessingResult}
    {fingerprint : String}
    (success : prepareBuild settings platform db claimed workerId commitSha discovery processing
      fingerprint = .ok stored) (unique : UniqueKey buildKey db.builds) : BuildEffect db stored := by
  obtain ⟨job, repository, prepared, rfl⟩ := prepareBuild_ok success
  have jobMember := held_of_find prepared.found
  have located := repository?_mem prepared.located
  refine ⟨?_, fun owned => preparedDatabase_edgesOwned owned prepared.accepted⟩
  have sameBuilds : (preparedDatabase settings platform db claimed repository.id commitSha
      discovery processing fingerprint).builds = (storeBuild settings db claimed repository.id
        commitSha processing fingerprint).builds := rfl
  have jobId : claimed.id = job.id := (heldBy_iff.mp jobMember.2).1.symm
  rw [sameBuilds]
  unfold storeBuild
  cases found : db.build? repository.id processing.indexVersion with
  | none =>
      refine .insert .refl ⟨prepared.positive, ⟨repository, located.1, rfl⟩, job, jobMember.1,
        congrArg some jobId⟩ ?_
      intro other member same
      have taken := build?_eq_some unique member
      simp only [buildKey, newBuild, Prod.mk.injEq] at same
      rw [same.1, same.2, found] at taken
      cases taken
  | some old =>
      exact .updateWhere .refl
        (fun _ _ _ => .inr ⟨job, jobMember.1, congrArg some jobId⟩) fun _ => rfl

theorem validateGraph_buildEffect
    (success : validateGraph platform db claimed workerId = .ok stored) : BuildEffect db stored := by
  obtain ⟨job, target, build, _, _, _, rfl⟩ := validateGraph_ok success
  exact .update rfl ⟨rfl, rfl⟩ (fun _ => rfl) fun _ => rfl

theorem recordVectorCounts_buildEffect {embedded vectors reused : Nat} {reembedded : Option Nat}
    (success : recordVectorCounts db claimed workerId embedded vectors reused reembedded =
      .ok stored) : BuildEffect db stored := by
  obtain ⟨job, target, _, _, rfl⟩ := recordVectorCounts_ok success
  exact .update rfl ⟨rfl, rfl⟩ (fun _ => rfl) fun _ => rfl

theorem markBuildReady_buildEffect (success : markBuildReady db claimed workerId = .ok stored) :
    BuildEffect db stored := by
  obtain ⟨job, target, _, rfl⟩ := markBuildReady_ok success
  exact .update rfl ⟨rfl, rfl⟩ (fun _ => rfl) fun _ => rfl

/-- Outside insertions, every build keeps its job. -/
private def SameJob (old new : RepositoryIndexBuild) : Prop :=
  new.jobId = old.jobId

private theorem supersedePrevious_builds (repository : Repository) :
    Evolves buildKey SameJob (fun _ => False) db.builds
      (supersedePrevious db repository).builds := by
  unfold supersedePrevious
  split
  · exact .updateWhere (fun _ => rfl) (fun _ _ _ => rfl) fun _ => rfl
  · exact .refl fun _ => rfl

theorem activate_buildEffect {previous : Nat}
    (success : activate db now claimed workerId commitSha = .ok (previous, stored)) :
    BuildEffect db stored := by
  obtain ⟨job, repository, build, _, _, deliveries, rfl⟩ := activate_ok success
  have activated : Evolves buildKey SameJob (fun _ => False)
      (supersedePrevious db repository).builds
      (activatedBuilds db now claimed repository commitSha).builds :=
    .updateWhere (fun _ => rfl) (fun _ _ _ => rfl) fun _ => rfl
  have both := (supersedePrevious_builds repository).trans
    (fun _ _ _ left right => right.trans left) (fun _ _ impossible _ => impossible) activated
  refine ⟨both.mono (fun _ _ => .inl) fun _ => False.elim, fun owned => ?_⟩
  have graph : (activatedBuilds db now claimed repository commitSha).callEdges = db.callEdges ∧
      (activatedBuilds db now claimed repository commitSha).symbolDefinitions =
        db.symbolDefinitions := by
    unfold activatedBuilds supersedePrevious
    split <;> exact ⟨rfl, rfl⟩
  intro edge member
  obtain ⟨symbol, symbolMember, facts⟩ := owned edge (graph.1 ▸ member)
  exact ⟨symbol, graph.2.symm ▸ symbolMember, facts⟩

theorem recordFailedBuildCleanup_buildEffect (repositoryId : RepositoryId) (indexVersion : Nat)
    (cleanupComplete : Bool) : BuildEffect db
      (recordFailedBuildCleanup db now repositoryId indexVersion cleanupComplete) := by
  unfold recordFailedBuildCleanup
  dsimp only
  split
  · exact .refl db
  · have discarded : BuildEffect db (db.updateBuilds (fun build =>
        isBuild repositoryId indexVersion build && build.state != .active)
        (discardedBuild now cleanupComplete)) :=
      .update rfl ⟨rfl, rfl⟩ (fun _ => rfl) fun _ => rfl
    split
    · exact discarded.deleteSymbols repositoryId indexVersion
    · exact discarded

theorem completeSupersededCleanup_buildEffect {repositoryId : RepositoryId} {indexVersion : Nat}
    (success : completeSupersededCleanup db now repositoryId indexVersion = .ok stored) :
    BuildEffect db stored := by
  rw [completeSupersededCleanup_ok success]
  refine BuildEffect.deleteSymbols ?_ _ _
  exact .update rfl ⟨rfl, rfl⟩ (fun _ => rfl) fun _ => rfl

end Calls

theorem transact_buildEffect {settings : Settings} {platform : Platform} {moment : Moment}
    {claimed : ClaimedJob} {workerId : WorkerId} {db stored : Database} {call : StoreCall}
    {reply : call.Reply} (unique : UniqueKey buildKey db.builds)
    (success : call.transact settings platform moment claimed workerId db = .ok (reply, stored)) :
    BuildEffect db stored := by
  cases call with
  | prepareBuild commitSha discovery processing fingerprint =>
      obtain ⟨_, prepared, same⟩ := map_ok success
      cases same
      exact prepareBuild_buildEffect prepared unique
  | validateGraph =>
      obtain ⟨_, validated, same⟩ := map_ok success
      cases same
      exact validateGraph_buildEffect validated
  | recordVectorCounts embedded vectors reused reembedded =>
      obtain ⟨_, recorded, same⟩ := map_ok success
      cases same
      exact recordVectorCounts_buildEffect recorded
  | markBuildReady =>
      obtain ⟨_, ready, same⟩ := map_ok success
      cases same
      exact markBuildReady_buildEffect ready
  | activate commitSha => exact activate_buildEffect success
  | recordFailedBuildCleanup repositoryId indexVersion cleanupComplete =>
      cases success
      exact recordFailedBuildCleanup_buildEffect repositoryId indexVersion cleanupComplete
  | completeSupersededCleanup repositoryId indexVersion =>
      obtain ⟨_, cleaned, same⟩ := map_ok success
      cases same
      exact completeSupersededCleanup_buildEffect cleaned
  | _ => exact .ofKept (StoreCall.transact_buildsKept rfl success)

theorem operation_buildEffect (settings : Settings) (platform : Platform) (moment : Moment)
    {db : Database} (unique : UniqueKey buildKey db.builds) (operation : Operation) :
    BuildEffect db (operation.apply settings platform moment db) := by
  by_cases writes : operation.writesBuilds = true
  · cases operation with
    | store claimed workerId call =>
        simp only [Operation.apply, StoreCall.apply]
        split
        case h_1 stored success => exact transact_buildEffect unique success
        case h_2 => exact .refl db
    | _ => cases writes
  · exact .ofKept (Operation.buildsKept settings platform moment (by simpa using writes))

end Codenaut.ActiveIndex
