import Codenaut.Services.Consistency

/-!
# Store calls without the claim

What a store call still changes when its worker does not hold the job. Most
calls check the lock; the authorization, the withdrawal of a public repository
and the record of a failed build do not.
-/

set_option autoImplicit false

namespace Codenaut.Services

open Codenaut.Core Codenaut.Db Codenaut.Indexing Codenaut.Relational

/-- Jobs, repositories, builds, symbols and call edges are what they were. -/
structure SameIndexRows (db stored : Database) : Prop extends BuildsKept db stored where
  jobs : stored.indexingJobs = db.indexingJobs
  repositories : stored.repositories = db.repositories

theorem SameIndexRows.refl (db : Database) : SameIndexRows db db :=
  ⟨.refl db, rfl, rfl⟩

/-- The authorization query admits a job. -/
def authorizes (settings : Settings) (db : Database) (now : Timestamp) (job : IndexingJob) :
    Bool :=
  (db.repository? job.repositoryId).any fun repository =>
    accessGranted repository (repository.installationId.bind db.installation?) &&
      memberGranted settings db now job repository
        (repository.installationId.bind db.installation?)

def alreadyRevoked (now : Timestamp) (row : Repository) : Prop :=
  row.accessRevokedAt = some now ∧ row.indexingStatus = .accessRevoked ∧
    row.indexingStage = some "public_access_unavailable"

def alreadyDiscarded (now : Timestamp) (cleanupComplete : Bool) (build : RepositoryIndexBuild) :
    Prop :=
  build.state = .failed ∧
    build.cleanupStatus = (if cleanupComplete then .complete else .pending) ∧
    build.cleanupCompletedAt = (if cleanupComplete then some now else none)

/-- The unguarded calls find nothing to write: the authorized job has its
target, the public repository is withdrawn, the version has no inactive build. -/
def StoreCall.harmless (settings : Settings) (now : Timestamp) (db : Database)
    (claimed : ClaimedJob) : StoreCall → Prop
  | .authorizedContext =>
      ∀ job ∈ db.indexingJobs, job.id = claimed.id → job.status = .running →
        authorizes settings db now job = true → job.targetIndexVersion.isSome = true
  | .revokePublicAccess repositoryId =>
      ∀ row ∈ db.repositories, row.id = repositoryId → row.accessMode = .publicAccess →
        alreadyRevoked now row
  | .recordFailedBuildCleanup repositoryId indexVersion cleanupComplete =>
      ∀ build ∈ db.builds, isBuild repositoryId indexVersion build = true →
        build.state ≠ .active → alreadyDiscarded now cleanupComplete build ∧
          (cleanupComplete = true → db.symbolsAt repositoryId indexVersion = [])
  | _ => True

section Unheld

variable {settings : Settings} {platform : Platform} {moment : Moment} {db : Database}
  {claimed : ClaimedJob} {workerId : WorkerId}

theorem find_unheld (unheld : ∀ job ∈ db.indexingJobs, heldBy claimed workerId job = false) :
    db.indexingJobs.find? (heldBy claimed workerId) = none :=
  List.find?_eq_none.mpr fun job member => by simp [unheld job member]

/-! ## The unguarded calls -/

theorem authorizedContext_harmless (jobIds : UniqueKey (·.id) db.indexingJobs)
    (now : Timestamp) :
    SameIndexRows db (authorizedContext settings db now claimed).2 ↔
      StoreCall.authorizedContext.harmless settings now db claimed := by
  unfold authorizedContext
  split
  case h_1 absent =>
      refine iff_of_true (.refl db) ?_
      intro job member same running _
      have unmatched := List.find?_eq_none.mp absent job member
      simp [same, running] at unmatched
  case h_2 job found =>
      have member := List.mem_of_find?_eq_some found
      have matched := List.find?_some found
      simp only [Bool.and_eq_true, beq_iff_eq] at matched
      have only : ∀ other ∈ db.indexingJobs, other.id = claimed.id → other = job :=
        fun other otherMember same => jobIds.row_eq otherMember member (same.trans matched.1.symm)
      split
      case h_1 unlocated =>
          refine iff_of_true (.refl db) ?_
          intro other otherMember same _ authorized
          rw [only other otherMember same] at authorized
          simp [authorizes, unlocated] at authorized
      case h_2 repository located =>
          dsimp only
          have authorized : authorizes settings db now job =
              (accessGranted repository (repository.installationId.bind db.installation?) &&
                memberGranted settings db now job repository
                  (repository.installationId.bind db.installation?)) := by
            simp [authorizes, located]
          rw [← authorized]
          split
          case isFalse refused =>
              refine iff_of_true (.refl db) ?_
              intro other otherMember same _ granted
              rw [only other otherMember same] at granted
              exact (refused granted).elim
          case isTrue granted =>
              constructor
              · intro same other otherMember sameId _ _
                have kept := updateWhere_eq_self_iff.mp same.jobs job member (by simp)
                rw [only other otherMember sameId, ← congrArg IndexingJob.targetIndexVersion kept]
                rfl
              · intro harmless
                refine ⟨⟨rfl, rfl, rfl⟩, updateWhere_eq_self_iff.mpr ?_, rfl⟩
                intro other otherMember sameId
                have equal := only other otherMember
                  ((by simpa using sameId : other.id = job.id).trans matched.1)
                subst equal
                obtain ⟨target, fixed⟩ := Option.isSome_iff_exists.mp
                  (harmless other member matched.1 matched.2 granted)
                simp only [fixed, Option.getD_some]
                rw [← fixed]

theorem revokePublicAccess_harmless (now : Timestamp) (repositoryId : RepositoryId) :
    SameIndexRows db (revokePublicAccess db now repositoryId) ↔
      (StoreCall.revokePublicAccess repositoryId).harmless settings now db claimed := by
  have written : ∀ row : Repository, revokedValues now row = row ↔ alreadyRevoked now row := by
    intro row
    constructor
    · intro same
      rw [← same]
      exact ⟨rfl, rfl, rfl⟩
    · rintro ⟨revoked, status, stage⟩
      simp only [revokedValues, ← revoked, ← status, ← stage]
  have tables : SameIndexRows db (revokePublicAccess db now repositoryId) ↔
      (revokePublicAccess db now repositoryId).repositories = db.repositories :=
    ⟨fun same => same.repositories, fun same => ⟨⟨rfl, rfl, rfl⟩, rfl, same⟩⟩
  rw [tables]
  simp only [revokePublicAccess, Database.updateRepositories, updateWhere_eq_self_iff,
    Bool.and_eq_true, beq_iff_eq, written, StoreCall.harmless]
  constructor
  · exact fun kept row member same mode => kept row member ⟨same, mode⟩
  · exact fun kept row member selected => kept row member selected.1 selected.2

theorem discardedBuild_eq_self_iff (now : Timestamp) (cleanupComplete : Bool)
    (build : RepositoryIndexBuild) :
    discardedBuild now cleanupComplete build = build ↔
      alreadyDiscarded now cleanupComplete build := by
  constructor
  · intro same
    rw [← same]
    exact ⟨rfl, rfl, rfl⟩
  · rintro ⟨state, cleanup, completed⟩
    simp only [discardedBuild, ← state, ← cleanup, ← completed]

theorem recordFailedBuildCleanup_harmless (now : Timestamp) (repositoryId : RepositoryId)
    (indexVersion : Nat) (cleanupComplete : Bool) :
    SameIndexRows db (recordFailedBuildCleanup db now repositoryId indexVersion
        cleanupComplete) ↔
      (StoreCall.recordFailedBuildCleanup repositoryId indexVersion cleanupComplete).harmless
        settings now db claimed := by
  have selects : ∀ build : RepositoryIndexBuild,
      (isBuild repositoryId indexVersion build && build.state != .active) = true ↔
        isBuild repositoryId indexVersion build = true ∧ build.state ≠ .active := by
    simp
  have builds : updateWhere
        (fun build => isBuild repositoryId indexVersion build && build.state != .active)
        (discardedBuild now cleanupComplete) db.builds = db.builds ↔
      ∀ build ∈ db.builds, isBuild repositoryId indexVersion build = true →
        build.state ≠ .active → alreadyDiscarded now cleanupComplete build := by
    simp only [updateWhere_eq_self_iff, selects, discardedBuild_eq_self_iff, and_imp]
  unfold recordFailedBuildCleanup
  dsimp only
  split
  case isTrue absent =>
      refine iff_of_true (.refl db) ?_
      intro build member place inactive
      have unmatched := List.find?_eq_none.mp (Option.isNone_iff_eq_none.mp absent) build member
      exact (unmatched ((selects build).mpr ⟨place, inactive⟩)).elim
  case isFalse present =>
      obtain ⟨found, located⟩ := Option.ne_none_iff_exists'.mp fun absent =>
        present (Option.isNone_iff_eq_none.mpr absent)
      have foundMember := List.mem_of_find?_eq_some located
      have matched := List.find?_some located
      have selected := (selects found).mp matched
      split
      case isFalse kept =>
          constructor
          · intro same build member place inactive
            exact ⟨builds.mp same.builds build member place inactive, fun complete =>
              (kept complete).elim⟩
          · intro harmless
            refine ⟨⟨builds.mpr fun build member place inactive =>
              (harmless build member place inactive).1, rfl, rfl⟩, rfl, rfl⟩
      case isTrue complete =>
          constructor
          · intro same build member place inactive
            refine ⟨builds.mp same.builds build member place inactive, fun _ => ?_⟩
            have undeleted := deleteWhere_eq_self_iff.mp same.symbols
            exact List.filter_eq_nil_iff.mpr fun row rowMember => by
              simpa using undeleted row rowMember
          · intro harmless
            have empty := (harmless found foundMember selected.1 selected.2).2 complete
            refine ⟨⟨builds.mpr fun build member place inactive =>
              (harmless build member place inactive).1, ?_, ?_⟩, rfl, rfl⟩
            · refine deleteWhere_eq_self_iff.mpr fun row rowMember => ?_
              simpa using List.filter_eq_nil_iff.mp empty row rowMember
            · refine deleteWhere_eq_self_iff.mpr fun edge _ => ?_
              have deleted : (db.updateBuilds
                  (fun build => isBuild repositoryId indexVersion build && build.state != .active)
                  (discardedBuild now cleanupComplete)).symbolsAt repositoryId indexVersion =
                  [] := empty
              rw [deleted]
              rfl

/-- Without the claim, a store call leaves the index rows alone exactly when the
unguarded calls find nothing to write. -/
theorem unheld_call_iff (jobIds : UniqueKey (·.id) db.indexingJobs)
    (unheld : ∀ job ∈ db.indexingJobs, heldBy claimed workerId job = false) {call : StoreCall}
    (unactivated : ∀ repositoryId indexVersion,
      call ≠ .completeSupersededCleanup repositoryId indexVersion) :
    SameIndexRows db (call.apply settings platform moment claimed workerId db) ↔
      call.harmless settings moment.now db claimed := by
  have absent := find_unheld unheld
  cases call with
  | authorizedContext => exact authorizedContext_harmless jobIds moment.now
  | revokePublicAccess repositoryId => exact revokePublicAccess_harmless moment.now repositoryId
  | recordFailedBuildCleanup repositoryId indexVersion cleanupComplete =>
      exact recordFailedBuildCleanup_harmless moment.now repositoryId indexVersion cleanupComplete
  | completeSupersededCleanup repositoryId indexVersion =>
      exact (unactivated repositoryId indexVersion rfl).elim
  | heartbeat | recordFreshnessPlan =>
      refine iff_of_true ⟨⟨rfl, rfl, rfl⟩, ?_, rfl⟩ trivial
      exact updateWhere_eq_self unheld
  | isCurrent | canCleanupInactive => exact iff_of_true (.refl db) trivial
  | markStale | stage | validateGraph | recordVectorCounts | markBuildReady | activate
  | cancelRevoked | fail =>
      refine iff_of_true ?_ trivial
      simp only [StoreCall.apply, StoreCall.transact, markStale, stage, validateGraph,
        recordVectorCounts, markBuildReady, activate, cancelRevoked, fail, absent, Except.map]
      exact .refl db
  | prepareBuild commitSha discovery processing fingerprint =>
      refine iff_of_true ?_ trivial
      have refused : ∃ failure, Services.prepareBuild settings platform db claimed workerId
          commitSha discovery processing fingerprint = .error failure := by
        unfold Services.prepareBuild
        split
        · exact ⟨_, rfl⟩
        · rw [absent]
          exact ⟨_, rfl⟩
      obtain ⟨failure, refused⟩ := refused
      simp only [StoreCall.apply, StoreCall.transact, refused, Except.map]
      exact .refl db

end Unheld

end Codenaut.Services
