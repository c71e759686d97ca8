import Codenaut.ActiveIndex.BuildTable
import Codenaut.ActiveIndex.Searchable
import Codenaut.Indexing.PreparedPolicy

/-!
# The policy of the stored builds

A build has the embedding columns of the settings that prepared it, and no other
transaction changes them. While the settings stay, every build is of their policy.
-/

set_option autoImplicit false

namespace Codenaut.ActiveIndex

open Codenaut.Agent Codenaut.Core Codenaut.Db Codenaut.Db.Database Codenaut.Embeddings
open Codenaut.Indexing Codenaut.Relational Codenaut.Services

/-- Every stored build was embedded as these settings embed a question. -/
def AllPresent (settings : Settings) (platform : Platform) (db : Database) : Prop :=
  ∀ build ∈ db.builds, PresentPolicy settings platform build

/-- The columns of the policy. -/
structure SamePolicy (old new : RepositoryIndexBuild) : Prop where
  model : new.embeddingModelIdentifier = old.embeddingModelIdentifier
  revision : new.embeddingModelRevision = old.embeddingModelRevision
  dimension : new.embeddingDimension = old.embeddingDimension
  preprocessing : new.preprocessingFingerprint = old.preprocessingFingerprint

section Transactions

variable {settings : Settings} {platform : Platform} {db stored : Database} {now : Timestamp}
  {claimed : ClaimedJob} {workerId : WorkerId} {commitSha : CommitSha}

theorem PresentPolicy.kept {old new : RepositoryIndexBuild}
    (present : PresentPolicy settings platform old) (same : SamePolicy old new) :
    PresentPolicy settings platform new where
  model := same.model.trans present.model
  revision := same.revision.trans present.revision
  dimension := same.dimension.trans present.dimension
  preprocessing := same.preprocessing.trans present.preprocessing

theorem AllPresent.ofEq (present : AllPresent settings platform db)
    (builds : stored.builds = db.builds) : AllPresent settings platform stored := by
  unfold AllPresent
  rw [builds]
  exact present

theorem AllPresent.update {guard : RepositoryIndexBuild → Bool}
    {change : RepositoryIndexBuild → RepositoryIndexBuild}
    (present : AllPresent settings platform db)
    (builds : stored.builds = updateWhere guard change db.builds)
    (same : ∀ build, SamePolicy build (change build)) : AllPresent settings platform stored := by
  intro build member
  rw [builds, mem_updateWhere] at member
  obtain ⟨old, oldMember, rfl⟩ := member
  by_cases matched : guard old = true
  · rw [if_pos matched]
    exact (present old oldMember).kept (same old)
  · rw [if_neg matched]
    exact present old oldMember

theorem prepareBuild_allPresent {discovery : DiscoveryResult} {processing : ProcessingResult}
    (present : AllPresent settings platform db)
    (success : prepareBuild settings platform db claimed workerId commitSha discovery processing
      (policyFingerprint settings platform) = .ok stored) :
    AllPresent settings platform stored := by
  obtain ⟨job, repository, -, rfl⟩ := prepareBuild_ok success
  have written : ∀ build ∈ (storeBuild settings db claimed repository.id commitSha processing
      (policyFingerprint settings platform)).builds, PresentPolicy settings platform build := by
    unfold storeBuild
    cases db.build? repository.id processing.indexVersion with
    | none =>
        intro build member
        rcases List.mem_append.mp member with old | added
        · exact present build old
        · rw [List.mem_singleton.mp added]
          exact ⟨rfl, rfl, rfl, rfl⟩
    | some old =>
        intro build member
        obtain ⟨before, beforeMember, rfl⟩ := mem_updateWhere.mp member
        split
        · exact ⟨rfl, rfl, rfl, rfl⟩
        · exact present before beforeMember
  exact written

theorem activate_allPresent {previous : Nat} (present : AllPresent settings platform db)
    (success : activate db now claimed workerId commitSha = .ok (previous, stored)) :
    AllPresent settings platform stored := by
  obtain ⟨job, repository, build, _, _, deliveries, rfl⟩ := activate_ok success
  have superseded : AllPresent settings platform (supersedePrevious db repository) := by
    unfold supersedePrevious
    split
    · exact present.update rfl fun _ => ⟨rfl, rfl, rfl, rfl⟩
    · exact present
  have activated : AllPresent settings platform
      (activatedBuilds db now claimed repository commitSha) :=
    superseded.update rfl fun _ => ⟨rfl, rfl, rfl, rfl⟩
  exact activated

theorem recordFailedBuildCleanup_allPresent (present : AllPresent settings platform db)
    (repositoryId : RepositoryId) (indexVersion : Nat) (cleanupComplete : Bool) :
    AllPresent settings platform
      (recordFailedBuildCleanup db now repositoryId indexVersion cleanupComplete) := by
  have discarded : AllPresent settings platform (db.updateBuilds
      (fun build => isBuild repositoryId indexVersion build && build.state != .active)
      (discardedBuild now cleanupComplete)) :=
    present.update rfl fun _ => ⟨rfl, rfl, rfl, rfl⟩
  unfold recordFailedBuildCleanup
  dsimp only
  split
  · exact present
  · split <;> exact discarded

theorem transact_allPresent {moment : Moment} {call : StoreCall} {reply : call.Reply}
    (present : AllPresent settings platform db)
    (prepares : preparesUnder (policyFingerprint settings platform) (.store call))
    (success : call.transact settings platform moment claimed workerId db = .ok (reply, stored)) :
    AllPresent settings platform stored := by
  cases call with
  | prepareBuild commitSha discovery processing fingerprint =>
      obtain ⟨_, prepared, same⟩ := map_ok success
      cases same
      have under : fingerprint = policyFingerprint settings platform := prepares
      subst under
      exact prepareBuild_allPresent present prepared
  | validateGraph =>
      obtain ⟨_, validated, same⟩ := map_ok success
      cases same
      obtain ⟨_, _, _, _, _, _, rfl⟩ := validateGraph_ok validated
      exact present.update rfl fun _ => ⟨rfl, rfl, rfl, rfl⟩
  | recordVectorCounts embedded vectors reused reembedded =>
      obtain ⟨_, recorded, same⟩ := map_ok success
      cases same
      obtain ⟨_, _, _, _, rfl⟩ := recordVectorCounts_ok recorded
      exact present.update rfl fun _ => ⟨rfl, rfl, rfl, rfl⟩
  | markBuildReady =>
      obtain ⟨_, ready, same⟩ := map_ok success
      cases same
      obtain ⟨_, _, _, rfl⟩ := markBuildReady_ok ready
      exact present.update rfl fun _ => ⟨rfl, rfl, rfl, rfl⟩
  | activate commitSha => exact activate_allPresent present success
  | recordFailedBuildCleanup repositoryId indexVersion cleanupComplete =>
      cases success
      exact recordFailedBuildCleanup_allPresent present repositoryId indexVersion cleanupComplete
  | completeSupersededCleanup repositoryId indexVersion =>
      obtain ⟨_, cleaned, same⟩ := map_ok success
      cases same
      rw [completeSupersededCleanup_ok cleaned]
      exact present.update rfl fun _ => ⟨rfl, rfl, rfl, rfl⟩
  | _ => exact present.ofEq (StoreCall.transact_buildsKept rfl success).builds

/-- A transaction keeps the policy of the builds, if it prepares none under
another one. -/
theorem operation_allPresent (moment : Moment) (operation : Operation)
    (present : AllPresent settings platform db)
    (prepares : ∀ claimed workerId call, operation = .store claimed workerId call →
      preparesUnder (policyFingerprint settings platform) (.store call)) :
    AllPresent settings platform (operation.apply settings platform moment db) := by
  by_cases writes : operation.writesBuilds = true
  · cases operation with
    | store claimed workerId call =>
        simp only [Operation.apply, StoreCall.apply]
        split
        case h_1 stored success =>
            exact transact_allPresent present (prepares claimed workerId call rfl) success
        case h_2 => exact present
    | _ => cases writes
  · exact present.ofEq
      (Operation.buildsKept settings platform moment (by simpa using writes)).builds

end Transactions

end Codenaut.ActiveIndex
