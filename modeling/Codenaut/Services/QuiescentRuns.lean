import Codenaut.Services.IndexingStatus

/-!
# Quiescent statuses along runs

The claims, stages and endings of workers, the recovery of abandoned jobs, and
from them every run whose stale marks are quiet.
-/

set_option autoImplicit false

namespace Codenaut.Services

open Codenaut.Core Codenaut.Db Codenaut.Indexing Codenaut.Relational

section Work

variable {settings : Settings} {platform : Platform} {moment : Moment} {db : Database}

/-! ## Claims and stages -/

theorem claim_backed (backed : Backed db) (now : Timestamp) (jobId : JobId)
    (workerId : WorkerId) : Backed (claim db now jobId workerId).2 := by
  unfold claim
  split
  · exact backed
  case h_2 job found =>
    split
    · exact backed
    · have matched := List.find?_some found
      refine backed.working job.repositoryId
        (fun row member indexing apart => Quieter.elsewhere member (fun _ => rfl) indexing apart)
        (.updateWhere _ (fun _ _ _ _ => rfl) fun _ => rfl)
        ⟨claimValues workerId now job, ?_, rfl, rfl⟩
      exact mem_updateWhere.mpr ⟨job, List.mem_of_find?_eq_some found, by simp [matched]⟩

theorem stage_backed (backed : Backed db) (now : Timestamp) (claimed : ClaimedJob)
    (workerId : WorkerId) (status : RepositoryIndexingStatus) (stageName : String)
    (progress : Nat) (commitSha : Option CommitSha) :
    Backed (stage db now claimed workerId status stageName progress commitSha) := by
  unfold stage
  split
  · exact backed
  case h_2 job found =>
    obtain ⟨member, held⟩ := held_of_find found
    refine backed.working job.repositoryId
      (fun row rowMember indexing apart =>
        Quieter.elsewhere rowMember (fun _ => rfl) indexing apart)
      (.updateWhere _ (fun _ _ _ => id) fun _ => rfl) ?_
    have alive : live job = true := heldBy_live held
    exact ⟨_, mem_updateWhere.mpr ⟨job, member, if_pos held⟩, alive, rfl⟩

/-! ## Endings -/

theorem activate_backed {stored : Database} {now : Timestamp} {claimed : ClaimedJob}
    {workerId : WorkerId} {commitSha : CommitSha} {previous : Nat} (backed : Backed db)
    (jobIds : UniqueKey (·.id) db.indexingJobs)
    (success : activate db now claimed workerId commitSha = .ok (previous, stored)) :
    Backed stored := by
  obtain ⟨job, repository, build, guards, _, deliveries, rfl⟩ := activate_ok success
  have repositories : ((activatedBuilds db now claimed repository commitSha)).repositories =
      db.repositories := by
    unfold activatedBuilds supersedePrevious
    split <;> rfl
  have jobs : ((activatedBuilds db now claimed repository commitSha)).indexingJobs =
      db.indexingJobs := by
    unfold activatedBuilds supersedePrevious
    split <;> rfl
  have place := (repository?_mem guards.located).2
  refine backed.ended repository.id ?_ ?_
  · intro row member indexing
    simp only [activatedDatabase, Database.updateJobs, Database.updateRepositories,
      repositories] at member
    exact Quieter.reset member (fun _ => rfl) (fun _ => rfl) indexing
  · intro other member alive apart
    simp only [activatedDatabase, Database.updateJobs, Database.updateRepositories, jobs]
    refine ⟨other, mem_updateWhere.mpr ⟨other, member, if_neg ?_⟩, alive, rfl⟩
    intro same
    have equal := jobIds.row_eq member (held_of_find guards.found).1 (by simpa using same)
    exact apart (by rw [equal, place])

theorem cancelRevoked_backed (backed : Backed db) (jobIds : UniqueKey (·.id) db.indexingJobs)
    (now : Timestamp) (claimed : ClaimedJob) (workerId : WorkerId) :
    Backed (cancelRevoked db now claimed workerId) := by
  unfold cancelRevoked
  split
  · exact backed
  case h_2 job found =>
    obtain ⟨deliveries, same⟩ := updateFirstDelivery_eq _ _ _
    rw [same]
    refine backed.ended job.repositoryId
      (fun row member indexing => Quieter.reset member (fun _ => rfl) (fun _ => rfl) indexing) ?_
    exact fun other member alive apart => continued_apart jobIds found member alive apart

theorem fail_backed (backed : Backed db) (jobIds : UniqueKey (·.id) db.indexingJobs)
    (settings : Settings) (now : Timestamp) (jitter : Nat) (claimed : ClaimedJob)
    (workerId : WorkerId) (code safeMessage : String) (retryable : Bool) :
    Backed (fail settings db now jitter claimed workerId code safeMessage retryable).2 := by
  unfold fail
  dsimp only
  split
  · exact backed
  case h_2 job found =>
    obtain ⟨member, held⟩ := held_of_find found
    obtain ⟨deliveries, same⟩ := updateFirstDelivery_eq _ _ _
    rw [same]
    cases retry : shouldRetry settings claimed retryable with
    | true =>
        refine backed.working job.repositoryId
          (fun row rowMember indexing apart =>
            Quieter.elsewhere rowMember (fun _ => rfl) indexing apart)
          (.updateWhere _ (fun _ _ _ _ => rfl) fun _ => rfl) ?_
        exact ⟨_, mem_updateWhere.mpr ⟨job, member, if_pos held⟩, rfl, rfl⟩
    | false =>
        refine backed.ended job.repositoryId
          (fun row rowMember indexing =>
            Quieter.reset rowMember (fun _ => rfl) (fun _ => rfl) indexing) ?_
        exact fun other otherMember alive apart =>
          continued_apart jobIds found otherMember alive apart

/-- The one ending that leaves the repository row. -/
theorem markStale_backed (backed : Backed db) (jobIds : UniqueKey (·.id) db.indexingJobs)
    (now : Timestamp) (claimed : ClaimedJob) (workerId : WorkerId) (code : String)
    (superseded : Bool)
    (quietly : ∀ job ∈ db.indexingJobs, heldBy claimed workerId job = true →
      statusOutlives db job = true) :
    Backed (markStale db now claimed workerId code superseded) := by
  unfold markStale
  split
  · exact backed
  case h_2 job found =>
    obtain ⟨deliveries, same⟩ := updateFirstDelivery_eq _ _ _
    rw [same]
    obtain ⟨member, held⟩ := held_of_find found
    have survives : ∀ other ∈ db.indexingJobs, other.id ≠ job.id →
        other ∈ updateWhere (heldBy claimed workerId) (staleValues now code superseded)
          db.indexingJobs := by
      intro other otherMember apart
      refine mem_updateWhere.mpr ⟨other, otherMember, if_neg fun also => apart ?_⟩
      exact (heldBy_iff.mp also).1.trans (heldBy_iff.mp held).1.symm
    intro row rowMember indexing
    obtain ⟨backing, backingMember, alive, owner⟩ := backed row rowMember indexing
    by_cases here : backing.id = job.id
    · have equal := jobIds.row_eq backingMember member here
      subst equal
      have outlives := quietly backing member held
      simp only [statusOutlives, Bool.or_eq_true, List.all_eq_true, List.any_eq_true,
        Bool.and_eq_true, bne_iff_ne, beq_iff_eq, Bool.not_eq_true'] at outlives
      rcases outlives with reset | ⟨other, otherMember, ⟨apart, sameOwner⟩, otherAlive⟩
      · have quiet := (reset row rowMember).resolve_left fun away => away owner.symm
        simp [quiet] at indexing
      · exact ⟨other, survives other otherMember apart, otherAlive, sameOwner.trans owner⟩
    · exact ⟨backing, survives backing backingMember here, alive, owner⟩

/-- One recovered job either waits for its retry or resets its repository. -/
theorem recoverJob_backed (backed : Backed db) (jobIds : UniqueKey (·.id) db.indexingJobs)
    (settings : Settings) (now : Timestamp) {job : IndexingJob} (member : job ∈ db.indexingJobs) :
    Backed (recoverJob settings now db job) := by
  have only : ∀ row ∈ db.indexingJobs, (row.id == job.id) = true → row = job :=
    fun row rowMember same => jobIds.row_eq rowMember member (by simpa using same)
  unfold recoverJob
  by_cases retry : job.attempt < settings.workerMaxAttempts
  · have alive : live (recoveredJob settings now job) = true := by
      simp [live, recoveredJob, retry]
    refine backed.working job.repositoryId
      (fun row rowMember indexing apart =>
        Quieter.elsewhere rowMember (fun _ => rfl) indexing apart)
      (.updateWhere _ ?_ fun _ => rfl)
      ⟨_, mem_updateWhere.mpr ⟨job, member, if_pos (by simp)⟩, alive, rfl⟩
    intro row rowMember same _
    rw [only row rowMember same]
    exact alive
  · simp only [retry, decide_false]
    refine backed.ended job.repositoryId
      (fun row rowMember indexing =>
        Quieter.reset rowMember (fun _ => rfl) (fun _ => rfl) indexing) ?_
    intro other otherMember alive apart
    refine ⟨other, mem_updateWhere.mpr ⟨other, otherMember, if_neg ?_⟩, alive, rfl⟩
    intro same
    exact apart (by rw [only other otherMember same])

theorem recoverJobs_backed (settings : Settings) (now : Timestamp) (jobs : List IndexingJob)
    {db : Database} (backed : Backed db) (jobIds : UniqueKey (·.id) db.indexingJobs)
    (distinct : (jobs.map (·.id)).Nodup) (members : ∀ job ∈ jobs, job ∈ db.indexingJobs) :
    Backed (jobs.foldl (recoverJob settings now) db) := by
  induction jobs generalizing db with
  | nil => exact backed
  | cons job rest ih =>
      obtain ⟨fresh, later⟩ := List.nodup_cons.mp distinct
      have member := members job (.head _)
      refine ih (recoverJob_backed backed jobIds settings now member)
        (jobIds.updateWhere fun _ => rfl) later ?_
      intro other otherMember
      refine mem_updateWhere.mpr ⟨other, members other (.tail _ otherMember), if_neg ?_⟩
      intro same
      exact fresh (List.mem_map.mpr ⟨other, otherMember, by simpa using same⟩)

theorem recoverAbandoned_backed (backed : Backed db)
    (jobIds : UniqueKey (·.id) db.indexingJobs) (settings : Settings) (now : Timestamp) :
    Backed (recoverAbandoned settings db now).2 := by
  refine recoverJobs_backed settings now _ backed jobIds ?_ ?_
  · exact jobIds.sublist (List.filter_sublist.map _)
  · exact fun job member => (List.mem_filter.mp member).1

/-! ## Runs -/

/-- The store calls that leave every status of a repository alone. -/
theorem StoreCall.quiet_backed {claimed : ClaimedJob} {workerId : WorkerId} {call : StoreCall}
    {stored : Database} (backed : Backed db) (jobIds : UniqueKey (·.id) db.indexingJobs)
    (repositoryIds : UniqueKey (·.id) db.repositories)
    (lasting : (call.cause claimed workerId).ends = false)
    (repositories : Quieter db.repositories stored.repositories) {reply : call.Reply}
    (success : call.transact settings platform moment claimed workerId db = .ok (reply, stored)) :
    Backed stored :=
  backed.quieter repositories (.work (transact_effect jobIds repositoryIds success).jobs lasting)

theorem StoreCall.transact_backed {claimed : ClaimedJob} {workerId : WorkerId} {call : StoreCall}
    {stored : Database} {reply : call.Reply} (backed : Backed db)
    (jobIds : UniqueKey (·.id) db.indexingJobs)
    (repositoryIds : UniqueKey (·.id) db.repositories)
    (quietly : marksQuietly db (.store claimed workerId call))
    (success : call.transact settings platform moment claimed workerId db = .ok (reply, stored)) :
    Backed stored := by
  have same : (call.cause claimed workerId).ends = false → call.writesRepositories = false →
      Backed stored := by
    intro lasting other
    have repositories := transact_repositoriesKept other success
    exact quiet_backed backed jobIds repositoryIds lasting (repositories ▸ .refl _) success
  cases call with
  | revokePublicAccess repositoryId =>
      cases success
      exact revokePublicAccess_backed backed moment.now repositoryId
  | markStale code superseded =>
      cases success
      exact markStale_backed backed jobIds moment.now claimed workerId code superseded quietly
  | stage status stageName progress commitSha =>
      cases success
      exact stage_backed backed moment.now claimed workerId status stageName progress commitSha
  | prepareBuild commitSha discovery processing fingerprint =>
      obtain ⟨_, prepared, answer⟩ := map_ok success
      cases answer
      obtain ⟨job, repository, _, rfl⟩ := prepareBuild_ok prepared
      refine quiet_backed backed jobIds repositoryIds rfl ?_ success
      unfold preparedDatabase clearedForBuild
      rw [storeBuild_eq]
      exact .updateWhere _ (fun _ => rfl) fun _ => id
  | activate commitSha => exact activate_backed backed jobIds success
  | cancelRevoked =>
      cases success
      exact cancelRevoked_backed backed jobIds moment.now claimed workerId
  | fail code safeMessage retryable =>
      have kept := fail_backed backed jobIds settings moment.now moment.jitter claimed workerId code
        safeMessage retryable
      rw [Except.ok.inj success] at kept
      exact kept
  | _ => exact same rfl rfl

theorem Backed.apply (backed : Backed db) (jobIds : UniqueKey (·.id) db.indexingJobs)
    (repositoryIds : UniqueKey (·.id) db.repositories) (settings : Settings)
    (platform : Platform) (moment : Moment) {operation : Operation}
    (quietly : marksQuietly db operation) :
    Backed (operation.apply settings platform moment db) := by
  by_cases service : operation.cause = .service
  · exact operation.service_backed backed repositoryIds service
  · cases operation with
    | claim jobId workerId => exact claim_backed backed moment.now jobId workerId
    | store claimed workerId call =>
        simp only [Operation.apply, StoreCall.apply]
        split
        case h_1 stored success =>
            exact StoreCall.transact_backed backed jobIds repositoryIds quietly success
        case h_2 => exact backed
    | recoverAbandoned => exact recoverAbandoned_backed backed jobIds settings moment.now
    | markEnqueued jobId =>
        exact backed.quieter (.refl _) (.updateWhere _ (fun _ _ _ => id) fun _ => rfl)
    | recordEnqueued jobId =>
        exact backed.quieter (.refl _) (.updateWhere _ (fun _ _ _ => id) fun _ => rfl)
    | _ => exact (service rfl).elim

end Work

/-- In every run whose stale marks are quiet, a repository without a live job is
not in progress. -/
theorem Journal.Path.quiescent {settings : Settings} {platform : Platform} {journal : Journal}
    (path : Journal.Path settings platform marksQuietly { database := {} } journal) :
    Quiescent journal.database := by
  rw [quiescent_iff_backed]
  induction path with
  | refl =>
      intro row member
      simp at member
  | tail prior moves ih =>
      obtain ⟨moment, operation, _, quietly, rfl⟩ := moves
      have consistent := (Journal.Path.reachable .start prior).consistent
      exact ih.apply consistent.jobIds consistent.repositoryIds settings platform moment quietly

end Codenaut.Services
