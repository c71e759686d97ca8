import Codenaut.ActiveIndex.SearchableImports

/-!
# Progress of a selected repository

`select_repository` queues a job only for a repository that never had an initial
job; an earlier one is returned and enqueued in whatever state it is. The
synchronization before it and the note of the queue after it are transactions of
their own.
-/

set_option autoImplicit false

namespace Codenaut.ActiveIndex

open Codenaut.Agent Codenaut.Core Codenaut.Db Codenaut.Indexing Codenaut.Relational
open Codenaut.Services

def HasLiveJob (db : Database) (repositoryId : RepositoryId) : Prop :=
  ∃ job ∈ db.indexingJobs, job.repositoryId = repositoryId ∧ live job = true

/-- Work is under way, or questions are answered. -/
def Progress (settings : Settings) (platform : Platform) (db : Database)
    (repositoryId : RepositoryId) : Prop :=
  HasLiveJob db repositoryId ∨ LoadsFor settings platform db repositoryId

section Selections

variable {settings : Settings} {platform : Platform} {db stored : Database} {now : Timestamp}
  {userId : UserId} {installationId : InstallationId} {repositoryId : RepositoryId} {job : JobId}

/-- The note of the queue changes no status. -/
theorem markEnqueued_progress (db : Database) (later : Timestamp) (job : JobId) :
    Progress settings platform (markEnqueued db later job) repositoryId ↔
      Progress settings platform db repositoryId := by
  have jobs : HasLiveJob (markEnqueued db later job) repositoryId ↔
      HasLiveJob db repositoryId := by
    constructor
    · rintro ⟨next, member, owner, alive⟩
      obtain ⟨prior, priorMember, rfl⟩ := mem_updateWhere.mp member
      refine ⟨prior, priorMember, ?_, ?_⟩
      · rw [← owner]
        split <;> rfl
      · rw [← alive]
        split <;> rfl
    · rintro ⟨prior, member, owner, alive⟩
      refine ⟨_, mem_updateWhere.mpr ⟨prior, member, rfl⟩, ?_, ?_⟩
      · rw [← owner]
        split <;> rfl
      · rw [← alive]
        split <;> rfl
  exact or_congr jobs Iff.rfl

end Selections

/-- A selection leaves work or an index just where it queues the first initial
job, or work or a searchable index was there before. -/
theorem selection_progress_iff (settings present : Settings) (platform : Platform)
    (journal : Journal) (now later : Timestamp) (userId : UserId)
    (installationId : InstallationId) (repositoryId : RepositoryId) (job : JobId)
    (stored : Database) (reachable : Journal.Reachable settings platform journal)
    (selected : selectRepository present journal.database now userId installationId
      repositoryId = some (job, stored)) :
    Progress present platform (markEnqueued stored later job) repositoryId ↔
      ¬HasInitialJob journal.database repositoryId ∨ HasLiveJob journal.database repositoryId ∨
        ∃ row ∈ journal.database.repositories, row.id = repositoryId ∧
          Searchable present platform journal.database row := by
  rw [markEnqueued_progress]
  cases selectRepository_outcome selected with
  | reused initial database =>
      rw [database, Progress, loadsFor_iff_searchable reachable]
      exact ⟨.inr, fun before => before.resolve_left (not_not.mpr initial)⟩
  | @queued repository _ place first database =>
      refine iff_of_true (.inl ?_) (.inl first)
      rw [database]
      exact ⟨initialJob (newJobId journal.database) now userId repository,
        List.mem_append_right _ (List.mem_singleton_self _), place, rfl⟩

namespace SelectionSamples

open Onboarding

/-- The installation loses the repository, and has it back. -/
def withdrawn : List Transaction :=
  [⟨{ now := 0 }, .synchronizeRepositories 1 1 []⟩,
    ⟨{ now := 0 }, .synchronizeRepositories 1 1 [repository "main"]⟩]

def restoredJournal : Journal :=
  indexed.run settings platform withdrawn

theorem restored_reachable : Journal.Reachable settings platform restoredJournal :=
  .run (by decide) indexed_reachable

end SelectionSamples

open Onboarding SelectionSamples in
theorem selected_again_progress :
    Progress settings platform (markEnqueued indexed.database 0 1) 1 := by
  have stored : (indexed.database.repositories.find? (·.id == 1)).isSome = true := by
    decide +kernel
  obtain ⟨row, found⟩ := Option.isSome_iff_exists.mp stored
  have loads : ∀ row ∈ indexed.database.repositories,
      (loadActiveIndex settings platform indexed.database row).isSome = true := by
    decide +kernel
  have member := List.mem_of_find?_eq_some found
  exact (selection_progress_iff settings settings platform indexed 0 0 1 1 1 1 indexed.database
    indexed_reachable (by decide +kernel)).mpr (.inr (.inr ⟨row, member,
      beq_iff_eq.mp (List.find?_some (p := fun row : Repository => row.id == 1) found),
      (loads_iff_searchable indexed_reachable member).mp (loads row member)⟩))

open Onboarding SelectionSamples in
/-- The only job is complete, and the restored repository counts as not indexed. -/
theorem restored_selection_idle : ¬ ∀ (settings : Settings) (platform : Platform)
    (journal : Journal) (now later : Timestamp) (userId : UserId)
    (installationId : InstallationId) (repositoryId : RepositoryId) (job : JobId)
    (stored : Database), Journal.Reachable settings platform journal →
      selectRepository settings journal.database now userId installationId repositoryId =
        some (job, stored) →
      Progress settings platform (markEnqueued stored later job) repositoryId := by
  intro progress
  rcases progress settings platform restoredJournal 0 0 1 1 1 1 restoredJournal.database
    restored_reachable (by decide +kernel) with working | ⟨row, member, -, loads⟩
  · obtain ⟨job, member, -, alive⟩ := working
    have ended : ∀ job ∈ (markEnqueued restoredJournal.database 0 1).indexingJobs,
        live job = false := by decide +kernel
    rw [ended job member] at alive
    cases alive
  · have unloaded : ∀ row ∈ (markEnqueued restoredJournal.database 0 1).repositories,
        unloadable row.indexingStatus = true := by decide +kernel
    unfold loadActiveIndex at loads
    rw [unloaded row member] at loads
    cases loads

end Codenaut.ActiveIndex
