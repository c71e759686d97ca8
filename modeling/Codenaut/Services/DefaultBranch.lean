import Codenaut.ActiveIndex.Invariant
import Codenaut.Services.Runs

/-!
# Default-branch changes

A metadata webhook that changes the stored default branch schedules a full
rebuild; an installation sync overwrites the branch without one. A sync is quiet
when it lists indexed repositories with the branch already stored.
-/

set_option autoImplicit false

namespace Codenaut.Services

open Codenaut.ActiveIndex Codenaut.Core Codenaut.Db Codenaut.Indexing Codenaut.Relational

/-- Repository-metadata webhooks and installation syncs. -/
def Operation.carriesBranch : Operation → Bool
  | .synchronizeRepositories _ _ _ => true
  | .handle _ eventName payload =>
      match webhookEvent eventName payload with
      | some (.repositoryMetadata _ _) => true
      | _ => false
  | _ => false

/-- The listing repeats the stored branch of every indexed repository. -/
def QuietListing (db : Database) (installationId : InstallationId)
    (externals : List GitHub.Repository) : Prop :=
  ∀ row ∈ db.repositories, row.installationId = some installationId → 1 ≤ row.indexVersion →
    ∀ external ∈ externals, external.id = row.githubRepositoryId →
      external.defaultBranch = row.defaultBranch

def QuietSync (db : Database) : Operation → Prop
  | .synchronizeRepositories _ installationId externals => QuietListing db installationId externals
  | _ => True

/-! ## Syncs -/

/-- An indexed repository keeps its branch. -/
structure BranchKept (old new : Repository) : Prop extends SameIndex old new where
  branch : 1 ≤ old.indexVersion → new.defaultBranch = old.defaultBranch

theorem BranchKept.refl (row : Repository) : BranchKept row row :=
  ⟨.refl row, fun _ => rfl⟩

theorem BranchKept.trans {first second third : Repository} (left : BranchKept first second)
    (right : BranchKept second third) : BranchKept first third where
  toSameIndex := left.toSameIndex.trans right.toSameIndex
  branch := fun indexed =>
    (right.branch (left.indexVersion.symm ▸ indexed)).trans (left.branch indexed)

/-- A repository that was not there before has no index. -/
abbrev BranchesKept : List Repository → List Repository → Prop :=
  Evolves (·.id) BranchKept fun row => row.indexVersion = 0

theorem BranchesKept.trans {first second third : List Repository}
    (left : BranchesKept first second) (right : BranchesKept second third) :
    BranchesKept first third :=
  Evolves.trans (fun _ _ _ => .trans)
    (fun _ _ unindexed kept => kept.indexVersion.trans unindexed) left right

theorem QuietListing.after {db stored : Database} {installationId : InstallationId}
    {externals : List GitHub.Repository} (quiet : QuietListing db installationId externals)
    (kept : BranchesKept db.repositories stored.repositories) :
    QuietListing stored installationId externals := by
  intro row member owner indexed external listed same
  rcases kept.origin member with ⟨prior, priorMember, step, _⟩ | unindexed
  · have indexedPrior : 1 ≤ prior.indexVersion := step.indexVersion ▸ indexed
    rw [step.branch indexedPrior]
    exact quiet prior priorMember (step.installationId ▸ owner) indexedPrior external listed
      (step.githubRepositoryId ▸ same)
  · omega

theorem upsertRepository_branches {installationId : InstallationId} {db stored : Database}
    {external : GitHub.Repository} {rest : List GitHub.Repository}
    (repositoryIds : UniqueKey (·.id) db.repositories)
    (quiet : QuietListing db installationId (external :: rest))
    (upserted : upsertRepository installationId db external = some stored) :
    BranchesKept db.repositories stored.repositories := by
  unfold upsertRepository at upserted
  split at upserted
  case h_1 row found =>
    rw [flushRepositories_eq upserted]
    have member := List.mem_of_find?_eq_some found
    have matched := List.find?_some found
    simp only [Bool.and_eq_true, beq_iff_eq] at matched
    refine .updateRow .refl repositoryIds member ?_ fun _ => rfl
    exact ⟨⟨rfl, rfl, rfl, rfl, rfl, rfl, rfl, rfl⟩, fun indexed =>
      quiet row member matched.1 indexed external (.head _) matched.2.symm⟩
  case h_2 =>
    rw [flushRepositories_eq upserted]
    exact .insert .refl rfl (newRepositoryId_absent db)

theorem upsertRepositories_branches {installationId : InstallationId}
    (externals : List GitHub.Repository) {db stored : Database}
    (repositoryIds : UniqueKey (·.id) db.repositories)
    (quiet : QuietListing db installationId externals)
    (upserted : externals.foldlM (upsertRepository installationId) db = some stored) :
    BranchesKept db.repositories stored.repositories := by
  induction externals generalizing db with
  | nil =>
      cases upserted
      exact .refl .refl
  | cons external rest ih =>
      simp only [List.foldlM_cons, Option.bind_eq_bind, Option.bind_eq_some_iff] at upserted
      obtain ⟨mid, first, later⟩ := upserted
      have kept := upsertRepository_branches repositoryIds quiet first
      have still : QuietListing mid installationId rest :=
        fun row member owner indexed other listed =>
          quiet.after kept row member owner indexed other (.tail _ listed)
      exact kept.trans (ih (kept.keys repositoryIds) still later)

/-- A quiet sync leaves the branch of every indexed repository alone. -/
theorem synchronizeRepositories_branches {settings : Settings} {db stored : Database}
    {now : Timestamp} {userId : UserId} {installationId : InstallationId}
    {externals : List GitHub.Repository} (repositoryIds : UniqueKey (·.id) db.repositories)
    (quiet : QuietListing db installationId externals)
    (synchronized : synchronizeRepositories settings db now userId installationId externals =
      some stored) : BranchesKept db.repositories stored.repositories := by
  unfold synchronizeRepositories at synchronized
  split at synchronized
  · cases synchronized
  case h_2 installation authorized =>
    simp only [Option.map_eq_some_iff] at synchronized
    obtain ⟨listed, upserted, rfl⟩ := synchronized
    rw [(authorizedInstallation_mem authorized).2] at upserted
    refine (upsertRepositories_branches externals repositoryIds quiet upserted).trans ?_
    exact .updateWhere .refl
      (fun _ _ _ => ⟨⟨rfl, rfl, rfl, rfl, rfl, rfl, rfl, rfl⟩, fun _ => rfl⟩) fun _ => rfl

/-! ## Metadata webhooks -/

/-- A full rebuild of one repository on one branch. -/
structure RebuildOf (repositoryId : RepositoryId) (branch : String) (job : IndexingJob) :
    Prop where
  repositoryId : job.repositoryId = repositoryId
  jobType : job.jobType = .fullRebuild
  mode : job.requestedMode = some .full
  branch : job.targetBranch = some branch

theorem RebuildOf.kept {repositoryId : RepositoryId} {branch : String} {old new : IndexingJob}
    (rebuild : RebuildOf repositoryId branch old) (same : SameRequest old new) :
    RebuildOf repositoryId branch new :=
  ⟨same.repositoryId.trans rebuild.repositoryId, same.jobType.trans rebuild.jobType,
    same.requestedMode.trans rebuild.mode, same.targetBranch.trans rebuild.branch⟩

/-- A repository keeps its branch, or a rebuild of the next generation exists. -/
def BranchFollowed (jobs : List IndexingJob) (old new : Repository) : Prop :=
  new.defaultBranch = old.defaultBranch ∨ ∃ job ∈ jobs,
    RebuildOf old.id new.defaultBranch job ∧ old.refreshGeneration < job.refreshGeneration

theorem metadataRepository_branch (external : GitHub.Repository) (row : Repository) :
    (metadataRepository external row).defaultBranch = external.defaultBranch := by
  unfold metadataRepository
  dsimp only
  split <;> rfl

theorem applyRepositoryMetadata_branch {db stored : Database} {now : Timestamp}
    {deliveryRow : DeliveryRowId} {githubInstallationId : Nat} {external : GitHub.Repository}
    {job : Option JobId} (repositoryIds : UniqueKey (·.id) db.repositories)
    (applied : applyRepositoryMetadata db now deliveryRow githubInstallationId external =
      some (job, stored)) {row next : Repository} (member : row ∈ db.repositories)
    (nextMember : next ∈ stored.repositories) (sameId : next.id = row.id) :
    BranchFollowed stored.indexingJobs row next := by
  have unmoved : stored.repositories = db.repositories →
      BranchFollowed stored.indexingJobs row next := by
    intro same
    rw [same] at nextMember
    rw [repositoryIds.row_eq nextMember member sameId]
    exact .inl rfl
  unfold applyRepositoryMetadata at applied
  split at applied
  · cases applied
    exact unmoved rfl
  · split at applied
    · cases applied
      exact unmoved rfl
    case h_2 repository found =>
      have located := List.mem_of_find?_eq_some found
      dsimp only at applied
      simp only [Option.map_eq_some_iff] at applied
      obtain ⟨described, flushed, same⟩ := applied
      have describedEq := flushRepositories_eq flushed
      have rows : stored.repositories = updateWhere (·.id == repository.id)
          (metadataRepository external) db.repositories := by
        split at same <;> cases same <;> rw [describedEq] <;> rfl
      rw [rows, mem_updateWhere] at nextMember
      obtain ⟨prior, priorMember, rewritten⟩ := nextMember
      have priorId : prior.id = row.id := by
        rw [← sameId, ← rewritten]
        split
        · exact (metadataRepository_kept external prior).id.symm
        · rfl
      have equal := repositoryIds.row_eq priorMember member priorId
      subst equal
      by_cases here : prior.id = repository.id
      · have equal := repositoryIds.row_eq member located here
        subst equal
        rw [if_pos (by simp)] at rewritten
        subst rewritten
        split at same
        case isTrue changed =>
          cases same
          have kept := metadataRepository_kept external prior
          refine .inr ⟨_, List.mem_append_right _ (.head _), ⟨kept.id, rfl, rfl, rfl⟩, ?_⟩
          simp [branchJob, metadataRepository, changed]
        case isFalse unchanged =>
          exact .inl ((metadataRepository_branch external prior).trans
            (not_not.mp unchanged).symm)
      · rw [if_neg (by simpa using here)] at rewritten
        exact .inl (rewritten ▸ rfl)

theorem handle_branch {db stored : Database} {now : Timestamp} {deliveryId eventName : String}
    {payload : GitHub.WebhookPayload} {outcome : WebhookOutcome} {created : Option JobId}
    {githubInstallationId : Nat} {external : GitHub.Repository}
    (repositoryIds : UniqueKey (·.id) db.repositories)
    (event : webhookEvent eventName payload =
      some (.repositoryMetadata githubInstallationId external))
    (handled : handle db now deliveryId eventName payload = some (outcome, created, stored))
    {row next : Repository} (member : row ∈ db.repositories)
    (nextMember : next ∈ stored.repositories) (sameId : next.id = row.id) :
    BranchFollowed stored.indexingJobs row next := by
  unfold handle at handled
  rw [event] at handled
  dsimp only at handled
  split at handled
  · cases handled
    rw [repositoryIds.row_eq nextMember member sameId]
    exact .inl rfl
  · simp only [Option.map_eq_some_iff] at handled
    obtain ⟨⟨job, applied⟩, accepted, same⟩ := handled
    cases same
    have received : UniqueKey (·.id)
        (receiveDelivery db now deliveryId eventName payload).repositories := repositoryIds
    exact applyRepositoryMetadata_branch received accepted member nextMember sameId

/-! ## Runs -/

section Step

variable {settings : Settings} {platform : Platform} {journal : Journal}

/-- A metadata webhook or a quiet sync follows every branch change. -/
theorem branch_step (consistent : Consistent journal.database) (moment : Moment)
    {operation : Operation} (carries : operation.carriesBranch = true)
    (quiet : QuietSync journal.database operation) {row next : Repository}
    (member : row ∈ journal.database.repositories) (indexed : 1 ≤ row.indexVersion)
    (nextMember : next ∈
      (journal.apply settings platform moment operation).database.repositories)
    (sameId : next.id = row.id) :
    BranchFollowed (journal.apply settings platform moment operation).database.indexingJobs row
      next := by
  have stays : ∀ jobs, next ∈ journal.database.repositories → BranchFollowed jobs row next := by
    intro jobs still
    rw [consistent.repositoryIds.row_eq still member sameId]
    exact .inl rfl
  cases operation with
  | synchronizeRepositories userId installationId externals =>
      simp only [Journal.apply, Operation.apply] at nextMember ⊢
      cases synchronized : synchronizeRepositories settings journal.database moment.now userId
          installationId externals with
      | none =>
          rw [synchronized] at nextMember
          exact stays _ nextMember
      | some stored =>
          rw [synchronized] at nextMember
          exact .inl (((synchronizeRepositories_branches consistent.repositoryIds quiet
            synchronized).step_of_key consistent.repositoryIds member nextMember sameId).branch
            indexed)
  | handle deliveryId eventName payload =>
      simp only [Journal.apply, Operation.apply] at nextMember ⊢
      cases handled : handle journal.database moment.now deliveryId eventName payload with
      | none =>
          rw [handled] at nextMember
          exact stays _ nextMember
      | some result =>
          obtain ⟨outcome, created, stored⟩ := result
          rw [handled] at nextMember
          simp only [Operation.carriesBranch] at carries
          split at carries
          case h_1 event =>
            exact handle_branch consistent.repositoryIds event handled member nextMember sameId
          case h_2 => cases carries
  | _ => cases carries

theorem carriesBranch_activations (moment : Moment) {operation : Operation}
    (carries : operation.carriesBranch = true) :
    (journal.apply settings platform moment operation).history.activations =
      journal.history.activations := by
  refine record_activations ?_
  rintro claimed workerId commitSha rfl
  cases carries

theorem carriesBranch_unrestricted {operation : Operation}
    (carries : operation.carriesBranch = true) : operation.clearsSuperseded = false := by
  cases operation with
  | store => cases carries
  | _ => rfl

/-- A full rebuild on the branch, newer than the active index. -/
def RebuildScheduled (journal : Journal) (repositoryId : RepositoryId) (branch : String) : Prop :=
  ∃ job ∈ journal.database.indexingJobs, RebuildOf repositoryId branch job ∧
    ∀ activation ∈ (journal.history.activationsOf repositoryId).head?,
      activation.job.refreshGeneration < job.refreshGeneration

theorem RebuildScheduled.apply (consistent : Consistent journal.database) {repositoryId : RepositoryId}
    {branch : String} (scheduled : RebuildScheduled journal repositoryId branch) (moment : Moment)
    {operation : Operation} (carries : operation.carriesBranch = true) :
    RebuildScheduled (journal.apply settings platform moment operation) repositoryId branch := by
  obtain ⟨job, member, rebuild, newer⟩ := scheduled
  obtain ⟨next, nextMember, step, _⟩ := (operation.effect settings platform moment
    consistent.jobIds consistent.repositoryIds).jobs.successor member
  refine ⟨next, nextMember, rebuild.kept step.request, ?_⟩
  rw [step.request.refreshGeneration, History.activationsOf, carriesBranch_activations moment carries]
  exact newer

theorem RebuildScheduled.run (reachable : Journal.Reachable settings platform journal)
    {repositoryId : RepositoryId} {branch : String} {transactions : List Transaction}
    (carries : ∀ entry ∈ transactions, entry.operation.carriesBranch = true)
    (scheduled : RebuildScheduled journal repositoryId branch) :
    RebuildScheduled (journal.run settings platform transactions) repositoryId branch := by
  induction transactions generalizing journal with
  | nil => exact scheduled
  | cons entry rest ih =>
      have carried := carries entry (.head _)
      refine ih (.step entry.moment entry.operation reachable
        (Operation.admissible_of_unrestricted (carriesBranch_unrestricted carried) _))
        (fun other member => carries other (.tail _ member)) ?_
      exact scheduled.apply reachable.consistent entry.moment carried

/-- In a run of metadata webhooks and syncs whose syncs are all quiet, a changed
branch of an indexed repository has its full rebuild from the change on. -/
theorem branch_change_rebuilt (reachable : Journal.Reachable settings platform journal)
    {transactions : List Transaction}
    (carries : ∀ entry ∈ transactions, entry.operation.carriesBranch = true)
    (quiet : ∀ before entry after, transactions = before ++ entry :: after →
      QuietSync (journal.run settings platform before).database entry.operation) :
    ∀ before entry middle after, transactions = before ++ entry :: (middle ++ after) →
      ∀ row ∈ (journal.run settings platform before).database.repositories,
        1 ≤ row.indexVersion →
      ∀ next ∈ (journal.run settings platform (before ++ [entry])).database.repositories,
        next.id = row.id → next.defaultBranch ≠ row.defaultBranch →
      RebuildScheduled (journal.run settings platform (before ++ entry :: middle)) row.id
        next.defaultBranch := by
  intro before entry middle after split row member indexed next nextMember sameId changed
  subst split
  have carried : ∀ other, other ∈ before ∨ other = entry ∨ other ∈ middle →
      other.operation.carriesBranch = true := by
    intro other place
    refine carries other ?_
    simp only [List.mem_append, List.mem_cons]
    tauto
  have unrestricted : ∀ other ∈ before, other.operation.clearsSuperseded = false :=
    fun other place => carriesBranch_unrestricted (carried other (.inl place))
  have prior := reachable.run unrestricted
  have entryCarries := carried entry (.inr (.inl rfl))
  have changedState : journal.run settings platform (before ++ [entry]) =
      (journal.run settings platform before).apply settings platform entry.moment
        entry.operation := by
    simp [Journal.run]
  have whole : journal.run settings platform (before ++ entry :: middle) =
      (journal.run settings platform (before ++ [entry])).run settings platform middle := by
    simp [Journal.run]
  rw [changedState] at nextMember
  rw [whole, changedState]
  have followed := branch_step prior.consistent entry.moment entryCarries
    (quiet before entry (middle ++ after) rfl) member indexed nextMember sameId
  obtain ⟨job, jobMember, rebuild, newer⟩ := followed.resolve_left changed
  refine RebuildScheduled.run
    (.step entry.moment entry.operation prior
      (Operation.admissible_of_unrestricted (carriesBranch_unrestricted entryCarries) _))
    (fun other place => carried other (.inr (.inr place))) ⟨job, jobMember, rebuild, ?_⟩
  intro activation active
  rw [History.activationsOf, carriesBranch_activations entry.moment entryCarries] at active
  have entryMember := Sound.mem_activationsOf.mp (List.mem_of_mem_head? active)
  obtain ⟨other, otherMember, place, _, generation⟩ :=
    ((reachable_sound prior).past activation entryMember.1).repository
  have equal := prior.consistent.repositoryIds.row_eq otherMember member
    (place.trans entryMember.2)
  rw [equal] at generation
  exact Nat.lt_of_le_of_lt generation newer

end Step

/-! ## A branch change that a sync sees first -/

namespace Onboarding

/-- The provider announces branch `trunk` by a sync and by a webhook. -/
def trunkSync : Transaction :=
  ⟨{ now := 1 }, .synchronizeRepositories 1 1 [repository "trunk"]⟩

def trunkWebhook : Transaction :=
  ⟨{ now := 2 }, .handle "delivery" "repository"
    { action := some "edited"
      installation := some installation
      repository := some (repository "trunk") }⟩

def branches (journal : Journal) : List (RepositoryId × Nat × String) :=
  journal.database.repositories.map fun row => (row.id, row.indexVersion, row.defaultBranch)

end Onboarding

open Onboarding in
/-- The sync stores the new branch, so the webhook announcing it schedules nothing. -/
theorem synced_branch_not_rebuilt :
    branches indexed = [(1, 1, "main")] ∧
    branches (indexed.run settings platform [trunkSync]) = [(1, 1, "trunk")] ∧
    (indexed.run settings platform [trunkSync, trunkWebhook]).database.webhookDeliveries.map
      (·.status) = [.processed] ∧
    ¬ RebuildScheduled (indexed.run settings platform [trunkSync, trunkWebhook]) 1 "trunk" := by
  refine ⟨by decide, by decide, by decide, ?_⟩
  rintro ⟨job, member, rebuild, _⟩
  have others : ∀ job ∈
      (indexed.run settings platform [trunkSync, trunkWebhook]).database.indexingJobs,
      job.jobType ≠ .fullRebuild := by
    decide
  exact others job member rebuild.jobType

open Onboarding in
/-- Announced by the webhook first, the change has its rebuild. -/
theorem announced_branch_rebuilt :
    RebuildScheduled (indexed.run settings platform [trunkWebhook]) 1 "trunk" := by
  have quiet : ∀ before entry after, [trunkWebhook] = before ++ entry :: after →
      QuietSync (indexed.run settings platform before).database entry.operation := by
    intro before entry after split
    cases before with
    | nil => cases split; trivial
    | cons first rest => simp at split
  exact branch_change_rebuilt indexed_reachable (by decide) quiet [] trunkWebhook [] [] rfl
    ((indexed.database.repositories).head (by decide)) (List.head_mem _) (by decide)
    ((indexed.run settings platform [trunkWebhook]).database.repositories.head (by decide))
    (List.head_mem _) (by decide) (by decide)

end Codenaut.Services
