import Codenaut.Services.Effects
import Codenaut.Services.Webhooks

/-!
# Effects of webhook deliveries

A delivery keeps every index column, never lowers a generation, and inserts at
most one queued job, of the generation and branch it has written.
-/

set_option autoImplicit false

namespace Codenaut.Services

open Codenaut.Db Codenaut.Relational

/-! ## Statements -/

theorem updateDelivery_effect (db : Database) (deliveryRow : DeliveryRowId)
    (change : WebhookDelivery → WebhookDelivery) :
    RepositoryEffect db (updateDelivery db deliveryRow change) :=
  ⟨⟨rfl, rfl, rfl⟩, rfl, .refl .refl, fun row member => ⟨row, member, rfl⟩⟩

theorem finishDelivery_effect (db : Database) (now : Timestamp) (deliveryRow : DeliveryRowId)
    (status : WebhookDeliveryStatus) (code : String) :
    RepositoryEffect db (finishDelivery db now deliveryRow status code) :=
  updateDelivery_effect _ _ _

theorem flushRepositories_eq {db stored : Database} (flushed : flushRepositories db = some stored) :
    stored = db := by
  unfold flushRepositories at flushed
  split at flushed
  · exact (Option.some.inj flushed).symm
  · cases flushed

theorem newJobId_absent (db : Database) : ∀ job ∈ db.indexingJobs, job.id ≠ newJobId db := by
  intro job member same
  have known : job.id ∈ db.indexingJobs.map (·.id) := List.mem_map_of_mem member
  exact freshKey_not_mem _ (same ▸ known)

theorem newRepositoryId_absent (db : Database) :
    ∀ row ∈ db.repositories, row.id ≠ newRepositoryId db := by
  intro row member same
  have known : row.id ∈ db.repositories.map (·.id) := List.mem_map_of_mem member
  exact freshKey_not_mem _ (same ▸ known)

/-- Inserting a job after repository statements. -/
theorem RepositoryEffect.insertJob {db mid : Database} (effect : RepositoryEffect db mid)
    {job : IndexingJob} (absent : ∀ other ∈ db.indexingJobs, other.id ≠ job.id)
    (fresh : FreshJob mid.repositories job) : ServiceEffect db (insertJob mid job) := by
  refine ⟨effect.builds.trans ⟨rfl, rfl, rfl⟩, ?_, effect.repositories, effect.installations⟩
  simp only [Services.insertJob, effect.jobs]
  exact .insert .refl fresh absent

/-- Inserting a repository of a stored installation. -/
theorem insertRepository_effect (db : Database) {row : Repository}
    (absent : ∀ other ∈ db.repositories, other.id ≠ row.id)
    (fresh : FreshRepository db.githubInstallations row) :
    RepositoryEffect db { db with repositories := db.repositories ++ [row] } :=
  ⟨⟨rfl, rfl, rfl⟩, rfl, .insert .refl fresh absent, fun other member => ⟨other, member, rfl⟩⟩

theorem revokedRepository_kept (now : Timestamp) (row : Repository) :
    RepositoryKept row (revokedRepository now row) :=
  ⟨⟨rfl, rfl, rfl, rfl, rfl, rfl, rfl, rfl⟩, Nat.le_refl _⟩

theorem restoredRepository_kept (row : Repository) :
    RepositoryKept row (restoredRepository row) :=
  ⟨⟨rfl, rfl, rfl, rfl, rfl, rfl, rfl, rfl⟩, Nat.le_refl _⟩

theorem pushedRepository_kept (now : Timestamp) (after : CommitSha) (row : Repository) :
    RepositoryKept row (pushedRepository now after row) :=
  ⟨⟨rfl, rfl, rfl, rfl, rfl, rfl, rfl, rfl⟩, Nat.le_succ _⟩

theorem metadataRepository_kept (external : GitHub.Repository) (row : Repository) :
    RepositoryKept row (metadataRepository external row) := by
  unfold metadataRepository
  dsimp only
  split
  · exact ⟨⟨rfl, rfl, rfl, rfl, rfl, rfl, rfl, rfl⟩, Nat.le_succ _⟩
  · exact ⟨⟨rfl, rfl, rfl, rfl, rfl, rfl, rfl, rfl⟩, Nat.le_refl _⟩

/-! ## Installations -/

theorem upsertInstallation_effect (db : Database) (external : GitHub.Installation)
    {change : GitHubInstallation → GitHubInstallation} (sameId : ∀ row, (change row).id = row.id) :
    RepositoryEffect db (upsertInstallation db external change).2 ∧
      ∃ row ∈ (upsertInstallation db external change).2.githubInstallations,
        row.id = (upsertInstallation db external change).1 := by
  have describedId : ∀ row, (change (describedInstallation external row)).id = row.id := by
    intro row
    exact sameId _
  unfold upsertInstallation
  split
  case h_1 found located =>
    have member := List.mem_of_find?_eq_some located
    have inner : ∀ row ∈ db.githubInstallations, ∃ next ∈ (db.updateInstallations
        (·.id == found.id) fun stored =>
          change (describedInstallation external stored)).githubInstallations,
        next.id = row.id := by
      intro row rowMember
      refine ⟨_, mem_updateWhere.mpr ⟨row, rowMember, rfl⟩, ?_⟩
      split
      · exact describedId row
      · rfl
    exact ⟨⟨⟨rfl, rfl, rfl⟩, rfl, .refl .refl, inner⟩, inner found member⟩
  case h_2 =>
    dsimp only
    refine ⟨⟨⟨rfl, rfl, rfl⟩, rfl, .refl .refl, fun row member =>
      ⟨row, List.mem_append_left _ member, rfl⟩⟩, ?_⟩
    exact ⟨_, List.mem_append_right _ (.head _), describedId _⟩

theorem installationStatus_id (action : Option String) (now : Timestamp)
    (external : GitHub.Installation) (row : GitHubInstallation) :
    (installationStatus action now external row).id = row.id := by
  unfold installationStatus
  split
  · rfl
  · split
    · rfl
    · split <;> rfl

theorem joinSender_effect (db : Database) (now : Timestamp) (installationId : InstallationId)
    (sender : Option GitHub.User) : RepositoryEffect db (joinSender db now installationId sender) := by
  unfold joinSender
  split
  · exact .refl db
  · split
    · exact .refl db
    · exact ⟨⟨rfl, rfl, rfl⟩, rfl, .refl .refl, fun row member => ⟨row, member, rfl⟩⟩

theorem applyInstallation_effect (db : Database) (now : Timestamp) (action : Option String)
    (external : GitHub.Installation) (sender : Option GitHub.User) :
    RepositoryEffect db (applyInstallation db now action external sender) := by
  have upserted := (upsertInstallation_effect db external
    (installationStatus_id action now external)).1
  unfold applyInstallation
  dsimp only
  split
  · exact upserted.trans (.updateRepositories _ _ (revokedRepository_kept now))
  · split
    · exact upserted.trans (joinSender_effect _ _ _ _)
    · exact upserted

theorem addRepository_effect (stored : List Repository) {installationId : InstallationId}
    (db : Database) (owned : ∃ row ∈ db.githubInstallations, row.id = installationId)
    (external : GitHub.Repository) :
    RepositoryEffect db (addRepository stored installationId db external) := by
  unfold addRepository
  split
  · exact .updateRepositories _ _ restoredRepository_kept
  · obtain ⟨installation, member, rfl⟩ := owned
    exact insertRepository_effect db (newRepositoryId_absent db)
      ⟨rfl, .inr ⟨rfl, installation, member, rfl⟩⟩

theorem addRepositories_effect (stored : List Repository) {installationId : InstallationId}
    (externals : List GitHub.Repository) (db : Database)
    (owned : ∃ row ∈ db.githubInstallations, row.id = installationId) :
    RepositoryEffect db (externals.foldl (addRepository stored installationId) db) := by
  induction externals generalizing db with
  | nil => exact .refl db
  | cons external rest ih =>
      have first := addRepository_effect stored db owned external
      obtain ⟨row, member, same⟩ := owned
      obtain ⟨next, nextMember, nextId⟩ := first.installations row member
      exact first.trans (ih _ ⟨next, nextMember, nextId.trans same⟩)

theorem applyRepositoryAccess_effect {db stored : Database} {now : Timestamp}
    {external : GitHub.Installation} {added : List GitHub.Repository} {removed : List Nat}
    (applied : applyRepositoryAccess db now external added removed = some stored) :
    RepositoryEffect db stored := by
  obtain ⟨upserted, owned⟩ := upsertInstallation_effect db external
    (fun row : GitHubInstallation => (rfl : (id row).id = row.id))
  have withdrawn := upserted.trans (.updateRepositories _
    (fun row => row.installationId == some (upsertInstallation db external id).1 &&
      removed.contains row.githubRepositoryId) (revokedRepository_kept now))
  rw [flushRepositories_eq applied]
  exact withdrawn.trans (addRepositories_effect _ added _ owned)

theorem deleteRepository_effect (db : Database) (now : Timestamp) (githubInstallationId : Nat)
    (external : GitHub.Repository) :
    RepositoryEffect db (deleteRepository db now githubInstallationId external) := by
  unfold deleteRepository
  split
  · exact .refl db
  · exact .updateRepositories _ _ fun row =>
      ⟨⟨rfl, rfl, rfl, rfl, rfl, rfl, rfl, rfl⟩, Nat.le_refl _⟩

/-! ## Refreshes -/

/-- The row that an update selected by key has written. -/
theorem mem_updated {db : Database} {repository : Repository} (member : repository ∈ db.repositories)
    (change : Repository → Repository) :
    change repository ∈ (db.updateRepositories (·.id == repository.id) change).repositories :=
  mem_updateWhere.mpr ⟨repository, member, by simp⟩

/-- A stale push notes its delivery on the repository. -/
private theorem staleNote_effect (db : Database) (now : Timestamp) (repositoryId : RepositoryId) :
    RepositoryEffect db (db.updateRepositories (·.id == repositoryId) fun row =>
      { row with
        lastDeliveryStatus := some .stale
        lastDeliveryAt := some now }) :=
  .updateRepositories _ _ fun _ => ⟨⟨rfl, rfl, rfl, rfl, rfl, rfl, rfl, rfl⟩, Nat.le_refl _⟩

theorem pushTo_effect (db : Database) (now : Timestamp) (deliveryRow : DeliveryRowId)
    {repository : Repository} (member : repository ∈ db.repositories) (ref : String)
    (before after : CommitSha) (forced deleted : Bool) :
    ServiceEffect db
      (pushTo db now deliveryRow repository ref before after forced deleted).2 := by
  have noted := updateDelivery_effect db deliveryRow fun delivery =>
    { delivery with
      repositoryId := some repository.id
      ref := some ref
      beforeCommitSha := some before
      afterCommitSha := some after }
  unfold pushTo
  dsimp only
  split
  · exact (noted.trans (finishDelivery_effect _ _ _ _ _)).service
  · split
    · exact (noted.trans (finishDelivery_effect _ _ _ _ _)).service
    · split
      · exact ((noted.trans (finishDelivery_effect _ _ _ _ _)).trans
          (staleNote_effect _ _ _)).service
      · split
        · exact (noted.trans (updateDelivery_effect _ _ _)).service
        · refine (noted.trans (.updateRepositories _ _
            (pushedRepository_kept now after))).insertJob (newJobId_absent db) ?_
          exact ⟨rfl, rfl, rfl, rfl, pushedRepository now after repository,
            mem_updated member _, rfl, rfl, rfl⟩

theorem applyPush_effect (db : Database) (now : Timestamp) (deliveryRow : DeliveryRowId)
    (githubInstallationId githubRepositoryId : Nat) (ref : String) (before after : CommitSha)
    (forced deleted : Bool) :
    ServiceEffect db (applyPush db now deliveryRow githubInstallationId githubRepositoryId ref
      before after forced deleted).2 := by
  unfold applyPush
  split
  · exact (finishDelivery_effect _ _ _ _ _).service
  · split
    · exact (finishDelivery_effect _ _ _ _ _).service
    case h_2 found => exact pushTo_effect _ _ _ (List.mem_of_find?_eq_some found) _ _ _ _ _

theorem applyRepositoryMetadata_effect {db stored : Database} {now : Timestamp}
    {deliveryRow : DeliveryRowId} {githubInstallationId : Nat} {external : GitHub.Repository}
    {job : Option JobId}
    (applied : applyRepositoryMetadata db now deliveryRow githubInstallationId external =
      some (job, stored)) : ServiceEffect db stored := by
  unfold applyRepositoryMetadata at applied
  split at applied
  · cases applied
    exact (finishDelivery_effect _ _ _ _ _).service
  · split at applied
    · cases applied
      exact (finishDelivery_effect _ _ _ _ _).service
    case h_2 repository found =>
      have member := List.mem_of_find?_eq_some found
      dsimp only at applied
      simp only [Option.map_eq_some_iff] at applied
      obtain ⟨described, flushed, same⟩ := applied
      have effect := (updateDelivery_effect db deliveryRow fun delivery =>
        { delivery with repositoryId := some repository.id }).trans
          (.updateRepositories _ (·.id == repository.id) (metadataRepository_kept external))
      have describedEq := flushRepositories_eq flushed
      split at same
      · cases same
        rw [describedEq]
        refine effect.insertJob (newJobId_absent db) ?_
        exact ⟨rfl, rfl, rfl, rfl, metadataRepository external repository,
          mem_updated (by exact member) _, rfl, rfl, rfl⟩
      · cases same
        rw [describedEq]
        exact effect.service

/-! ## Deliveries -/

theorem applyEvent_effect {db stored : Database} {now : Timestamp} {deliveryRow : DeliveryRowId}
    {event : WebhookEvent} {job : Option JobId}
    (applied : applyEvent db now deliveryRow event = some (job, stored)) :
    ServiceEffect db stored := by
  cases event with
  | installation action external sender =>
      cases applied
      exact (applyInstallation_effect db now action external sender).service
  | repositoryAccess external added removed =>
      simp only [applyEvent, Option.map_eq_some_iff, Prod.mk.injEq] at applied
      obtain ⟨_, accessed, _, rfl⟩ := applied
      exact (applyRepositoryAccess_effect accessed).service
  | push githubInstallationId githubRepositoryId ref before after forced deleted =>
      have effect := applyPush_effect db now deliveryRow githubInstallationId githubRepositoryId
        ref before after forced deleted
      rw [Option.some.inj applied] at effect
      exact effect
  | repositoryDeleted githubInstallationId external =>
      cases applied
      exact (deleteRepository_effect db now githubInstallationId external).service
  | repositoryMetadata githubInstallationId external =>
      exact applyRepositoryMetadata_effect applied
  | unsupported =>
      cases applied
      exact (updateDelivery_effect _ _ _).service

/-- Statements on the delivery table before and after leave the effect alone. -/
theorem ServiceEffect.withDeliveries {db received applied stored : Database}
    (before : RepositoryEffect db received) (sameRows : received.repositories = db.repositories)
    (effect : ServiceEffect received applied) (after : RepositoryEffect applied stored)
    (sameAfter : stored.repositories = applied.repositories) : ServiceEffect db stored where
  builds := (before.builds.trans effect.builds).trans after.builds
  jobs := by
    rw [after.jobs, ← before.jobs, sameAfter]
    exact effect.jobs
  repositories := by
    rw [sameAfter, ← sameRows]
    exact effect.repositories.mono (fun _ _ => id) fun _ fresh => fresh.grown after.installations
  installations := by
    intro row member
    obtain ⟨first, firstMember, firstId⟩ := before.installations row member
    obtain ⟨second, secondMember, secondId⟩ := effect.installations first firstMember
    obtain ⟨third, thirdMember, thirdId⟩ := after.installations second secondMember
    exact ⟨third, thirdMember, thirdId.trans (secondId.trans firstId)⟩

theorem handle_effect {db stored : Database} {now : Timestamp} {deliveryId eventName : String}
    {payload : GitHub.WebhookPayload} {outcome : WebhookOutcome} {job : Option JobId}
    (handled : handle db now deliveryId eventName payload = some (outcome, job, stored)) :
    ServiceEffect db stored := by
  unfold handle at handled
  split at handled
  · cases handled
  · split at handled
    · cases handled
      exact .refl db
    · simp only [Option.map_eq_some_iff] at handled
      obtain ⟨⟨created, applied⟩, event, same⟩ := handled
      cases same
      have received : RepositoryEffect db
          (receiveDelivery db now deliveryId eventName payload) :=
        ⟨⟨rfl, rfl, rfl⟩, rfl, .refl .refl, fun row member => ⟨row, member, rfl⟩⟩
      exact .withDeliveries received rfl (applyEvent_effect event) (updateDelivery_effect _ _ _)
        rfl

theorem recordEnqueued_effect {cause : Cause} (db : Database) (now : Timestamp) (jobId : JobId) :
    WorkerEffect cause db (recordEnqueued db now jobId) :=
  ⟨.updateWhere .refl
    (fun _ _ _ => .kept ⟨rfl, rfl, rfl, rfl, rfl, rfl, rfl⟩ ⟨rfl, rfl, rfl, rfl, rfl⟩)
    fun _ => rfl,
    .refl .refl, rfl, rfl, rfl⟩

end Codenaut.Services
