import Codenaut.Services.Consistency

/-!
# Delivery rows

Which transactions leave the delivery table alone, and what `handle` adds to
it: one row with a fresh key, linked to no job or to a live one.
-/

set_option autoImplicit false

namespace Codenaut.Services

open Codenaut.Core Codenaut.Db Codenaut.Indexing Codenaut.Relational

section Frames

variable {db stored : Database}

/-! ## Installations and repositories -/

theorem upsertInstallation_deliveries (db : Database) (external : GitHub.Installation)
    (change : GitHubInstallation → GitHubInstallation) :
    (upsertInstallation db external change).2.webhookDeliveries = db.webhookDeliveries := by
  unfold upsertInstallation
  split <;> rfl

theorem joinSender_deliveries (db : Database) (now : Timestamp) (installationId : InstallationId)
    (sender : Option GitHub.User) :
    (joinSender db now installationId sender).webhookDeliveries = db.webhookDeliveries := by
  unfold joinSender
  split
  · rfl
  · split <;> rfl

theorem applyInstallation_deliveries (db : Database) (now : Timestamp) (action : Option String)
    (external : GitHub.Installation) (sender : Option GitHub.User) :
    (applyInstallation db now action external sender).webhookDeliveries =
      db.webhookDeliveries := by
  have upserted := upsertInstallation_deliveries db external
    (installationStatus action now external)
  unfold applyInstallation
  dsimp only
  split
  · exact upserted
  · split
    · rw [joinSender_deliveries, upserted]
    · exact upserted

theorem addRepositories_deliveries (stored : List Repository) (installationId : InstallationId)
    (externals : List GitHub.Repository) (db : Database) :
    (externals.foldl (addRepository stored installationId) db).webhookDeliveries =
      db.webhookDeliveries := by
  induction externals generalizing db with
  | nil => rfl
  | cons external rest ih =>
      rw [List.foldl_cons, ih]
      unfold addRepository
      split <;> rfl

theorem applyRepositoryAccess_deliveries {now : Timestamp} {external : GitHub.Installation}
    {added : List GitHub.Repository} {removed : List Nat}
    (applied : applyRepositoryAccess db now external added removed = some stored) :
    stored.webhookDeliveries = db.webhookDeliveries := by
  rw [flushRepositories_eq applied, addRepositories_deliveries]
  exact upsertInstallation_deliveries db external id

theorem deleteRepository_deliveries (db : Database) (now : Timestamp)
    (githubInstallationId : Nat) (external : GitHub.Repository) :
    (deleteRepository db now githubInstallationId external).webhookDeliveries =
      db.webhookDeliveries := by
  unfold deleteRepository
  split <;> rfl

theorem upsertRepositories_deliveries {installationId : InstallationId}
    (externals : List GitHub.Repository) {db stored : Database}
    (upserted : externals.foldlM (upsertRepository installationId) db = some stored) :
    stored.webhookDeliveries = db.webhookDeliveries := by
  induction externals generalizing db with
  | nil =>
      cases upserted
      rfl
  | cons external rest ih =>
      simp only [List.foldlM_cons, Option.bind_eq_bind, Option.bind_eq_some_iff] at upserted
      obtain ⟨middle, first, later⟩ := upserted
      rw [ih later]
      unfold upsertRepository at first
      split at first
      · rw [flushRepositories_eq first]
        rfl
      · rw [flushRepositories_eq first]

theorem synchronizeRepositories_deliveries {settings : Settings} {now : Timestamp}
    {userId : UserId} {installationId : InstallationId} {externals : List GitHub.Repository}
    (synchronized : synchronizeRepositories settings db now userId installationId externals =
      some stored) : stored.webhookDeliveries = db.webhookDeliveries := by
  unfold synchronizeRepositories at synchronized
  split at synchronized
  · cases synchronized
  · simp only [Option.map_eq_some_iff] at synchronized
    obtain ⟨listed, upserted, rfl⟩ := synchronized
    have kept := upsertRepositories_deliveries externals upserted
    exact kept

theorem revalidatePublic_deliveries (db : Database) (now : Timestamp) (userId : UserId)
    (repositoryId : RepositoryId) (answer : PublicAnswer) :
    (revalidatePublic db now userId repositoryId answer).webhookDeliveries =
      db.webhookDeliveries := by
  unfold revalidatePublic
  split
  · rfl
  · split
    · rfl
    · split
      · rfl
      · split <;> rfl

theorem selectRepository_deliveries {settings : Settings} {now : Timestamp} {userId : UserId}
    {installationId : InstallationId} {repositoryId : RepositoryId} {job : JobId}
    (selected : selectRepository settings db now userId installationId repositoryId =
      some (job, stored)) : stored.webhookDeliveries = db.webhookDeliveries := by
  cases selectRepository_outcome selected with
  | reused _ database => rw [database]
  | queued _ _ _ database =>
      rw [database]
      rfl

theorem reindex_deliveries {now : Timestamp} {userId : UserId} {repositoryId : RepositoryId}
    {job : JobId} (reindexed : reindex db now userId repositoryId = some (job, stored)) :
    stored.webhookDeliveries = db.webhookDeliveries := by
  obtain ⟨repository, -, rfl⟩ := reindex_queued reindexed
  rfl

theorem attach_deliveries {settings : Settings} {now : Timestamp} {userId : UserId}
    {metadata : GitHub.PublicRepository} {expectedRepositoryId : Option RepositoryId}
    {manual : Bool} {result : AttachResult}
    (accepted : attach settings db now userId metadata expectedRepositoryId manual =
      some (result, stored)) : stored.webhookDeliveries = db.webhookDeliveries := by
  have joined : ∀ member, (importJoined db now metadata member userId).webhookDeliveries =
      db.webhookDeliveries := by
    intro member
    unfold importJoined joinUser importRow
    split <;> split <;> rfl
  cases attach_outcome accepted with
  | joined member database =>
      rw [database]
      exact joined member
  | queued member _ database =>
      rw [database]
      exact joined member

theorem synchronizeGithubLogin_deliveries (db : Database) (now : Timestamp)
    (resolved : Option UserId) (githubUser : GitHub.User)
    (installations : List GitHub.Installation) :
    (synchronizeGithubLogin db now resolved githubUser installations).webhookDeliveries =
      db.webhookDeliveries := by
  have signedIn : ∀ (externals : List GitHub.Installation) userId
      (state : List InstallationId × Database),
      (externals.foldl (signInInstallation now userId githubUser.id) state).2.webhookDeliveries =
        state.2.webhookDeliveries := by
    intro externals userId
    induction externals with
    | nil => exact fun _ => rfl
    | cons external rest ih =>
        intro state
        rw [List.foldl_cons, ih]
        exact upsertInstallation_deliveries _ _ _
  simp only [synchronizeGithubLogin, signedIn]

/-! ## Received deliveries -/

/-- The delivery table of `db` with one row appended. -/
structure Received (db current : Database) (row : WebhookDelivery) : Prop where
  deliveries : current.webhookDeliveries = db.webhookDeliveries ++ [row]
  fresh : row.id = newDeliveryRow db

theorem newDeliveryRow_absent (db : Database) :
    ∀ delivery ∈ db.webhookDeliveries, delivery.id ≠ newDeliveryRow db := by
  intro delivery member same
  have known : delivery.id ∈ db.webhookDeliveries.map (·.id) := List.mem_map_of_mem member
  exact freshKey_not_mem _ (same ▸ known)

/-- An update by the fresh key changes the appended row alone. -/
theorem Received.update {current : Database} {row : WebhookDelivery}
    (received : Received db current row) (change : WebhookDelivery → WebhookDelivery)
    (sameId : (change row).id = row.id) :
    Received db (updateDelivery current (newDeliveryRow db) change) (change row) where
  deliveries := by
    have stored : updateWhere (·.id == newDeliveryRow db) change db.webhookDeliveries =
        db.webhookDeliveries :=
      updateWhere_eq_self fun delivery member => by
        simpa using newDeliveryRow_absent db delivery member
    simp only [updateDelivery, Database.updateDeliveries, received.deliveries]
    simp only [updateWhere, List.map_append] at stored ⊢
    rw [stored]
    simp [received.fresh]
  fresh := sameId.trans received.fresh

theorem Received.same {current other : Database} {row : WebhookDelivery}
    (received : Received db current row)
    (deliveries : other.webhookDeliveries = current.webhookDeliveries) : Received db other row :=
  ⟨deliveries.trans received.deliveries, received.fresh⟩

/-- The row is linked to no job, or to a live one. -/
def LiveLink (jobs : List IndexingJob) (row : WebhookDelivery) : Prop :=
  ∀ id, row.indexingJobId = some id → ∃ job ∈ jobs, job.id = id ∧ live job = true

/-- The job that an event returns is a live one. -/
def LiveJob (jobs : List IndexingJob) (job : Option JobId) : Prop :=
  ∀ id, job = some id → ∃ stored ∈ jobs, stored.id = id ∧ live stored = true

/-- What an event leaves: one appended row, linked like the job it returns. -/
def Delivered (db : Database) (result : Option JobId × Database) : Prop :=
  ∃ row, Received db result.2 row ∧ LiveLink result.2.indexingJobs row ∧
    LiveJob result.2.indexingJobs result.1

theorem Delivered.unlinked {current : Database} {row : WebhookDelivery}
    (received : Received db current row) (unlinked : row.indexingJobId = none) :
    Delivered db (none, current) :=
  ⟨row, received, by simp [LiveLink, unlinked], by simp [LiveJob]⟩

theorem LiveJob.inserted (current : Database) {job : IndexingJob} (alive : live job = true) :
    LiveJob (insertJob current job).indexingJobs (some job.id) := by
  rintro _ ⟨⟩
  exact ⟨job, List.mem_append_right _ (.head _), rfl, alive⟩

theorem pushTo_delivered {current : Database} {row : WebhookDelivery}
    (received : Received db current row) (unlinked : row.indexingJobId = none) (now : Timestamp)
    (repository : Repository) (ref : String) (before after : CommitSha) (forced deleted : Bool) :
    Delivered db (pushTo current now (newDeliveryRow db) repository ref before after forced
      deleted) := by
  have noted := received.update (fun delivery => { delivery with
      repositoryId := some repository.id
      ref := some ref
      beforeCommitSha := some before
      afterCommitSha := some after }) rfl
  unfold pushTo
  dsimp only
  split
  · exact .unlinked (noted.update _ rfl) unlinked
  · split
    · exact .unlinked (noted.update _ rfl) unlinked
    · split
      · exact .unlinked ((noted.update _ rfl).same rfl) unlinked
      · split
        case h_1 existing found =>
            refine ⟨_, noted.update _ rfl, ?_, by simp [LiveJob]⟩
            rintro _ ⟨⟩
            have matched := List.find?_some found
            simp only [existingJob, Bool.and_eq_true] at matched
            exact ⟨existing, List.mem_of_find?_eq_some found, rfl, matched.2⟩
        case h_2 =>
            exact ⟨_, noted.same rfl, by simp [LiveLink, unlinked], .inserted _ rfl⟩

theorem applyPush_delivered {current : Database} {row : WebhookDelivery}
    (received : Received db current row) (unlinked : row.indexingJobId = none) (now : Timestamp)
    (githubInstallationId githubRepositoryId : Nat) (ref : String) (before after : CommitSha)
    (forced deleted : Bool) :
    Delivered db (applyPush current now (newDeliveryRow db) githubInstallationId
      githubRepositoryId ref before after forced deleted) := by
  unfold applyPush
  split
  · exact .unlinked (received.update _ rfl) unlinked
  · split
    · exact .unlinked (received.update _ rfl) unlinked
    · exact pushTo_delivered received unlinked now _ ref before after forced deleted

theorem applyRepositoryMetadata_delivered {current : Database} {row : WebhookDelivery}
    {now : Timestamp} {githubInstallationId : Nat} {external : GitHub.Repository}
    {result : Option JobId × Database} (received : Received db current row)
    (unlinked : row.indexingJobId = none)
    (applied : applyRepositoryMetadata current now (newDeliveryRow db) githubInstallationId
      external = some result) : Delivered db result := by
  unfold applyRepositoryMetadata at applied
  split at applied
  · cases applied
    exact .unlinked (received.update _ rfl) unlinked
  · split at applied
    · cases applied
      exact .unlinked (received.update _ rfl) unlinked
    case h_2 repository found =>
      dsimp only at applied
      simp only [Option.map_eq_some_iff] at applied
      obtain ⟨described, flushed, same⟩ := applied
      have noted := received.update (fun delivery => { delivery with
        repositoryId := some repository.id }) rfl
      have kept : Received db described _ := noted.same (by rw [flushRepositories_eq flushed]; rfl)
      split at same <;> cases same
      · exact ⟨_, kept.same rfl, by simp [LiveLink, unlinked], .inserted _ rfl⟩
      · exact .unlinked kept unlinked

theorem applyEvent_delivered {current : Database} {row : WebhookDelivery} {now : Timestamp}
    {event : WebhookEvent} {result : Option JobId × Database}
    (received : Received db current row) (unlinked : row.indexingJobId = none)
    (applied : applyEvent current now (newDeliveryRow db) event = some result) :
    Delivered db result := by
  cases event with
  | installation action external sender =>
      cases applied
      exact .unlinked (received.same (applyInstallation_deliveries _ _ _ _ _)) unlinked
  | repositoryAccess external added removed =>
      simp only [applyEvent, Option.map_eq_some_iff] at applied
      obtain ⟨accessed, accepted, rfl⟩ := applied
      exact .unlinked (received.same (applyRepositoryAccess_deliveries accepted)) unlinked
  | push githubInstallationId githubRepositoryId ref before after forced deleted =>
      rw [← Option.some.inj applied]
      exact applyPush_delivered received unlinked now githubInstallationId githubRepositoryId ref
        before after forced deleted
  | repositoryDeleted githubInstallationId external =>
      cases applied
      exact .unlinked (received.same (deleteRepository_deliveries _ _ _ _)) unlinked
  | repositoryMetadata githubInstallationId external =>
      exact applyRepositoryMetadata_delivered received unlinked applied
  | unsupported =>
      cases applied
      exact .unlinked (received.update _ rfl) unlinked

/-- A handled delivery is a duplicate, or one row linked to no job or to a live one. -/
theorem handle_deliveries {now : Timestamp} {deliveryId eventName : String}
    {payload : GitHub.WebhookPayload} {outcome : WebhookOutcome} {job : Option JobId}
    (handled : handle db now deliveryId eventName payload = some (outcome, job, stored)) :
    stored = db ∨ ∃ row, Received db stored row ∧ LiveLink stored.indexingJobs row := by
  unfold handle at handled
  split at handled
  · cases handled
  · split at handled
    · cases handled
      exact .inl rfl
    · simp only [Option.map_eq_some_iff] at handled
      obtain ⟨⟨created, applied⟩, event, same⟩ := handled
      cases same
      have received : Received db (receiveDelivery db now deliveryId eventName payload) _ :=
        ⟨rfl, rfl⟩
      obtain ⟨row, last, link, target⟩ := applyEvent_delivered received rfl event
      refine .inr ⟨settleDelivery now created row, last.update _ ?_, ?_⟩
      · unfold settleDelivery
        split
        · rfl
        · split <;> rfl
      · intro id linked
        unfold settleDelivery at linked
        split at linked
        case h_1 known =>
            cases linked
            exact target _ rfl
        case h_2 =>
            split at linked <;> exact link id linked

end Frames

end Codenaut.Services
