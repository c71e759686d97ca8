import Codenaut.Services.Deliveries
import Codenaut.Services.IndexingStatus

/-!
# Deliveries settled with their job

A delivery of an ended job has a terminal status, as long as each ending that
settles a single delivery finds at most one linked, and the queue refuses no
delivery whose job has ended.
-/

set_option autoImplicit false

namespace Codenaut.Services

open Codenaut.Core Codenaut.Db Codenaut.Indexing Codenaut.Relational

/-- Every delivery linked to an ended job has a terminal status. -/
def DeliveriesSettled (db : Database) : Prop :=
  ∀ delivery ∈ db.webhookDeliveries, ∀ job ∈ db.indexingJobs,
    delivery.indexingJobId = some job.id → job.status.terminal = true →
    delivery.status.terminal = true

def linkedDeliveries (db : Database) (jobId : JobId) : List WebhookDelivery :=
  db.webhookDeliveries.filter (·.indexingJobId == some jobId)

/-- The calls that end the job they hold and settle the first of its deliveries. -/
def StoreCall.settlesFirst (settings : Settings) (db : Database) (claimed : ClaimedJob)
    (workerId : WorkerId) : StoreCall → Prop
  | .markStale _ _ | .cancelRevoked => True
  | .activate commitSha =>
      ∃ job repository build, Activated db claimed workerId commitSha job repository build
  | .fail _ _ retryable => shouldRetry settings claimed retryable = false
  | _ => False

/-- Such a call finds at most one delivery linked, and no queue failure is
recorded for a delivery whose job has ended. -/
def settlesAll (settings : Settings) (db : Database) : Operation → Prop
  | .store claimed workerId call =>
      call.settlesFirst settings db claimed workerId →
        ∀ job ∈ db.indexingJobs, heldBy claimed workerId job = true →
          (linkedDeliveries db job.id).length ≤ 1
  | .recordQueueFailure deliveryRow =>
      ∀ delivery ∈ db.webhookDeliveries, delivery.id = deliveryRow →
        ∀ job ∈ db.indexingJobs, delivery.indexingJobId = some job.id →
          job.status.terminal = false
  | _ => True

/-! ## The invariant -/

structure DeliveriesOrdered (db : Database) : Prop where
  keys : UniqueKey (·.id) db.webhookDeliveries
  linked : ∀ delivery ∈ db.webhookDeliveries, ∀ id, delivery.indexingJobId = some id →
    ∃ job ∈ db.indexingJobs, job.id = id
  settled : DeliveriesSettled db

/-- The key and the link of a delivery row never change. -/
def SameLink (change : WebhookDelivery → WebhookDelivery) : Prop :=
  ∀ delivery, (change delivery).id = delivery.id ∧
    (change delivery).indexingJobId = delivery.indexingJobId

section Settlement

variable {db stored : Database}

/-- A statement on the deliveries that settles those of every ended job. -/
theorem DeliveriesOrdered.updated (ordered : DeliveriesOrdered db)
    (jobs : ∀ job ∈ db.indexingJobs, ∃ next ∈ stored.indexingJobs, next.id = job.id)
    {guard : WebhookDelivery → Bool} {change : WebhookDelivery → WebhookDelivery}
    (deliveries : stored.webhookDeliveries = updateWhere guard change db.webhookDeliveries)
    (same : SameLink change)
    (settles : ∀ delivery ∈ db.webhookDeliveries, ∀ job ∈ stored.indexingJobs,
      delivery.indexingJobId = some job.id → job.status.terminal = true →
      if guard delivery then (change delivery).status.terminal = true
      else delivery.status.terminal = true) : DeliveriesOrdered stored where
  keys := by
    rw [deliveries]
    exact ordered.keys.updateWhere fun delivery => (same delivery).1
  linked := by
    intro delivery member id link
    rw [deliveries] at member
    obtain ⟨prior, priorMember, rfl⟩ := mem_updateWhere.mp member
    have priorLink : prior.indexingJobId = some id := by
      split at link
      · exact (same prior).2.symm.trans link
      · exact link
    obtain ⟨job, jobMember, jobId⟩ := ordered.linked prior priorMember id priorLink
    obtain ⟨next, nextMember, nextId⟩ := jobs job jobMember
    exact ⟨next, nextMember, nextId.trans jobId⟩
  settled := by
    intro delivery member job jobMember link ended
    rw [deliveries] at member
    obtain ⟨prior, priorMember, rfl⟩ := mem_updateWhere.mp member
    have priorLink : prior.indexingJobId = some job.id := by
      split at link
      · exact (same prior).2.symm.trans link
      · exact link
    have settled := settles prior priorMember job jobMember priorLink ended
    split
    case isTrue matched => simpa [matched] using settled
    case isFalse unmatched => simpa [unmatched] using settled

/-- A transaction that leaves the deliveries and ends no job. -/
theorem DeliveriesOrdered.kept (ordered : DeliveriesOrdered db)
    (jobs : ∀ job ∈ db.indexingJobs, ∃ next ∈ stored.indexingJobs, next.id = job.id)
    (deliveries : stored.webhookDeliveries = db.webhookDeliveries)
    (ended : ∀ job ∈ stored.indexingJobs, job.status.terminal = true →
      (∃ prior ∈ db.indexingJobs, prior.id = job.id ∧ prior.status.terminal = true)) :
    DeliveriesOrdered stored where
  keys := deliveries ▸ ordered.keys
  linked := by
    intro delivery member id link
    rw [deliveries] at member
    obtain ⟨job, jobMember, jobId⟩ := ordered.linked delivery member id link
    obtain ⟨next, nextMember, nextId⟩ := jobs job jobMember
    exact ⟨next, nextMember, nextId.trans jobId⟩
  settled := by
    intro delivery member job jobMember link terminal
    rw [deliveries] at member
    obtain ⟨prior, priorMember, priorId, priorEnded⟩ := ended job jobMember terminal
    exact ordered.settled delivery member prior priorMember (priorId ▸ link) priorEnded

theorem updateFirstDelivery_found {jobId : JobId} {delivery : WebhookDelivery}
    (found : db.webhookDeliveries.find? (·.indexingJobId == some jobId) = some delivery)
    (change : WebhookDelivery → WebhookDelivery) :
    (db.updateFirstDelivery jobId change).webhookDeliveries =
      updateWhere (·.id == delivery.id) change db.webhookDeliveries := by
  simp [Database.updateFirstDelivery, found, Database.updateDeliveries]

theorem updateFirstDelivery_absent {jobId : JobId}
    (absent : db.webhookDeliveries.find? (·.indexingJobId == some jobId) = none)
    (change : WebhookDelivery → WebhookDelivery) :
    (db.updateFirstDelivery jobId change).webhookDeliveries = db.webhookDeliveries := by
  simp [Database.updateFirstDelivery, absent]

theorem updateFirstDelivery_jobs (db : Database) (jobId : JobId)
    (change : WebhookDelivery → WebhookDelivery) :
    (db.updateFirstDelivery jobId change).indexingJobs = db.indexingJobs := by
  unfold Database.updateFirstDelivery
  split <;> rfl

/-- Only the delivery table decides which delivery is updated. -/
theorem updateFirstDelivery_congr {base : Database}
    (same : base.webhookDeliveries = db.webhookDeliveries) (jobId : JobId)
    (change : WebhookDelivery → WebhookDelivery) :
    (base.updateFirstDelivery jobId change).webhookDeliveries =
      (db.updateFirstDelivery jobId change).webhookDeliveries := by
  unfold Database.updateFirstDelivery
  rw [same]
  split
  · exact same
  · simp only [Database.updateDeliveries, same]

/-- The deliveries of a job of which there is at most one. -/
theorem linked_unique {jobId : JobId} {left right : WebhookDelivery}
    (single : (linkedDeliveries db jobId).length ≤ 1) (leftMember : left ∈ db.webhookDeliveries)
    (rightMember : right ∈ db.webhookDeliveries) (leftLink : left.indexingJobId = some jobId)
    (rightLink : right.indexingJobId = some jobId) : left = right := by
  have leftIn : left ∈ linkedDeliveries db jobId := List.mem_filter.mpr ⟨leftMember, by simp [leftLink]⟩
  have rightIn : right ∈ linkedDeliveries db jobId :=
    List.mem_filter.mpr ⟨rightMember, by simp [rightLink]⟩
  cases whole : linkedDeliveries db jobId with
  | nil => simp [whole] at leftIn
  | cons only rest =>
      rw [whole] at single leftIn rightIn
      have alone : rest = [] := by simpa using single
      subst alone
      exact (List.mem_singleton.mp leftIn).trans (List.mem_singleton.mp rightIn).symm

/-- An ending that settles the first delivery of its job, or that only waits. -/
theorem DeliveriesOrdered.first {base : Database} {job : IndexingJob}
    {change : WebhookDelivery → WebhookDelivery} (ordered : DeliveriesOrdered db)
    (jobIds : UniqueKey (·.id) db.indexingJobs) (jobMember : job ∈ db.indexingJobs)
    {guard : IndexingJob → Bool} {jobChange : IndexingJob → IndexingJob}
    (jobs : base.indexingJobs = updateWhere guard jobChange db.indexingJobs)
    (rows : base.webhookDeliveries = db.webhookDeliveries)
    (only : ∀ other ∈ db.indexingJobs, guard other = true ↔ other = job)
    (sameId : ∀ row, (jobChange row).id = row.id) (same : SameLink change)
    (outcome : (jobChange job).status.terminal = false ∨
      (∀ delivery, (change delivery).status.terminal = true) ∧
        (linkedDeliveries db job.id).length ≤ 1) :
    DeliveriesOrdered (base.updateFirstDelivery job.id change) := by
  have deliveries := updateFirstDelivery_congr rows job.id change
  replace jobs := (updateFirstDelivery_jobs base job.id change).trans jobs
  generalize base.updateFirstDelivery job.id change = stored at deliveries jobs ⊢
  have successors : ∀ row ∈ db.indexingJobs, ∃ next ∈ stored.indexingJobs, next.id = row.id := by
    intro row member
    rw [jobs]
    refine ⟨_, mem_updateWhere.mpr ⟨row, member, rfl⟩, ?_⟩
    split
    · exact sameId row
    · rfl
  have origins : ∀ next ∈ stored.indexingJobs, next = jobChange job ∨
      (next ∈ db.indexingJobs ∧ next ≠ job) := by
    intro next member
    rw [jobs] at member
    obtain ⟨row, rowMember, rfl⟩ := mem_updateWhere.mp member
    split
    case isTrue matched => exact .inl (by rw [(only row rowMember).mp matched])
    case isFalse unmatched =>
        exact .inr ⟨rowMember, fun here => unmatched ((only row rowMember).mpr here)⟩
  cases found : db.webhookDeliveries.find? (·.indexingJobId == some job.id) with
  | none =>
      rw [updateFirstDelivery_absent found] at deliveries
      have unchanged : stored.webhookDeliveries =
          updateWhere (fun _ => false) change db.webhookDeliveries :=
        deliveries.trans (updateWhere_eq_self fun _ _ => rfl).symm
      refine ordered.updated successors unchanged same ?_
      intro other otherMember next nextMember otherLink ended
      rcases origins next nextMember with rfl | ⟨stored, _⟩
      · have unlinked := List.find?_eq_none.mp found other otherMember
        rw [sameId] at otherLink
        simp [otherLink] at unlinked
      · simpa using ordered.settled other otherMember next stored otherLink ended
  | some delivery =>
      rw [updateFirstDelivery_found found] at deliveries
      have member := List.mem_of_find?_eq_some found
      have link : delivery.indexingJobId = some job.id := by simpa using List.find?_some found
      refine ordered.updated successors deliveries same ?_
      intro other otherMember next nextMember otherLink ended
      rcases origins next nextMember with rfl | ⟨stored, apart⟩
      · rw [sameId] at otherLink
        rcases outcome with waiting | ⟨settles, single⟩
        · simp [waiting] at ended
        · rw [linked_unique single otherMember member otherLink link]
          simpa using settles delivery
      · have settled := ordered.settled other otherMember next stored otherLink ended
        have unmatched : (other.id == delivery.id) = false := by
          by_contra matched
          have equal := ordered.keys.row_eq otherMember member (by simpa using matched)
          rw [equal, link] at otherLink
          exact apart (jobIds.row_eq stored jobMember (Option.some.inj otherLink).symm)
        simpa [unmatched] using settled

/-! ## Transactions that end no job -/

theorem JobStep.terminal_before {cause : Cause} {old new : IndexingJob}
    (step : JobStep cause old new) (lasting : cause.ends = false)
    (ended : new.status.terminal = true) : old.status.terminal = true := by
  cases step with
  | kept _ claim => exact claim.status ▸ ended
  | claimed _ _ _ running => simp [running, IndexingJobStatus.terminal] at ended
  | targeted _ _ _ status => exact status ▸ ended
  | completed => cases lasting
  | cancelled => cases lasting
  | failed => cases lasting
  | recovered => cases lasting

/-- A job that is over was over before. -/
theorem ended_before {cause : Cause} {Fresh : IndexingJob → Prop}
    (jobs : Evolves (·.id) (JobStep cause) Fresh db.indexingJobs stored.indexingJobs)
    (lasting : cause.ends = false) (fresh : ∀ job, Fresh job → job.status = .queued)
    {job : IndexingJob} (member : job ∈ stored.indexingJobs)
    (ended : job.status.terminal = true) :
    ∃ prior ∈ db.indexingJobs, prior.id = job.id ∧ prior.status.terminal = true := by
  rcases jobs.origin member with ⟨prior, priorMember, step, same⟩ | new
  · exact ⟨prior, priorMember, same.symm, step.terminal_before lasting ended⟩
  · simp [fresh job new, IndexingJobStatus.terminal] at ended

theorem Effect.jobSuccessors {cause : Cause} (effect : Effect cause db stored) :
    ∀ job ∈ db.indexingJobs, ∃ next ∈ stored.indexingJobs, next.id = job.id := by
  intro job member
  obtain ⟨next, nextMember, _, same⟩ := effect.jobs.successor member
  exact ⟨next, nextMember, same⟩

theorem DeliveriesOrdered.lasting {cause : Cause} (ordered : DeliveriesOrdered db)
    (effect : Effect cause db stored) (lasting : cause.ends = false)
    (deliveries : stored.webhookDeliveries = db.webhookDeliveries) : DeliveriesOrdered stored :=
  ordered.kept effect.jobSuccessors deliveries fun _ member ended =>
    ended_before effect.jobs lasting (fun _ fresh => fresh.2.queued) member ended

theorem claim_ordered (ordered : DeliveriesOrdered db)
    (jobIds : UniqueKey (·.id) db.indexingJobs) (now : Timestamp) (jobId : JobId)
    (workerId : WorkerId) : DeliveriesOrdered (claim db now jobId workerId).2 := by
  have effect := (claim_effect db now jobId workerId).effect
  unfold claim at effect ⊢
  split
  · exact ordered
  case h_2 job found =>
    split
    · exact ordered
    case isFalse alone =>
      simp only [found, alone] at effect
      have member := List.mem_of_find?_eq_some found
      have matched := List.find?_some found
      refine ordered.updated effect.jobSuccessors rfl (fun _ => ⟨rfl, rfl⟩) ?_
      intro delivery deliveryMember next nextMember link ended
      obtain ⟨prior, priorMember, rfl⟩ := mem_updateWhere.mp nextMember
      split at ended
      case isTrue => simp [claimValues, IndexingJobStatus.terminal] at ended
      case isFalse unmatched =>
          rw [if_neg unmatched] at link
          have settled := ordered.settled delivery deliveryMember prior priorMember link ended
          have other : (delivery.indexingJobId == some job.id) = false := by
            by_contra same
            have here : some prior.id = some job.id := by
              rw [← link]
              simpa using same
            have equal := jobIds.row_eq priorMember member (Option.some.inj here)
            exact unmatched (equal ▸ matched)
          simpa [other] using settled

/-! ## Endings -/

/-- The held job is the only one that the guard of its claim selects. -/
theorem heldBy_only (jobIds : UniqueKey (·.id) db.indexingJobs) {claimed : ClaimedJob}
    {workerId : WorkerId} {job : IndexingJob}
    (found : db.indexingJobs.find? (heldBy claimed workerId) = some job) :
    ∀ other ∈ db.indexingJobs, heldBy claimed workerId other = true ↔ other = job := by
  obtain ⟨member, held⟩ := held_of_find found
  intro other otherMember
  constructor
  · intro also
    exact jobIds.row_eq otherMember member
      ((heldBy_iff.mp also).1.trans (heldBy_iff.mp held).1.symm)
  · rintro rfl
    exact held

theorem markStale_ordered (ordered : DeliveriesOrdered db)
    (jobIds : UniqueKey (·.id) db.indexingJobs) (now : Timestamp) (claimed : ClaimedJob)
    (workerId : WorkerId) (code : String) (superseded : Bool)
    (single : ∀ job ∈ db.indexingJobs, heldBy claimed workerId job = true →
      (linkedDeliveries db job.id).length ≤ 1) :
    DeliveriesOrdered (markStale db now claimed workerId code superseded) := by
  unfold markStale
  split
  · exact ordered
  case h_2 job found =>
    obtain ⟨member, held⟩ := held_of_find found
    refine ordered.first jobIds member rfl rfl (heldBy_only jobIds found)
      (fun _ => rfl) (fun _ => ⟨rfl, rfl⟩) (.inr ⟨?_, single job member held⟩)
    intro delivery
    cases superseded <;> rfl

theorem cancelRevoked_ordered (ordered : DeliveriesOrdered db)
    (jobIds : UniqueKey (·.id) db.indexingJobs) (now : Timestamp) (claimed : ClaimedJob)
    (workerId : WorkerId)
    (single : ∀ job ∈ db.indexingJobs, heldBy claimed workerId job = true →
      (linkedDeliveries db job.id).length ≤ 1) :
    DeliveriesOrdered (cancelRevoked db now claimed workerId) := by
  unfold cancelRevoked
  split
  · exact ordered
  case h_2 job found =>
    obtain ⟨member, held⟩ := held_of_find found
    rw [← (heldBy_iff.mp held).1]
    exact ordered.first jobIds member rfl rfl (heldBy_only jobIds found)
      (fun _ => rfl) (fun _ => ⟨rfl, rfl⟩) (.inr ⟨fun _ => rfl, single job member held⟩)

theorem fail_ordered (ordered : DeliveriesOrdered db)
    (jobIds : UniqueKey (·.id) db.indexingJobs) (settings : Settings) (now : Timestamp)
    (jitter : Nat) (claimed : ClaimedJob) (workerId : WorkerId) (code safeMessage : String)
    (retryable : Bool)
    (single : shouldRetry settings claimed retryable = false →
      ∀ job ∈ db.indexingJobs, heldBy claimed workerId job = true →
        (linkedDeliveries db job.id).length ≤ 1) :
    DeliveriesOrdered
      (fail settings db now jitter claimed workerId code safeMessage retryable).2 := by
  unfold fail
  dsimp only
  split
  · exact ordered
  case h_2 job found =>
    obtain ⟨member, held⟩ := held_of_find found
    rw [← (heldBy_iff.mp held).1]
    refine ordered.first jobIds member rfl rfl (heldBy_only jobIds found)
      (fun _ => rfl) (fun _ => ⟨rfl, rfl⟩) ?_
    cases retry : shouldRetry settings claimed retryable with
    | true => exact .inl rfl
    | false => exact .inr ⟨fun _ => rfl, single retry job member held⟩

theorem activate_ordered {now : Timestamp} {claimed : ClaimedJob} {workerId : WorkerId}
    {commitSha : CommitSha} {previous : Nat} (ordered : DeliveriesOrdered db)
    (jobIds : UniqueKey (·.id) db.indexingJobs)
    (single : (∃ job repository build,
        Activated db claimed workerId commitSha job repository build) →
      ∀ job ∈ db.indexingJobs, heldBy claimed workerId job = true →
        (linkedDeliveries db job.id).length ≤ 1)
    (success : activate db now claimed workerId commitSha = .ok (previous, stored)) :
    DeliveriesOrdered stored := by
  obtain ⟨job, repository, build, guards, _, rfl⟩ := activate_stored success
  obtain ⟨member, held⟩ := held_of_find guards.found
  have frame : (activatedBuilds db now claimed repository commitSha).indexingJobs =
        db.indexingJobs ∧
      (activatedBuilds db now claimed repository commitSha).webhookDeliveries =
        db.webhookDeliveries := by
    unfold activatedBuilds supersedePrevious
    split <;> exact ⟨rfl, rfl⟩
  have jobs : (activatedDatabase db now claimed job repository commitSha build).indexingJobs =
      updateWhere (·.id == job.id) (completedJob now commitSha) db.indexingJobs := by
    simp only [activatedDatabase, Database.updateJobs, Database.updateRepositories, frame.1]
  refine ordered.first jobIds member jobs frame.2 ?_ (fun _ => rfl) (fun _ => ⟨rfl, rfl⟩)
    (.inr ⟨fun _ => rfl, single ⟨job, repository, build, guards⟩ job member held⟩)
  intro other otherMember
  constructor
  · exact fun same => jobIds.row_eq otherMember member (by simpa using same)
  · rintro rfl
    simp

/-- One recovered job takes all its deliveries with it. -/
theorem recoverJob_ordered (ordered : DeliveriesOrdered db)
    (jobIds : UniqueKey (·.id) db.indexingJobs) (settings : Settings) (now : Timestamp)
    {job : IndexingJob} (member : job ∈ db.indexingJobs) :
    DeliveriesOrdered (recoverJob settings now db job) := by
  unfold recoverJob
  refine ordered.updated ?_ rfl (fun _ => ⟨rfl, rfl⟩) ?_
  · intro row rowMember
    refine ⟨_, mem_updateWhere.mpr ⟨row, rowMember, rfl⟩, ?_⟩
    split <;> rfl
  · intro delivery deliveryMember next nextMember link ended
    obtain ⟨prior, priorMember, rfl⟩ := mem_updateWhere.mp nextMember
    split at ended
    case isTrue here =>
        rw [if_pos here] at link
        have equal := jobIds.row_eq priorMember member (by simpa using here)
        subst equal
        have linked : delivery.indexingJobId = some prior.id := link
        have exhausted : ¬ prior.attempt < settings.workerMaxAttempts := by
          intro retry
          simp [recoveredJob, retry, IndexingJobStatus.terminal] at ended
        simp [linked, exhausted, WebhookDeliveryStatus.terminal]
    case isFalse away =>
        rw [if_neg away] at link
        have settled := ordered.settled delivery deliveryMember prior priorMember link ended
        have other : (delivery.indexingJobId == some job.id) = false := by
          rw [link]
          simpa using away
        simpa [other] using settled

theorem recoverJobs_ordered (settings : Settings) (now : Timestamp) (jobs : List IndexingJob)
    {db : Database} (ordered : DeliveriesOrdered db)
    (jobIds : UniqueKey (·.id) db.indexingJobs) (distinct : (jobs.map (·.id)).Nodup)
    (members : ∀ job ∈ jobs, job ∈ db.indexingJobs) :
    DeliveriesOrdered (jobs.foldl (recoverJob settings now) db) := by
  induction jobs generalizing db with
  | nil => exact ordered
  | cons job rest ih =>
      obtain ⟨fresh, later⟩ := List.nodup_cons.mp distinct
      refine ih (recoverJob_ordered ordered jobIds settings now (members job (.head _)))
        (jobIds.updateWhere fun _ => rfl) later ?_
      intro other otherMember
      refine mem_updateWhere.mpr ⟨other, members other (.tail _ otherMember), if_neg ?_⟩
      intro same
      exact fresh (List.mem_map.mpr ⟨other, otherMember, by simpa using same⟩)

/-! ## Any transaction -/

/-- The store calls that leave the delivery table alone. -/
theorem StoreCall.deliveries_kept {settings : Settings} {platform : Platform} {moment : Moment}
    {claimed : ClaimedJob} {workerId : WorkerId} {call : StoreCall} {reply : call.Reply}
    (lasting : (call.cause claimed workerId).ends = false)
    (success : call.transact settings platform moment claimed workerId db = .ok (reply, stored)) :
    stored.webhookDeliveries = db.webhookDeliveries := by
  cases call with
  | authorizedContext =>
      have answered := congrArg Prod.snd (Except.ok.inj success)
      dsimp only at answered
      rw [← answered]
      unfold Services.authorizedContext
      split
      · rfl
      · split
        · rfl
        · dsimp only
          split <;> rfl
  | revokePublicAccess | heartbeat | isCurrent | recordFreshnessPlan | canCleanupInactive =>
      cases success
      rfl
  | stage status stageName progress commitSha =>
      cases success
      unfold Services.stage
      split <;> rfl
  | prepareBuild commitSha discovery processing fingerprint =>
      obtain ⟨_, prepared, answer⟩ := map_ok success
      cases answer
      obtain ⟨job, repository, _, rfl⟩ := prepareBuild_ok prepared
      unfold preparedDatabase clearedForBuild
      rw [storeBuild_eq]
      rfl
  | validateGraph =>
      obtain ⟨_, validated, answer⟩ := map_ok success
      cases answer
      obtain ⟨job, target, build, _, _, _, rfl⟩ := validateGraph_ok validated
      rfl
  | recordVectorCounts =>
      obtain ⟨_, recorded, answer⟩ := map_ok success
      cases answer
      obtain ⟨job, target, _, _, rfl⟩ := recordVectorCounts_ok recorded
      rfl
  | markBuildReady =>
      obtain ⟨_, ready, answer⟩ := map_ok success
      cases answer
      obtain ⟨job, target, _, rfl⟩ := markBuildReady_ok ready
      rfl
  | recordFailedBuildCleanup repositoryId indexVersion cleanupComplete =>
      cases success
      unfold Services.recordFailedBuildCleanup
      dsimp only
      split
      · rfl
      · split <;> rfl
  | completeSupersededCleanup =>
      obtain ⟨_, cleaned, answer⟩ := map_ok success
      cases answer
      rw [completeSupersededCleanup_ok cleaned]
      rfl
  | markStale | activate | cancelRevoked | fail => cases lasting

theorem StoreCall.transact_ordered {settings : Settings} {platform : Platform} {moment : Moment}
    {claimed : ClaimedJob} {workerId : WorkerId} {call : StoreCall} {reply : call.Reply}
    (ordered : DeliveriesOrdered db) (jobIds : UniqueKey (·.id) db.indexingJobs)
    (repositoryIds : UniqueKey (·.id) db.repositories)
    (settles : settlesAll settings db (.store claimed workerId call))
    (success : call.transact settings platform moment claimed workerId db = .ok (reply, stored)) :
    DeliveriesOrdered stored := by
  cases lasting : (call.cause claimed workerId).ends with
  | false =>
      exact ordered.lasting (transact_effect jobIds repositoryIds success).effect lasting
        (deliveries_kept lasting success)
  | true =>
      cases call with
      | markStale code superseded =>
          cases success
          exact markStale_ordered ordered jobIds moment.now claimed workerId code superseded
            (settles trivial)
      | activate commitSha => exact activate_ordered ordered jobIds settles success
      | cancelRevoked =>
          cases success
          exact cancelRevoked_ordered ordered jobIds moment.now claimed workerId (settles trivial)
      | fail code safeMessage retryable =>
          have kept := fail_ordered ordered jobIds settings moment.now moment.jitter claimed
            workerId code safeMessage retryable settles
          rw [Except.ok.inj success] at kept
          exact kept
      | _ => cases lasting

theorem handle_ordered {now : Timestamp} {deliveryId eventName : String}
    {payload : GitHub.WebhookPayload} {outcome : WebhookOutcome} {job : Option JobId}
    (ordered : DeliveriesOrdered db) (jobIds : UniqueKey (·.id) db.indexingJobs)
    (handled : handle db now deliveryId eventName payload = some (outcome, job, stored)) :
    DeliveriesOrdered stored := by
  have effect := (handle_effect handled).effect
  rcases handle_deliveries handled with rfl | ⟨row, received, links⟩
  · exact ordered
  have storedIds := effect.jobs.keys jobIds
  have cases_of : ∀ delivery ∈ stored.webhookDeliveries,
      delivery ∈ db.webhookDeliveries ∨ delivery = row := by
    intro delivery member
    rw [received.deliveries] at member
    exact (List.mem_append.mp member).imp_right List.mem_singleton.mp
  refine ⟨?_, ?_, ?_⟩
  · rw [received.deliveries]
    refine ordered.keys.insert fun delivery member => ?_
    rw [received.fresh]
    exact newDeliveryRow_absent db delivery member
  · intro delivery member id link
    rcases cases_of delivery member with old | rfl
    · obtain ⟨job, jobMember, jobId⟩ := ordered.linked delivery old id link
      obtain ⟨next, nextMember, nextId⟩ := effect.jobSuccessors job jobMember
      exact ⟨next, nextMember, nextId.trans jobId⟩
    · obtain ⟨job, jobMember, jobId, _⟩ := links id link
      exact ⟨job, jobMember, jobId⟩
  · intro delivery member job jobMember link ended
    rcases cases_of delivery member with old | rfl
    · obtain ⟨prior, priorMember, priorId, priorEnded⟩ :=
        ended_before effect.jobs rfl (fun _ fresh => fresh.2.queued) jobMember ended
      exact ordered.settled delivery old prior priorMember (priorId ▸ link) priorEnded
    · obtain ⟨target, targetMember, targetId, alive⟩ := links job.id link
      have equal := storedIds.row_eq targetMember jobMember targetId
      subst equal
      simp [live_eq, ended] at alive

theorem recordQueueFailure_ordered (ordered : DeliveriesOrdered db) (deliveryRow : DeliveryRowId)
    (waiting : ∀ delivery ∈ db.webhookDeliveries, delivery.id = deliveryRow →
      ∀ job ∈ db.indexingJobs, delivery.indexingJobId = some job.id →
        job.status.terminal = false) :
    DeliveriesOrdered (recordQueueFailure db deliveryRow) := by
  refine ordered.updated (fun job member => ⟨job, member, rfl⟩) rfl (fun _ => ⟨rfl, rfl⟩) ?_
  intro delivery member job jobMember link ended
  have other : (delivery.id == deliveryRow) = false := by
    by_contra same
    simp [waiting delivery member (by simpa using same) job jobMember link] at ended
  simpa [other] using ordered.settled delivery member job jobMember link ended

/-- The transactions that write delivery rows. -/
def Operation.writesDeliveries : Operation → Bool
  | .claim _ _ | .recoverAbandoned | .handle _ _ _ | .recordQueueFailure _ => true
  | .store claimed workerId call => (call.cause claimed workerId).ends
  | _ => false

theorem Operation.deliveries_kept (settings : Settings) (platform : Platform) (moment : Moment)
    (db : Database) {operation : Operation} (silent : operation.writesDeliveries = false) :
    (operation.apply settings platform moment db).webhookDeliveries = db.webhookDeliveries := by
  cases operation with
  | claim | recoverAbandoned | handle | recordQueueFailure => cases silent
  | markEnqueued | recordEnqueued | revokePublic => rfl
  | store claimed workerId call =>
      simp only [Operation.apply, StoreCall.apply]
      split
      case h_1 stored success => exact StoreCall.deliveries_kept silent success
      case h_2 => rfl
  | synchronizeRepositories userId installationId externals =>
      simp only [Operation.apply]
      cases synchronized : Services.synchronizeRepositories settings db moment.now userId
          installationId externals with
      | none => rfl
      | some stored => exact synchronizeRepositories_deliveries synchronized
  | revalidatePublic userId repositoryId answer =>
      exact revalidatePublic_deliveries db moment.now userId repositoryId answer
  | selectRepository userId installationId repositoryId =>
      simp only [Operation.apply]
      cases selected : Services.selectRepository settings db moment.now userId installationId
          repositoryId with
      | none => rfl
      | some result => exact selectRepository_deliveries selected
  | reindex userId repositoryId =>
      simp only [Operation.apply]
      cases reindexed : Services.reindex db moment.now userId repositoryId with
      | none => rfl
      | some result => exact reindex_deliveries reindexed
  | attach userId metadata expectedRepositoryId manual =>
      simp only [Operation.apply]
      cases accepted : Services.attach settings db moment.now userId metadata
          expectedRepositoryId manual with
      | none => rfl
      | some result => exact attach_deliveries accepted
  | githubLogin resolved githubUser installations =>
      exact synchronizeGithubLogin_deliveries db moment.now resolved githubUser installations
  | googleLogin resolved =>
      simp only [Operation.apply, synchronizeGoogleLogin]
      split <;> rfl

theorem DeliveriesOrdered.apply (ordered : DeliveriesOrdered db) (consistent : Consistent db)
    (settings : Settings) (platform : Platform) (moment : Moment) {operation : Operation}
    (settles : settlesAll settings db operation) :
    DeliveriesOrdered (operation.apply settings platform moment db) := by
  have effect := operation.effect settings platform moment consistent.jobIds
    consistent.repositoryIds
  cases operation with
  | claim jobId workerId => exact claim_ordered ordered consistent.jobIds moment.now jobId workerId
  | store claimed workerId call =>
      simp only [Operation.apply, StoreCall.apply]
      split
      case h_1 stored success =>
          exact StoreCall.transact_ordered ordered consistent.jobIds consistent.repositoryIds
            settles success
      case h_2 => exact ordered
  | recoverAbandoned =>
      refine recoverJobs_ordered settings moment.now _ ordered consistent.jobIds ?_ ?_
      · exact consistent.jobIds.sublist (List.filter_sublist.map _)
      · exact fun job member => (List.mem_filter.mp member).1
  | handle deliveryId eventName payload =>
      simp only [Operation.apply]
      cases handled : Services.handle db moment.now deliveryId eventName payload with
      | none => exact ordered
      | some result => exact handle_ordered ordered consistent.jobIds handled
  | recordQueueFailure deliveryRow => exact recordQueueFailure_ordered ordered deliveryRow settles
  | _ =>
      exact ordered.lasting effect rfl
        (Operation.deliveries_kept settings platform moment db rfl)

end Settlement

/-- In every run whose endings settle all deliveries of their jobs, every
delivery of an ended job is settled. -/
theorem Journal.Path.settled {settings : Settings} {platform : Platform} {journal : Journal}
    (path : Journal.Path settings platform (settlesAll settings) { database := {} } journal) :
    DeliveriesSettled journal.database := by
  have ordered : DeliveriesOrdered journal.database := by
    induction path with
    | refl => exact ⟨.nil, by simp, by simp [DeliveriesSettled]⟩
    | tail prior moves ih =>
        obtain ⟨moment, operation, _, settles, rfl⟩ := moves
        have consistent := (Journal.Path.reachable .start prior).consistent
        exact ih.apply consistent settings platform moment settles
  exact ordered.settled

end Codenaut.Services
