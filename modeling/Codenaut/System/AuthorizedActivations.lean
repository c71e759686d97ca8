import Codenaut.System.DisplacedWorkers
import Codenaut.System.Holders

/-!
# Activations and access

A worker authorizes its job a second time and then activates the index in a
transaction of its own, which reads none of the access columns. What keeps the
activation authorized is that no withdrawal of access lands in between.
-/

set_option autoImplicit false

namespace Codenaut.System

open Codenaut.ActiveIndex Codenaut.Core Codenaut.Db Codenaut.Indexing Codenaut.Relational
open Codenaut.Services

/-- Durable access to a stored repository. -/
def accessible (db : Database) (repositoryId : RepositoryId) : Bool :=
  (db.repository? repositoryId).any fun row =>
    accessGranted row (row.installationId.bind db.installation?)

/-- The rows that an activation read were neither revoked, suspended nor deleted. -/
structure AccessHeld (activation : Activation) : Prop where
  unrevoked : activation.repository.accessRevokedAt = none
  undeleted : activation.repository.deletedAt = none
  installation : ∀ installation, activation.installation = some installation →
    installation.status = .active ∧ installation.deletedAt = none

namespace World

/-- A run of the repository holds its claim and was authorized a second time:
its next transaction may activate. -/
def Activating (world : World) (repositoryId : RepositoryId) : Prop :=
  ∃ workerId run, world.runs workerId = some run ∧ run.claimed.repositoryId = repositoryId ∧
    run.view.confirmed = true ∧ holdsClaim world.journal.database workerId run.claimed = true

/-- The transaction of an action ends the access to a repository. -/
def withdraws (settings : Settings) (platform : Platform) (world : World) (action : Action)
    (repositoryId : RepositoryId) : Prop :=
  accessible world.journal.database repositoryId = true ∧
    accessible (world.step settings platform action).journal.database repositoryId = false

/-- No repository whose activation is pending loses its access. -/
def sparesActivating (settings : Settings) (platform : Platform) (world : World)
    (action : Action) : Prop :=
  ∀ repositoryId, world.Activating repositoryId →
    ¬ world.withdraws settings platform action repositoryId

end World

/-! ## Access at the second authorization -/

section Access

variable {settings : Settings} {platform : Platform} {world : World}

/-- A context is only answered for an accessible repository. -/
theorem accessible_of_authorized {db stored : Database} {now : Timestamp} {claimed : ClaimedJob}
    {context : JobContext} (jobIds : UniqueKey (·.id) db.indexingJobs)
    (owner : ∃ job ∈ db.indexingJobs, job.id = claimed.id ∧
      job.repositoryId = claimed.repositoryId)
    (success : authorizedContext settings db now claimed = (some context, stored)) :
    accessible stored claimed.repositoryId = true := by
  obtain ⟨job, repository, authorized⟩ := authorizedContext_some success
  obtain ⟨claimedJob, member, sameJob, sameOwner⟩ := owner
  obtain rfl := jobIds.row_eq member authorized.member (sameJob.trans authorized.sameJob.symm)
  have located := authorized.located
  rw [sameOwner] at located
  have same : accessible stored claimed.repositoryId = accessible db claimed.repositoryId := by
    rw [authorized.stored]
    rfl
  rw [same]
  simp [accessible, located, authorized.access]

/-- The row that an activation read is the one that `accessible` reads. -/
theorem accessHeld_of_accessible {journal after : Journal} {operation : Operation}
    {activation : Activation} {claimed : ClaimedJob} {workerId : WorkerId}
    {build : RepositoryIndexBuild} {now : Timestamp} (consistent : Consistent journal.database)
    (committed : CommittedActivation journal after operation activation claimed workerId build now)
    (granted : accessible journal.database activation.job.repositoryId = true) :
    AccessHeld activation := by
  have located := committed.guards.located
  simp only [accessible, located, Option.any_some, accessGranted, Bool.and_eq_true,
    Option.isNone_iff_eq_none] at granted
  obtain ⟨⟨unrevoked, undeleted⟩, active⟩ := granted
  refine ⟨unrevoked, undeleted, ?_⟩
  intro installation read
  rw [committed.installation] at read
  rcases consistent.installationOwners activation.repository (repository?_mem located).1 with
    ⟨_, shared⟩ | ⟨mode, _⟩
  · simp [shared] at read
  · simpa [mode, read] using active

/-! ## Every step -/

/-- Pending activations have access, and so had those that were committed. -/
structure ActivationsHeld (world : World) : Prop where
  pending : ∀ repositoryId, world.Activating repositoryId →
    accessible world.journal.database repositoryId = true
  past : ∀ activation ∈ world.journal.history.activations, AccessHeld activation

/-- A pending activation was pending before, or was authorized by this step. -/
theorem World.Activating.before (sound : WorldSound settings platform world) {action : Action}
    {repositoryId : RepositoryId}
    (activating : (world.step settings platform action).Activating repositoryId) :
    world.Activating repositoryId ∨
      accessible (world.step settings platform action).journal.database repositoryId = true := by
  obtain ⟨workerId, run, live, rfl, confirmed, held⟩ := activating
  have holds : Holds (world.step settings platform action) workerId run := ⟨live, held⟩
  cases step_runs live with
  | kept before =>
      exact .inl ⟨workerId, run, before, rfl, confirmed, (holds.before sound before rfl).held⟩
  | started => cases confirmed
  | advanced before asks =>
      rename_i outside earlier request next
      have stays : earlier.view.confirmed = true → world.Activating earlier.claimed.repositoryId :=
        fun already =>
          ⟨workerId, earlier, before, rfl, already, (holds.before sound before rfl).held⟩
      simp only [Run.advance] at confirmed ⊢
      generalize replied : world.reply settings platform workerId earlier.claimed outside request =
        reply at confirmed
      have learned := earlier.view.learned request reply
      generalize earlier.view.learn request reply = learnt at learned confirmed
      cases learned with
      | authorized answer =>
          cases answer with
          | none => exact .inl (stays confirmed)
          | some context =>
              obtain ⟨stored, success, _, database⟩ := step_answered before asks replied
              right
              rw [database]
              exact accessible_of_authorized sound.journal.consistent.jobIds
                (sound.runs workerId earlier before).job (Except.ok.inj success)
      | _ => exact .inl (stays confirmed)

/-- Only a run that was authorized a second time and holds its claim activates. -/
theorem accessHeld_of_committed (sound : WorldSound settings platform world)
    (held : ActivationsHeld world) {entry : Transaction} {action : Action}
    (issued : Issued world action entry) {after : Journal} {activation : Activation}
    {claimed : ClaimedJob} {workerId : WorkerId} {build : RepositoryIndexBuild} {now : Timestamp}
    (committed : CommittedActivation world.journal after entry.operation activation claimed
      workerId build now) : AccessHeld activation := by
  have consistent := sound.journal.consistent
  have activates := committed.operation
  cases issued with
  | served outsideRuns =>
      subst activates
      cases outsideRuns
  | claimed => cases activates
  | beat => cases activates
  | asked live asks =>
      rename_i worker outside run call next committedCall
      cases activates
      have runSound := sound.runs _ run live
      have found := held_of_find committed.guards.found
      obtain ⟨_, _, _, confirmed⟩ := runSound.allowed asks
      obtain ⟨job, member, sameJob, owner⟩ := runSound.job
      have same := consistent.jobIds.row_eq member found.1
        (sameJob.trans (heldBy_iff.mp found.2).1.symm)
      refine accessHeld_of_accessible consistent committed ?_
      rw [← same, owner]
      exact held.pending _ ⟨_, run, live, rfl, confirmed,
        List.any_eq_true.mpr ⟨activation.job, found⟩⟩

theorem ActivationsHeld.step (sound : WorldSound settings platform world)
    (held : ActivationsHeld world) {action : Action}
    (spares : world.sparesActivating settings platform action) :
    ActivationsHeld (world.step settings platform action) where
  pending := by
    intro repositoryId activating
    rcases activating.before sound with before | granted
    · have unwithdrawn := spares repositoryId before
      simpa [World.withdraws, held.pending repositoryId before] using unwithdrawn
    · exact granted
  past := by
    intro activation member
    rcases step_journal settings platform world action with idle | ⟨entry, issued, applied⟩
    · rw [idle] at member
      exact held.past activation member
    · rw [applied] at member
      rcases apply_cases settings platform sound.journal.consistent entry.moment
          entry.operation with ⟨newest, claimed, workerId, build, committed⟩ | unactivated
      · rw [committed.recorded] at member
        cases member with
        | head => exact accessHeld_of_committed sound held issued committed
        | tail _ earlier => exact held.past activation earlier
      · rw [unactivated.activations] at member
        exact held.past activation member

theorem ActivationsHeld.start : ActivationsHeld {} where
  pending := by
    rintro repositoryId ⟨workerId, run, live, _⟩
    simp at live
  past := by simp

end Access

/-- In every interleaving that withdraws no access between a run's second
authorization and the end of its claim, every committed activation found its
repository and installation neither revoked, suspended nor deleted. -/
theorem spared_activations_authorized {settings : Settings} {platform : Platform} {world : World}
    (path : World.Path settings platform (World.sparesActivating settings platform) {} world) :
    ∀ activation ∈ world.journal.history.activations, AccessHeld activation := by
  have kept : WorldSound settings platform world ∧ ActivationsHeld world := by
    induction path with
    | refl => exact ⟨.start settings platform, .start⟩
    | tail _ moves ih =>
        obtain ⟨action, spares, rfl⟩ := moves
        exact ⟨ih.1.step action, ih.2.step ih.1 spares⟩
  exact kept.2.past

/-! ## Runs of a list of actions -/

namespace World

variable {settings : Settings} {platform : Platform} {world : World} {action : Action}

/-- The step keeps the access to every stored repository. -/
def keepsAccess (settings : Settings) (platform : Platform) (world : World) (action : Action) :
    Bool :=
  world.journal.database.repositories.all fun row =>
    !accessible world.journal.database row.id ||
      accessible (world.step settings platform action).journal.database row.id

theorem sparesActivating_of_keepsAccess
    (keeps : world.keepsAccess settings platform action = true) :
    world.sparesActivating settings platform action := by
  rintro repositoryId _ ⟨granted, lost⟩
  obtain ⟨row, located, _⟩ := (Option.any_eq_true _ _).mp granted
  obtain ⟨member, rfl⟩ := repository?_mem located
  have kept := List.all_eq_true.mp keeps row member
  simp [granted, lost] at kept

/-- Without a RUNNING job no activation is pending. -/
theorem sparesActivating_of_idle
    (idle : ∀ job ∈ world.journal.database.indexingJobs, job.status ≠ .running) :
    world.sparesActivating settings platform action := by
  rintro repositoryId ⟨workerId, run, _, _, _, held⟩
  obtain ⟨job, member, _, running, _⟩ := holdsClaim_iff.mp held
  exact (idle job member running).elim

end World

namespace Onboarding

/-- Every outside call of the run succeeds. -/
def succeeding (now : Timestamp) : Outside where
  moment := { now }
  reply
    | .embedDocuments _ => .ok ∅
    | request => (analysed now).reply request

/-- The steps of a claimed run up to its second authorization. -/
def confirmation (now : Timestamp) : List Action :=
  List.replicate 28 (.work "worker" (succeeding now))

/-- The stage report and the activation. -/
def activation (now : Timestamp) : List Action :=
  List.replicate 2 (.work "worker" (succeeding now))

/-- The owner takes the repository out of the installation. -/
def removal (now : Timestamp) : Action :=
  .serve { now } (.handle "removal" "installation_repositories"
    { action := some "removed"
      installation := some Services.Onboarding.installation
      repositoriesRemoved := [21] }) rfl

/-- The removal lands between the second authorization and the activation. -/
def overtakenByRemoval : World :=
  claimed.run Services.Onboarding.settings Services.Onboarding.platform
    (confirmation 1 ++ [removal 2] ++ activation 3)

/-- The run of the first job without a removal. -/
def authorizedRun : List Action :=
  selection 0 ++ [.claim { now := 0 } "worker" 1] ++ confirmation 1 ++ activation 3

def activated : World :=
  World.run Services.Onboarding.settings Services.Onboarding.platform {} authorizedRun

/-- The access columns that each activation read. -/
def revocations (world : World) : List (RepositoryId × Option Timestamp) :=
  world.journal.history.activations.map fun activation =>
    (activation.repository.id, activation.repository.accessRevokedAt)

end Onboarding

open Onboarding in
set_option maxRecDepth 100000 in
/-- The removed repository gets its index activated. -/
theorem removed_repository_activated :
    World.Reachable Services.Onboarding.settings Services.Onboarding.platform
      overtakenByRemoval ∧
    revocations overtakenByRemoval = [(1, some 2)] ∧
    ¬ ∀ activation ∈ overtakenByRemoval.journal.history.activations, AccessHeld activation := by
  have revoked : revocations overtakenByRemoval = [(1, some 2)] := by decide
  refine ⟨claimed_reachable.run _, revoked, ?_⟩
  intro held
  have member : (1, some 2) ∈ revocations overtakenByRemoval := by simp [revoked]
  obtain ⟨activation, activated, same⟩ := List.mem_map.mp member
  simp [(held activation activated).unrevoked] at same

open Onboarding in
set_option maxRecDepth 100000 in
/-- A removal that lands after the activation withdraws access too late to matter. -/
theorem activation_before_removal :
    revocations (activated.step Services.Onboarding.settings Services.Onboarding.platform
      (removal 4)) = [(1, none)] ∧
    ∀ activation ∈ (activated.step Services.Onboarding.settings Services.Onboarding.platform
      (removal 4)).journal.history.activations, AccessHeld activation := by
  have keeping : World.Meets Services.Onboarding.settings Services.Onboarding.platform
      (fun world action => world.keepsAccess Services.Onboarding.settings
        Services.Onboarding.platform action = true) {} authorizedRun := by
    decide
  have path := (World.path_run keeping).mono fun _ _ => World.sparesActivating_of_keepsAccess
  refine ⟨by decide, spared_activations_authorized (path.tail ?_)⟩
  exact ⟨removal 4, World.sparesActivating_of_idle (by decide), rfl⟩

end Codenaut.System
