import Codenaut.Services.OperationProperties

/-!
# Accepted pushes

The deliveries that reach the refresh logic of `_apply_push`, the shortcuts
that take them without a new job, and what either way writes to jobs and
repositories.
-/

set_option autoImplicit false

namespace Codenaut.Services

open Codenaut.Core Codenaut.Db Codenaut.Indexing Codenaut.Relational

/-- The repository and the commit of a push to its default branch: the delivery
is new, the repository is reachable, and the branch was not deleted. -/
def acceptedPush (db : Database) : Operation → Option (Repository × CommitSha)
  | .handle deliveryId eventName payload =>
      if db.webhookDeliveries.any (·.deliveryId == deliveryId) then none
      else
        match webhookEvent eventName payload with
        | some (.push githubInstallationId githubRepositoryId ref _ after _ deleted) => do
            let installation ←
              db.githubInstallations.find? (activeInstallation githubInstallationId)
            let repository ←
              db.repositories.find? (reachableRepository installation.id githubRepositoryId)
            if ref = "refs/heads/" ++ repository.defaultBranch ∧ deleted = false ∧
                after ≠ zeroSha then
              some (repository, after)
            else none
        | _ => none
  | _ => none

/-- The pushed commit is active already, or a live job targets it. -/
def takenByShortcut (db : Database) (repository : Repository) (after : CommitSha) : Bool :=
  repository.lastIndexedCommitSha == some after ||
    db.indexingJobs.any (existingJob repository.id after)

/-- The columns of the freshness fence and the active commit are kept. -/
structure SameFence (old new : Repository) : Prop where
  generation : new.refreshGeneration = old.refreshGeneration
  branch : new.defaultBranch = old.defaultBranch
  commit : new.lastIndexedCommitSha = old.lastIndexedCommitSha

/-- What an accepted push of a repository writes. -/
inductive PushOutcome (db stored : Database) (repository : Repository) (after : CommitSha) :
    Prop where
  | noted (taken : takenByShortcut db repository after = true)
      (jobs : stored.indexingJobs = db.indexingJobs)
      (repositories : Evolves (·.id) SameFence (fun _ => False) db.repositories
        stored.repositories)
  | refreshed (job : IndexingJob) (jobs : stored.indexingJobs = db.indexingJobs ++ [job])
      (owner : job.repositoryId = repository.id) (alive : live job = true)
      (row : ∃ row ∈ stored.repositories, row.id = repository.id ∧
        repository.refreshGeneration < row.refreshGeneration ∧ fenceAllows job row = true)

theorem SameFence.refl (row : Repository) : SameFence row row :=
  ⟨rfl, rfl, rfl⟩

theorem pushTo_outcome {db : Database} (now : Timestamp) (deliveryRow : DeliveryRowId)
    {repository : Repository} {ref : String} (before : CommitSha) {after : CommitSha}
    (forced : Bool) {deleted : Bool} (member : repository ∈ db.repositories)
    (onBranch : ref = "refs/heads/" ++ repository.defaultBranch) (kept : deleted = false)
    (real : after ≠ zeroSha) :
    PushOutcome db (pushTo db now deliveryRow repository ref before after forced deleted).2
      repository after := by
  unfold pushTo
  dsimp only
  rw [if_neg (not_not.mpr onBranch), if_neg (by simp [kept, real])]
  split
  case isTrue active =>
      refine .noted (by simp [takenByShortcut, active]) rfl ?_
      exact .updateWhere .refl (fun _ _ _ => ⟨rfl, rfl, rfl⟩) fun _ => rfl
  case isFalse inactive =>
      split
      case h_1 existing found =>
          refine .noted ?_ rfl (.refl .refl)
          have targets : db.indexingJobs.any (existingJob repository.id after) = true :=
            List.any_eq_true.mpr ⟨existing, List.mem_of_find?_eq_some found,
              List.find?_some found⟩
          simp [takenByShortcut, targets]
      case h_2 absent =>
          refine .refreshed _ rfl rfl rfl ⟨pushedRepository now after repository,
            mem_updateWhere.mpr ⟨repository, member, by simp⟩, rfl, Nat.lt_succ_self _, ?_⟩
          simp [fenceAllows, pushJob, pushedRepository]

/-- Statements on the delivery table before and after change nothing of it. -/
theorem PushOutcome.withDeliveries {db received applied stored : Database}
    {repository : Repository} {after : CommitSha}
    (outcome : PushOutcome received applied repository after)
    (before : received.indexingJobs = db.indexingJobs ∧ received.repositories = db.repositories)
    (settled : stored.indexingJobs = applied.indexingJobs ∧
      stored.repositories = applied.repositories) : PushOutcome db stored repository after := by
  cases outcome with
  | noted taken jobs repositories =>
      refine .noted ?_ (settled.1.trans (jobs.trans before.1)) ?_
      · rw [takenByShortcut, before.1] at taken
        exact taken
      · rw [settled.2, ← before.2]
        exact repositories
  | refreshed job jobs owner alive row =>
      refine .refreshed job ?_ owner alive ?_
      · rw [settled.1, jobs, before.1]
      · rw [settled.2]
        exact row

theorem acceptedPush_outcome {settings : Settings} {platform : Platform} {moment : Moment}
    {db : Database} {operation : Operation} {repository : Repository} {after : CommitSha}
    (accepted : acceptedPush db operation = some (repository, after)) :
    repository ∈ db.repositories ∧
      PushOutcome db (operation.apply settings platform moment db) repository after := by
  cases operation with
  | handle deliveryId eventName payload =>
      simp only [acceptedPush] at accepted
      split at accepted
      case isTrue => cases accepted
      case isFalse unseen =>
          split at accepted
          case h_2 => cases accepted
          case h_1 githubInstallationId githubRepositoryId ref before pushed forced deleted event =>
              simp only [Option.bind_eq_bind, Option.bind_eq_some_iff] at accepted
              obtain ⟨installation, active, located, reachable, accepted⟩ := accepted
              split at accepted
              case isFalse => cases accepted
              case isTrue conditions =>
                  cases accepted
                  have member := List.mem_of_find?_eq_some reachable
                  refine ⟨member, ?_⟩
                  let received := receiveDelivery db moment.now deliveryId eventName payload
                  have outcome : PushOutcome received _ repository after :=
                    pushTo_outcome moment.now (newDeliveryRow db) before forced member
                      conditions.1 conditions.2.1 conditions.2.2
                  have installed : received.githubInstallations.find?
                      (activeInstallation githubInstallationId) = some installation := active
                  have stored : received.repositories.find?
                      (reachableRepository installation.id githubRepositoryId) =
                        some repository := reachable
                  simp only [Operation.apply, handle, event, unseen, Bool.false_eq_true, if_false,
                    applyEvent, applyPush, Option.map_some, Option.getD_some]
                  rw [installed]
                  dsimp only
                  rw [stored]
                  exact outcome.withDeliveries ⟨rfl, rfl⟩ ⟨rfl, rfl⟩
  | _ => cases accepted

end Codenaut.Services
