import Codenaut.Services.QuiescentRuns
import Codenaut.System.Runs

/-!
# Quiescent statuses in the world

The client stops polling a repository when no job of it is live, in every
interleaving whose stale marks are quiet. A stale mark of the only live job
leaves its repository in progress for ever.
-/

set_option autoImplicit false

namespace Codenaut.System

open Codenaut.Core Codenaut.Db Codenaut.Indexing Codenaut.Services

/-- In every interleaving whose stale marks are quiet, a repository without a
live job is not in progress. -/
theorem quietly_marked_quiescent {settings : Settings} {platform : Platform} {world : World}
    (path : World.Path settings platform (World.Commits marksQuietly) {} world) :
    Quiescent world.journal.database :=
  (World.Path.journal (.start settings platform) path).1.quiescent

namespace Onboarding

/-- The three steps of a run that is authorized, not current, and marked stale. -/
def staleRun (now : Timestamp) : List Action :=
  [.work "worker" (outside now), .work "worker" (outside now), .work "worker" (outside now)]

/-- A sync changes the default branch before the worker takes the only job. -/
def redirected : World :=
  World.run Services.Onboarding.settings Services.Onboarding.platform {}
    (selection 0 ++
      [.serve { now := 1 } (.synchronizeRepositories 1 1 [Services.Onboarding.repository "trunk"])
        rfl,
        .claim { now := 2 } "worker" 1] ++ staleRun 3)

/-- A push overtakes the first job: its own job is live when the first is marked. -/
def overtaking : List Action :=
  selection 0 ++
    [.serve { now := 1 } (.handle "delivery" "push"
        { installation := some Services.Onboarding.installation
          repository := some (Services.Onboarding.repository "main")
          ref := some "refs/heads/main"
          before := some "first"
          after := some "second" }) rfl,
      .claim { now := 2 } "worker" 1] ++ staleRun 3

def overtaken : World :=
  World.run Services.Onboarding.settings Services.Onboarding.platform {} overtaking

end Onboarding

open Onboarding in
/-- The only job of the repository is cancelled and its status stays in progress. -/
theorem stale_mark_spins :
    World.Reachable Services.Onboarding.settings Services.Onboarding.platform redirected ∧
    redirected.journal.database.indexingJobs.map (fun job => (job.repositoryId, job.status)) =
      [(1, .cancelled)] ∧
    redirected.journal.database.repositories.map (fun row => (row.id, row.indexingStatus)) =
      [(1, .cloning)] ∧
    ¬ Quiescent redirected.journal.database := by
  have jobs : ∀ job ∈ redirected.journal.database.indexingJobs, live job = false := by decide
  have spinning : ∃ row ∈ redirected.journal.database.repositories,
      isIndexingStatus row.indexingStatus = true := by decide
  refine ⟨World.Reachable.run .refl _, by decide, by decide, ?_⟩
  intro quiescent
  obtain ⟨row, member, indexing⟩ := spinning
  rw [quiescent row member fun job jobMember _ => jobs job jobMember] at indexing
  cases indexing

open Onboarding in
/-- The push's job outlives the mark of the first one. -/
theorem overtaken_quiescent :
    overtaken.journal.database.indexingJobs.map (·.status) = [.cancelled, .queued] ∧
    Quiescent overtaken.journal.database := by
  refine ⟨by decide, quietly_marked_quiescent (World.path_run ?_)⟩
  refine ⟨?_, ?_, ?_, ?_, ?_, ?_, ?_, ?_, trivial⟩
  iterate 7
    · rintro _ ⟨⟩
      trivial
  · rintro _ ⟨⟩
    change ∀ job ∈ _, heldBy _ _ job = true → statusOutlives _ job = true
    decide

end Codenaut.System
