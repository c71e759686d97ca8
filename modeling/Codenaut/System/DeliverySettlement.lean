import Codenaut.Services.DeliverySettlement
import Codenaut.System.Runs

/-!
# Settled deliveries in the world

A second push of a commit links its delivery to the job of the first. An ending
that settles one delivery leaves the other in progress for ever.
-/

set_option autoImplicit false

namespace Codenaut.System

open Codenaut.Core Codenaut.Db Codenaut.Indexing Codenaut.Services

/-- In every interleaving whose endings settle all deliveries of their jobs,
every delivery of an ended job has a terminal status. -/
theorem settling_deliveries_settled {settings : Settings} {platform : Platform} {world : World}
    (path : World.Path settings platform (World.Commits (settlesAll settings)) {} world) :
    DeliveriesSettled world.journal.database :=
  (World.Path.journal (.start settings platform) path).1.settled

namespace Onboarding

/-- A push to the default branch, under its own delivery id. -/
def push (now : Timestamp) (deliveryId : String) (before after : CommitSha) : Action :=
  .serve { now } (.handle deliveryId "push"
    { installation := some Services.Onboarding.installation
      repository := some (Services.Onboarding.repository "main")
      ref := some "refs/heads/main"
      before := some before
      after := some after }) rfl

/-- A worker takes the first push's job after a newer push. -/
def supersededPush : List Action :=
  [push 3 "newer" "second" "third", .claim { now := 4 } "worker" 2, .work "worker" (outside 5),
    .work "worker" (outside 5), .work "worker" (outside 5)]

/-- The commit is pushed twice before the newer push. -/
def pushedTwice : World :=
  World.run Services.Onboarding.settings Services.Onboarding.platform {}
    (selection 0 ++ [push 1 "first" "base" "second", push 2 "again" "base" "second"] ++
      supersededPush)

def pushedOnce : World :=
  World.run Services.Onboarding.settings Services.Onboarding.platform {}
    (selection 0 ++ [push 1 "first" "base" "second"] ++ supersededPush)

/-- Delivery ids with the job they are linked to and their status. -/
def deliveries (world : World) : List (String × Option JobId × WebhookDeliveryStatus) :=
  world.journal.database.webhookDeliveries.map fun row =>
    (row.deliveryId, row.indexingJobId, row.status)

end Onboarding

open Onboarding in
/-- Job 2 is cancelled; its second delivery stays in progress. -/
theorem second_delivery_unsettled :
    World.Reachable Services.Onboarding.settings Services.Onboarding.platform pushedTwice ∧
    pushedTwice.journal.database.indexingJobs.map (fun job => (job.id, job.status)) =
      [(1, .queued), (2, .cancelled), (3, .queued)] ∧
    deliveries pushedTwice = [("first", some 2, .superseded), ("again", some 2, .processing),
      ("newer", some 3, .queued)] ∧
    ¬ DeliveriesSettled pushedTwice.journal.database := by
  refine ⟨World.Reachable.run .refl _, by decide, by decide, ?_⟩
  have unsettled : ∃ delivery ∈ pushedTwice.journal.database.webhookDeliveries,
      ∃ job ∈ pushedTwice.journal.database.indexingJobs,
        delivery.indexingJobId = some job.id ∧ job.status.terminal = true ∧
          delivery.status.terminal = false := by
    decide
  obtain ⟨delivery, member, job, jobMember, link, ended, waiting⟩ := unsettled
  intro settled
  simp [settled delivery member job jobMember link ended] at waiting

open Onboarding in
theorem pushed_once_settled :
    deliveries pushedOnce = [("first", some 2, .superseded), ("newer", some 3, .queued)] ∧
    DeliveriesSettled pushedOnce.journal.database := by
  refine ⟨by decide, settling_deliveries_settled (World.path_run ?_)⟩
  refine ⟨?_, ?_, ?_, ?_, ?_, ?_, ?_, ?_, ?_, trivial⟩
  iterate 6
    · rintro _ ⟨⟩
      trivial
  · rintro _ ⟨⟩
    exact nofun
  · rintro _ ⟨⟩
    exact nofun
  · rintro _ ⟨⟩ _
    decide

end Codenaut.System
