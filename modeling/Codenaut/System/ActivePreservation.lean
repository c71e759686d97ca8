import Codenaut.Agent.ActiveIndexProperties
import Codenaut.Services.LoadableStatus
import Codenaut.System.ActiveVectors
import Codenaut.System.AuthorizedActivations

/-!
# Queries while a refresh fails

A run that ends without activating leaves the active index loadable, unless it
was denied for an expired membership: its cancellation writes the status of a
revoked repository, although no access was revoked.
-/

set_option autoImplicit false

namespace Codenaut.System

open Codenaut.ActiveIndex Codenaut.Agent Codenaut.Core Codenaut.Db Codenaut.Indexing
open Codenaut.Interaction Codenaut.Relational Codenaut.Services

/-- The question path reaches the repository and loads this index. -/
def Answers (settings : Settings) (platform : Platform) (db : Database)
    (repositoryId : RepositoryId) (index : ActiveIndex) : Prop :=
  accessible db repositoryId = true ∧ ∃ row ∈ db.repositories, row.id = repositoryId ∧
    loadActiveIndex settings platform db row = some index

/-- The next request of a run asks for its authorization. -/
def Run.asksAuthorization (run : Run) : Bool :=
  match run.program with
  | .ask (.store .authorizedContext) _ => true
  | _ => false

/-- No run of the repository that holds its claim has been denied. -/
def Undenied (world : World) (repositoryId : RepositoryId) : Prop :=
  ∀ workerId run, Holds world workerId run → run.claimed.repositoryId = repositoryId →
    run.view.denied = false

namespace World

/-- The holder of a claim of the repository asks for its authorization under a
membership that has not expired. -/
def membersFresh (settings : Settings) (repositoryId : RepositoryId) (world : World)
    (action : Action) : Prop :=
  ∀ workerId outside run, action = .work workerId outside → Holds world workerId run →
    run.claimed.repositoryId = repositoryId → run.asksAuthorization = true →
    ∀ job ∈ world.journal.database.indexingJobs, job.id = run.claimed.id →
    ∀ row ∈ world.journal.database.repositories, row.id = repositoryId →
      memberGranted settings world.journal.database outside.moment.now job row
        (row.installationId.bind world.journal.database.installation?) = true

/-- The step revokes no access to the repository or to its installation. -/
def unrevoking (settings : Settings) (platform : Platform) (repositoryId : RepositoryId)
    (world : World) (action : Action) : Prop :=
  accessible (world.step settings platform action).journal.database repositoryId = true

/-- The step activates no index of the repository. -/
def unactivating (settings : Settings) (platform : Platform) (repositoryId : RepositoryId)
    (world : World) (action : Action) : Prop :=
  (world.step settings platform action).journal.history.activationsOf repositoryId =
    world.journal.history.activationsOf repositoryId

/-- A stretch of a run without revocation or activation, in which memberships are fresh. -/
def preserving (settings : Settings) (platform : Platform) (repositoryId : RepositoryId)
    (world : World) (action : Action) : Prop :=
  world.membersFresh settings repositoryId action ∧
    world.unrevoking settings platform repositoryId action ∧
    world.unactivating settings platform repositoryId action

end World

section Step

variable {settings : Settings} {platform : Platform} {world : World} {action : Action}
  {repositoryId : RepositoryId}

/-- A holder with a fresh membership is not denied. -/
theorem Undenied.step (undenied : Undenied world repositoryId)
    (sound : WorldSound settings platform world)
    (access : accessible world.journal.database repositoryId = true)
    (fresh : world.membersFresh settings repositoryId action) :
    Undenied (world.step settings platform action) repositoryId := by
  intro workerId run holds owner
  cases step_runs holds.live with
  | kept before => exact undenied workerId run (holds.before sound before rfl) owner
  | started => rfl
  | advanced before asks =>
      rename_i outside earlier request next
      have held := holds.before sound before rfl
      have prior := undenied workerId earlier held owner
      simp only [Run.advance]
      generalize replied : world.reply settings platform workerId earlier.claimed outside request =
        reply
      have learned := earlier.view.learned request reply
      generalize earlier.view.learn request reply = learnt at learned ⊢
      cases learned with
      | authorized answer =>
          cases answer with
          | some context => exact (RunView.authorize_denied _ context).trans prior
          | none =>
              obtain ⟨_, stored, success⟩ : outside.commit = .answered ∧ ∃ stored,
                  StoreCall.authorizedContext.transact settings platform outside.moment
                    earlier.claimed workerId world.journal.database = .ok (none, stored) :=
                callReply_ok replied
              obtain ⟨job, member, heldJob, jobOwner⟩ := held.job sound
              obtain ⟨row, located, granted⟩ := (Option.any_eq_true _ _).mp access
              have here : earlier.claimed.repositoryId = repositoryId := owner
              have found := located
              rw [← here, ← jobOwner] at found
              have membership := fresh workerId outside earlier rfl held here
                (by rw [Run.asksAuthorization, asks]) job member (heldBy_iff.mp heldJob).1 row
                (repository?_mem located).1 (repository?_mem located).2
              have authorized := authorizedContext_granted sound.journal.consistent.jobIds member
                heldJob found granted membership
              rw [Except.ok.inj success] at authorized
              cases authorized
      | _ => exact prior

/-- Only the cancellation of a denied holder would take the status away. -/
theorem step_servable (sound : WorldSound settings platform world)
    (undenied : Undenied world repositoryId) {entry : Transaction}
    (issued : Issued world action entry) :
    KeepsUnlessRevoked repositoryId world.journal.database.repositories
      (entry.operation.apply settings platform entry.moment
        world.journal.database).repositories := by
  refine Operation.apply_servable ?_ ?_
  · intro claimed workerId status stageName progress commitSha stages
    cases issued with
    | served outsideRuns =>
        subst stages
        cases outsideRuns
    | claimed => cases stages
    | beat => cases stages
    | asked live asks =>
        cases stages
        have allowed := (sound.runs _ _ live).allowed asks
        simp only [RunView.allows, RunView.allowsCall, inProgress, List.mem_cons,
          List.not_mem_nil, or_false] at allowed
        rcases allowed with rfl | rfl | rfl | rfl | rfl | rfl <;> rfl
  · intro claimed workerId cancels job member held here
    cases issued with
    | served outsideRuns =>
        subst cancels
        cases outsideRuns
    | claimed => cases cancels
    | beat => cases cancels
    | asked live asks =>
        cases cancels
        rename_i outside run committed next
        have holds : Holds world workerId run := ⟨live, List.any_eq_true.mpr ⟨job, member, held⟩⟩
        obtain ⟨own, ownMember, ownHeld, owner⟩ := holds.job sound
        have same := sound.journal.consistent.jobIds.row_eq ownMember member
          ((heldBy_iff.mp ownHeld).1.trans (heldBy_iff.mp held).1.symm)
        have denied : run.view.denied = true := (sound.runs _ _ live).allowed asks
        rw [undenied workerId run holds (owner.symm.trans (same ▸ here))] at denied
        cases denied

theorem Answers.step {index : ActiveIndex} (sound : WorldSound settings platform world)
    (undenied : Undenied world repositoryId)
    (answers : Answers settings platform world.journal.database repositoryId index)
    (unrevoking : world.unrevoking settings platform repositoryId action)
    (unactivating : world.unactivating settings platform repositoryId action) :
    Answers settings platform (world.step settings platform action).journal.database repositoryId
      index := by
  refine ⟨unrevoking, ?_⟩
  rcases step_journal settings platform world action with idle | ⟨entry, issued, applied⟩
  · rw [idle]
    exact answers.2
  · have journalSound := reachable_sound sound.journal
    have admissible := issued_admissible sound issued
    have after := journalSound.apply settings entry.moment admissible
    obtain ⟨_, row, member, rfl, loads⟩ := answers
    rw [World.unrevoking, applied] at unrevoking
    rw [World.unactivating, applied] at unactivating
    rw [applied]
    have loaded := (loadActiveIndex_iff journalSound.table.keys).mp loads
    obtain ⟨next, nextMember, sameId, here, served⟩ :=
      step_servable sound undenied issued row member ⟨rfl, loaded.status⟩
    have same := journalSound.sameIndex entry.moment entry.operation member nextMember sameId
      unactivating
    have status : unloadable next.indexingStatus = false := by
      rcases served with loadable | revoked
      · exact loadable
      · obtain ⟨stored, located, granted⟩ := (Option.any_eq_true _ _).mp unrevoking
        obtain ⟨storedMember, storedId⟩ := repository?_mem located
        have equal := after.table.consistent.repositoryIds.row_eq nextMember storedMember
          (here.trans storedId.symm)
        simp only [accessGranted, Bool.and_eq_true, Option.isNone_iff_eq_none] at granted
        simp [equal, granted.1.1] at revoked
    refine ⟨next, nextMember, here, (loadActiveIndex_iff after.table.keys).mpr ?_⟩
    refine loaded.kept same status fun build found active => ?_
    have stepped := journalSound.index_step settings entry.moment admissible member nextMember sameId
    have kept := (stepped.active_kept (journalSound.staged row member) same.indexVersion).2 build
      found (buildPhase_active.mpr active)
    simpa [indexSlots, sameId] using kept

end Step

/-- While no access to a repository is revoked and no index of it is activated,
an index that loads keeps loading, provided that every holder of a claim of the
repository asks for its authorization under a membership that has not expired. -/
theorem fresh_members_preserve {settings : Settings} {platform : Platform} {before after : World}
    {repositoryId : RepositoryId} {index : ActiveIndex}
    (reachable : World.Reachable settings platform before)
    (undenied : Undenied before repositoryId)
    (answers : Answers settings platform before.journal.database repositoryId index)
    (path : World.Path settings platform (World.preserving settings platform repositoryId) before
      after) :
    Answers settings platform after.journal.database repositoryId index := by
  have kept : WorldSound settings platform after ∧ Undenied after repositoryId ∧
      Answers settings platform after.journal.database repositoryId index := by
    induction path with
    | refl => exact ⟨reachable.sound, undenied, answers⟩
    | tail _ moves ih =>
        obtain ⟨action, ⟨fresh, unrevoking, unactivating⟩, rfl⟩ := moves
        obtain ⟨sound, undenied, answers⟩ := ih
        exact ⟨sound.step action, undenied.step sound answers.1 fresh,
          answers.step sound undenied unrevoking unactivating⟩
  exact kept.2.2

/-! ## Runs of a list of actions -/

/-- Without a RUNNING job no holder was denied. -/
theorem undenied_of_idle {world : World} {repositoryId : RepositoryId}
    (idle : ∀ job ∈ world.journal.database.indexingJobs, job.status ≠ .running) :
    Undenied world repositoryId := by
  intro workerId run holds _
  obtain ⟨job, member, _, running, _⟩ := holdsClaim_iff.mp holds.held
  exact (idle job member running).elim

namespace World

/-- Neither a revocation nor an activation of the repository. -/
def undisturbing (settings : Settings) (platform : Platform) (repositoryId : RepositoryId)
    (world : World) (action : Action) : Bool :=
  accessible (world.step settings platform action).journal.database repositoryId &&
    decide ((world.step settings platform action).journal.history.activationsOf repositoryId =
      world.journal.history.activationsOf repositoryId)

/-- The worker asks for its authorization under a fresh membership, if it asks. -/
def asksFreshly (settings : Settings) (repositoryId : RepositoryId) (world : World) :
    Action → Bool
  | .work workerId outside =>
      let db := world.journal.database
      (world.runs workerId).all fun run =>
        !run.asksAuthorization || db.indexingJobs.all fun job =>
          job.id != run.claimed.id || db.repositories.all fun row =>
            row.id != repositoryId || memberGranted settings db outside.moment.now job row
              (row.installationId.bind db.installation?)
  | _ => true

variable {settings : Settings} {platform : Platform} {repositoryId : RepositoryId} {world : World}
  {action : Action}

theorem undisturbed (quiet : world.undisturbing settings platform repositoryId action = true) :
    world.unrevoking settings platform repositoryId action ∧
      world.unactivating settings platform repositoryId action := by
  simp only [undisturbing, Bool.and_eq_true, decide_eq_true_eq] at quiet
  exact quiet

theorem membersFresh_of_asksFreshly
    (fresh : world.asksFreshly settings repositoryId action = true) :
    world.membersFresh settings repositoryId action := by
  rintro workerId outside run rfl holds _ asks job jobMember sameJob row rowMember sameRow
  simp only [asksFreshly, holds.live, Option.all_some, asks, Bool.not_true, Bool.false_or,
    List.all_eq_true, Bool.or_eq_true, bne_iff_ne] at fresh
  have jobs := (fresh job jobMember).resolve_left fun apart => apart sameJob
  exact (jobs row rowMember).resolve_left fun apart => apart sameRow

end World

namespace Onboarding

/-- What every stored repository loads. -/
def loads (world : World) : List (RepositoryId × Option ActiveIndex) :=
  world.journal.database.repositories.map fun row =>
    (row.id, loadActiveIndex Services.Onboarding.settings Services.Onboarding.platform
      world.journal.database row)

/-- The first index is active and a rebuild waits. -/
def rebuilding : World :=
  indexedAlone.step Services.Onboarding.settings Services.Onboarding.platform
    (.serve { now := 4 } (.reindex 1 1) rfl)

/-- The rebuild is claimed after the membership expired, is denied, and ends. -/
def expiredRun (now : Timestamp) : List Action :=
  [.claim { now } "second" 2, .work "second" (chunked now), .work "second" (chunked now),
    .work "second" (chunked now)]

/-- The user signs in again and lists the repository. -/
def listing (now : Timestamp) : List Action :=
  [.serve { now } (.githubLogin (some 1) { id := 5 } [Services.Onboarding.installation]) rfl,
    .serve { now } (.synchronizeRepositories 1 1 [Services.Onboarding.repository "main"])
      runOnly_listing]

def denied : World :=
  rebuilding.run Services.Onboarding.settings Services.Onboarding.platform (expiredRun 99999999)

def relisted : World :=
  denied.run Services.Onboarding.settings Services.Onboarding.platform (listing 100000000)

/-- A rebuild whose clone token is refused, and a listing after it. -/
def failedRun (now : Timestamp) : List Action :=
  [.claim { now } "second" 2] ++ List.replicate 5 (.work "second" (outside now)) ++ listing now

def failed : World :=
  rebuilding.run Services.Onboarding.settings Services.Onboarding.platform (failedRun 5)

/-- The index of the first run. -/
def firstIndex : ActiveIndex := ⟨1, "first", "digest"⟩

end Onboarding

theorem answers_of_loads {world : World} {repositoryId : RepositoryId} {index : ActiveIndex}
    (access : accessible world.journal.database repositoryId = true)
    (member : (repositoryId, some index) ∈ Onboarding.loads world) :
    Answers Services.Onboarding.settings Services.Onboarding.platform world.journal.database
      repositoryId index := by
  obtain ⟨row, stored, same⟩ := List.mem_map.mp member
  obtain ⟨sameId, loaded⟩ := Prod.mk.inj same
  exact ⟨access, row, stored, sameId, loaded⟩

theorem unanswered_of_loads {world : World} {repositoryId : RepositoryId} {index : ActiveIndex}
    (nothing : Onboarding.loads world = [(repositoryId, none)]) :
    ¬ Answers Services.Onboarding.settings Services.Onboarding.platform world.journal.database
      repositoryId index := by
  rintro ⟨_, row, member, _, loaded⟩
  have listed : (row.id, some index) ∈ Onboarding.loads world :=
    List.mem_map.mpr ⟨row, member, by rw [loaded]⟩
  simp [nothing] at listed

theorem Onboarding.rebuilding_reachable :
    World.Reachable Services.Onboarding.settings Services.Onboarding.platform rebuilding :=
  World.Reachable.run (World.Reachable.run .refl _) [_]

theorem Onboarding.rebuilding_answers : Undenied rebuilding 1 ∧
    Answers Services.Onboarding.settings Services.Onboarding.platform
      rebuilding.journal.database 1 firstIndex := by
  have state : (∀ job ∈ rebuilding.journal.database.indexingJobs, job.status ≠ .running) ∧
      accessible rebuilding.journal.database 1 = true ∧
      (1, some firstIndex) ∈ loads rebuilding := by decide +kernel
  obtain ⟨idle, access, member⟩ := state
  exact ⟨undenied_of_idle idle, answers_of_loads access member⟩

open Onboarding in
/-- The refresh of an expired membership takes the index away, although no access
was revoked; listing the repository again does not bring it back. -/
theorem expired_refresh_unloads :
    World.Reachable Services.Onboarding.settings Services.Onboarding.platform rebuilding ∧
    Undenied rebuilding 1 ∧
    Answers Services.Onboarding.settings Services.Onboarding.platform
      rebuilding.journal.database 1 firstIndex ∧
    World.Path Services.Onboarding.settings Services.Onboarding.platform
      (fun world action =>
        world.unrevoking Services.Onboarding.settings Services.Onboarding.platform 1 action ∧
        world.unactivating Services.Onboarding.settings Services.Onboarding.platform 1 action)
      rebuilding relisted ∧
    denied.journal.database.indexingJobs.map (·.status) = [.complete, .cancelled] ∧
    ∀ index,
      ¬ Answers Services.Onboarding.settings Services.Onboarding.platform
        denied.journal.database 1 index ∧
      ¬ Answers Services.Onboarding.settings Services.Onboarding.platform
        relisted.journal.database 1 index := by
  have outcome : World.Meets Services.Onboarding.settings Services.Onboarding.platform
      (fun world action => world.undisturbing Services.Onboarding.settings
        Services.Onboarding.platform 1 action = true) rebuilding
      (expiredRun 99999999 ++ listing 100000000) ∧
      denied.journal.database.indexingJobs.map (·.status) = [.complete, .cancelled] ∧
      loads denied = [(1, none)] ∧ loads relisted = [(1, none)] := by
    decide +kernel
  obtain ⟨quiet, ended, lost, stillLost⟩ := outcome
  have path := (World.path_run quiet).mono fun _ _ => World.undisturbed
  obtain ⟨undenied, answers⟩ := rebuilding_answers
  refine ⟨rebuilding_reachable, undenied, answers, ?_, ended,
    fun index => ⟨unanswered_of_loads lost, unanswered_of_loads stillLost⟩⟩
  rw [relisted, denied, World.run, World.run, ← List.foldl_append]
  exact path

open Onboarding in
/-- A refresh that fails under a fresh membership leaves the index. -/
theorem failed_refresh_answers :
    failed.journal.database.indexingJobs.map (·.status) = [.complete, .retrying] ∧
    Answers Services.Onboarding.settings Services.Onboarding.platform failed.journal.database 1
      firstIndex := by
  have outcome : World.Meets Services.Onboarding.settings Services.Onboarding.platform
      (fun world action => (world.asksFreshly Services.Onboarding.settings 1 action &&
        world.undisturbing Services.Onboarding.settings Services.Onboarding.platform 1 action) =
          true) rebuilding (failedRun 5) ∧
      failed.journal.database.indexingJobs.map (·.status) = [.complete, .retrying] := by
    decide +kernel
  obtain ⟨quiet, ended⟩ := outcome
  obtain ⟨undenied, answers⟩ := rebuilding_answers
  refine ⟨ended, fresh_members_preserve rebuilding_reachable undenied answers ?_⟩
  refine (World.path_run quiet).mono fun world action both => ?_
  have ⟨fresh, undisturbed⟩ := Bool.and_eq_true_iff.mp both
  exact ⟨World.membersFresh_of_asksFreshly fresh, World.undisturbed undisturbed⟩

end Codenaut.System
