import Codenaut.Services.UnheldCalls
import Codenaut.System.Holders
import Codenaut.System.JobStates

/-!
# Displaced workers

A worker whose claim the recovery took away keeps running. It never holds that
claim again, so what its later store calls change is what the unguarded calls
find to write.
-/

set_option autoImplicit false

namespace Codenaut.System

open Codenaut.ActiveIndex Codenaut.Core Codenaut.Db Codenaut.Indexing Codenaut.Interaction
open Codenaut.Relational Codenaut.Services

/-- The transaction of an action writes none of the index rows. -/
def World.harmless (settings : Settings) (world : World) (action : Action) : Prop :=
  ∀ moment claimed workerId call,
    world.transaction action = some ⟨moment, .store claimed workerId call⟩ →
      call.harmless settings moment.now world.journal.database claimed

/-- The actions of one worker on its claimed run. -/
inductive ActionOf (workerId : WorkerId) : Action → Prop where
  | work (outside : Outside) : ActionOf workerId (.work workerId outside)
  | beat (moment : Moment) : ActionOf workerId (.beat moment workerId)

/-- A claim that its worker lost without having activated; the job counts its attempt. -/
structure Displaced (world : World) (workerId : WorkerId) (claimed : ClaimedJob) : Prop where
  counted : ∃ job ∈ world.journal.database.indexingJobs, job.id = claimed.id ∧
    claimed.attempt ≤ job.attempt
  lost : ∀ run, world.runs workerId = some run → run.claimed = claimed →
    holdsClaim world.journal.database workerId claimed = false ∧ run.view.activated = none

section Step

variable {settings : Settings} {platform : Platform} {world : World} {workerId : WorkerId}

theorem Displaced.counted_step {claimed : ClaimedJob}
    (sound : WorldSound settings platform world)
    (counted : ∃ job ∈ world.journal.database.indexingJobs, job.id = claimed.id ∧
      claimed.attempt ≤ job.attempt) (action : Action) :
    ∃ job ∈ (world.step settings platform action).journal.database.indexingJobs,
      job.id = claimed.id ∧ claimed.attempt ≤ job.attempt := by
  have consistent := sound.journal.consistent
  rcases step_journal settings platform world action with idle | ⟨entry, _, applied⟩
  · rw [idle]
    exact counted
  · rw [applied]
    obtain ⟨job, member, same, bound⟩ := counted
    have effect := entry.operation.effect settings platform entry.moment consistent.jobIds
      consistent.repositoryIds
    obtain ⟨next, nextMember, step, nextId⟩ := effect.jobs.successor member
    exact ⟨next, nextMember, nextId.trans same, Nat.le_trans bound step.attempt_le⟩

theorem activate_unheld {db : Database} {now : Timestamp} {claimed : ClaimedJob}
    {commitSha : CommitSha} (unheld : holdsClaim db workerId claimed = false) {previous : Nat}
    {stored : Database} :
    activate db now claimed workerId commitSha ≠ .ok (previous, stored) := by
  intro success
  obtain ⟨job, _, _, guards, _⟩ := activate_ok success
  obtain ⟨member, held⟩ := held_of_find guards.found
  have holds : holdsClaim db workerId claimed = true := List.any_eq_true.mpr ⟨job, member, held⟩
  simp [unheld] at holds

/-- A run without its claim learns of no activation. -/
theorem unactivated_step {run : Run} {outside : Outside} {request : Request}
    {next : request.Reply → Program Request Request.Reply (Except Failure Unit × RunState)}
    (unheld : holdsClaim world.journal.database workerId run.claimed = false)
    (unactivated : run.view.activated = none) :
    (run.advance world.points request next
      (world.reply settings platform workerId run.claimed outside request)).view.activated =
        none := by
  simp only [Run.advance]
  generalize replied : world.reply settings platform workerId run.claimed outside request = reply
  have learned := run.view.learned request reply
  generalize run.view.learn request reply = learnt at learned ⊢
  cases learned with
  | authorized answer => exact (RunView.authorize_activated _ answer).trans unactivated
  | activated previous =>
      obtain ⟨_, stored, success⟩ := callReply_ok replied
      exact (activate_unheld unheld success).elim
  | _ => exact unactivated

theorem Displaced.step {claimed : ClaimedJob} (sound : WorldSound settings platform world)
    (displaced : Displaced world workerId claimed) (action : Action) :
    Displaced (world.step settings platform action) workerId claimed where
  counted := Displaced.counted_step sound displaced.counted action
  lost := by
    intro run live same
    cases step_runs live with
    | kept before =>
        obtain ⟨unheld, unactivated⟩ := displaced.lost run before same
        subst same
        exact ⟨unheld_step sound before unheld action, unactivated⟩
    | started idle taken =>
        -- A new claim of the job counts one attempt more than the lost one.
        subst same
        cases attempt : claim world.journal.database _ _ workerId with
        | mk result stored =>
            rw [attempt] at taken
            subst taken
            obtain ⟨job, found, _, contents, _⟩ := claim_ok attempt
            obtain ⟨counted, member, sameJob, bound⟩ := displaced.counted
            have equal := sound.journal.consistent.jobIds.row_eq member
              (List.mem_of_find?_eq_some found) (sameJob.trans (by rw [Run.start, contents]))
            subst equal
            simp only [Run.start, contents] at bound
            exact (Nat.not_succ_le_self _ bound).elim
    | advanced before asks =>
        obtain ⟨unheld, unactivated⟩ := displaced.lost _ before same
        refine ⟨?_, ?_⟩
        · subst same
          exact unheld_step sound before unheld _
        · subst same
          exact unactivated_step unheld unactivated

/-- A recovery that takes a live run's claim displaces it. -/
theorem displaced_of_recovered (reachable : World.Reachable settings platform world) {run : Run}
    (live : world.runs workerId = some run)
    (held : holdsClaim world.journal.database workerId run.claimed = true) {moment : Moment}
    (recovered : holdsClaim (world.step settings platform
      (.serve moment .recoverAbandoned rfl)).journal.database workerId run.claimed = false) :
    Displaced (world.step settings platform (.serve moment .recoverAbandoned rfl)) workerId
      run.claimed where
  counted := by
    obtain ⟨job, member, holds⟩ := List.any_eq_true.mp held
    refine Displaced.counted_step reachable.sound ⟨job, member, (heldBy_iff.mp holds).1, ?_⟩ _
    exact Nat.le_of_eq (reachable.claimCounted workerId run live job member holds).symm
  lost := by
    intro same sameLive _
    obtain rfl : run = same := Option.some.inj (live.symm.trans sameLive)
    exact ⟨recovered, Holds.unactivated ⟨live, held⟩ reachable.sound⟩

theorem Displaced.path {claimed : ClaimedJob} {later : World}
    (sound : WorldSound settings platform world)
    (displaced : Displaced world workerId claimed)
    (path : World.Path settings platform (fun _ _ => True) world later) :
    WorldSound settings platform later ∧ Displaced later workerId claimed := by
  induction path with
  | refl => exact ⟨sound, displaced⟩
  | tail _ moves ih =>
      obtain ⟨action, _, rfl⟩ := moves
      exact ⟨ih.1.step action, ih.2.step ih.1 action⟩

/-- The calls of a run that lost its claim write index rows unless they are harmless. -/
theorem Displaced.call_iff {run : Run} (sound : WorldSound settings platform world)
    (displaced : Displaced world workerId run.claimed) (live : world.runs workerId = some run)
    {action : Action} (own : ActionOf workerId action) :
    SameIndexRows world.journal.database
        (world.step settings platform action).journal.database ↔
      world.harmless settings action := by
  obtain ⟨unheld, unactivated⟩ := displaced.lost run live rfl
  have jobIds := sound.journal.consistent.jobIds
  have free : ∀ job ∈ world.journal.database.indexingJobs,
      heldBy run.claimed workerId job = false := by
    simpa [holdsClaim] using unheld
  cases committed : world.transaction action with
  | none =>
      have same : (world.step settings platform action).journal = world.journal := by
        simp [World.step, World.journalAfter, committed]
      rw [same]
      refine iff_of_true (.refl _) ?_
      intro moment claimed worker call stored
      simp [committed] at stored
  | some entry =>
      have applied : (world.step settings platform action).journal =
          world.journal.apply settings platform entry.moment entry.operation := by
        simp [World.step, World.journalAfter, committed]
      have called : ∃ call, entry.operation = .store run.claimed workerId call ∧
          ∀ repositoryId indexVersion,
            call ≠ .completeSupersededCleanup repositoryId indexVersion := by
        cases issued_of_transaction committed with
        | served => cases own
        | claimed => cases own
        | asked asker asks =>
            cases own
            obtain rfl := Option.some.inj (live.symm.trans asker)
            refine ⟨_, rfl, ?_⟩
            rintro repositoryId indexVersion rfl
            obtain ⟨activated, _⟩ := (sound.runs workerId _ live).allowed asks
            simp [unactivated] at activated
        | beat beater =>
            cases own
            obtain rfl := Option.some.inj (live.symm.trans beater)
            refine ⟨_, rfl, ?_⟩
            rintro repositoryId indexVersion same
            cases same
      obtain ⟨call, asked, uncleared⟩ := called
      rw [applied]
      have harmless : world.harmless settings action ↔
          call.harmless settings entry.moment.now world.journal.database run.claimed := by
        constructor
        · intro kept
          exact kept entry.moment run.claimed workerId call (by rw [committed, ← asked])
        · intro kept moment claimed worker other same
          obtain rfl := Option.some.inj (committed.symm.trans same)
          cases asked
          exact kept
      have changed : SameIndexRows world.journal.database
          (call.apply settings platform entry.moment run.claimed workerId
            world.journal.database) ↔
          call.harmless settings entry.moment.now world.journal.database run.claimed :=
        unheld_call_iff jobIds free uncleared
      rw [harmless, ← changed]
      simp only [Journal.apply, asked, Operation.apply]

end Step

/-- After the recovery took a worker's claim, a store call of that worker for
that claim changes jobs, repositories, builds, symbols or call edges exactly
when one of the unguarded calls finds something to write. -/
theorem displaced_call_changes {settings : Settings} {platform : Platform} {world later : World}
    {workerId : WorkerId} {run zombie : Run} {moment : Moment}
    (reachable : World.Reachable settings platform world)
    (live : world.runs workerId = some run)
    (held : holdsClaim world.journal.database workerId run.claimed = true)
    (recovered : holdsClaim (world.step settings platform
      (.serve moment .recoverAbandoned rfl)).journal.database workerId run.claimed = false)
    (path : World.Path settings platform (fun _ _ => True)
      (world.step settings platform (.serve moment .recoverAbandoned rfl)) later)
    (still : later.runs workerId = some zombie) (same : zombie.claimed = run.claimed)
    {action : Action} (own : ActionOf workerId action) :
    SameIndexRows later.journal.database
        (later.step settings platform action).journal.database ↔
      later.harmless settings action := by
  have displaced := displaced_of_recovered reachable live held recovered
  obtain ⟨sound, lost⟩ := displaced.path (reachable.sound.step _) path
  exact Displaced.call_iff sound (same ▸ lost) still own

namespace Onboarding

/-- An analysis result without chunks. -/
def emptyAnalysis (indexVersion : Nat) (commitSha : CommitSha) : ProcessingResult where
  repositoryId := 1
  indexVersion := indexVersion
  commitSha := commitSha
  chunkCount := 0
  chunks := []
  graphFingerprint := "digest"
  chunksCounted := rfl
  edgesStamped := no_edges_stamped commitSha

/-- Cloning and analysis succeed; the embedding service is down. -/
def analysed (now : Timestamp) : Outside where
  moment := { now }
  reply
    | .installationToken _ _ => .ok "token"
    | .clone _ _ _ _ => .ok ⟨"checkout", "first"⟩
    | .discover _ => .ok {}
    | .chunking _ | .graphing _ => .ok ()
    | .analysisResult input => .ok (emptyAnalysis input.indexVersion input.commitSha)
    | .store _ => .error .internal
    | .publicRepository _ _ | .comparePublic _ _ _ _ | .compare _ _ _ _ _ => .error .internal
    | .embedDocuments _ | .ensureCollection | .deleteScope _ | .upsert _ _
    | .validateScope _ _ _ _ | .reusableVectors _ _ _ _ _ => .error .internal

/-- The steps of a claimed run up to its stored build. -/
def preparation (workerId : WorkerId) (now : Timestamp) : List Action :=
  List.replicate 14 (.work workerId (analysed now))

def prepared : World :=
  World.run Services.Onboarding.settings Services.Onboarding.platform {}
    (selection 0 ++ [.claim { now := 2 } "first" 1] ++ preparation "first" 3)

def recovered : World :=
  prepared.step Services.Onboarding.settings Services.Onboarding.platform
    (.serve { now := 40000 } .recoverAbandoned runOnly_recoverAbandoned)

/-- A second worker builds the job again; the first one meets the failure of its embedding. -/
def reclaimed : World :=
  recovered.run Services.Onboarding.settings Services.Onboarding.platform
    ([.claim { now := 40001 } "second" 1] ++ preparation "second" 40002 ++
      List.replicate 4 (.work "first" (analysed 40003)))

/-- The next step of the first worker's failure handling. -/
def failureRecorded : World :=
  reclaimed.step Services.Onboarding.settings Services.Onboarding.platform
    (.work "first" (analysed 40003))

def buildStates (world : World) : List (Option JobId × IndexBuildState) :=
  world.journal.database.builds.map fun build => (build.jobId, build.state)

theorem prepared_reachable :
    World.Reachable Services.Onboarding.settings Services.Onboarding.platform prepared :=
  World.Reachable.run .refl _

end Onboarding

open Onboarding in
set_option maxRecDepth 100000 in
/-- The first worker's failure record marks the second worker's build as failed. -/
theorem displaced_cleanup_fails_build :
    World.Reachable Services.Onboarding.settings Services.Onboarding.platform prepared ∧
    holdsClaim prepared.journal.database "first" ⟨1, 1, 1⟩ = true ∧
    holdsClaim recovered.journal.database "first" ⟨1, 1, 1⟩ = false ∧
    (reclaimed.runs "first").map (·.claimed) = some ⟨1, 1, 1⟩ ∧
    (reclaimed.runs "second").map (·.claimed) = some ⟨1, 1, 2⟩ ∧
    holdsClaim reclaimed.journal.database "second" ⟨1, 1, 2⟩ = true ∧
    buildStates reclaimed = [(some 1, .building)] ∧
    buildStates failureRecorded = [(some 1, .failed)] ∧
    ¬ SameIndexRows reclaimed.journal.database failureRecorded.journal.database := by
  have building : buildStates reclaimed = [(some 1, .building)] := by decide
  have failed : buildStates failureRecorded = [(some 1, .failed)] := by decide
  refine ⟨prepared_reachable, by decide, by decide, by decide, by decide, by decide, building,
    failed, ?_⟩
  intro same
  have kept : buildStates failureRecorded = buildStates reclaimed := by
    simp only [buildStates, same.builds]
  rw [building, failed] at kept
  cases kept

open Onboarding in
set_option maxRecDepth 100000 in
theorem displaced_heartbeat_unchanged :
    SameIndexRows reclaimed.journal.database
      (reclaimed.step Services.Onboarding.settings Services.Onboarding.platform
        (.beat { now := 40003 } "first")).journal.database := by
  obtain ⟨run, live, claimed⟩ : ∃ run, prepared.runs "first" = some run ∧
      run.claimed = ⟨1, 1, 1⟩ :=
    Option.map_eq_some_iff.mp (by decide)
  obtain ⟨zombie, still, same⟩ : ∃ zombie, reclaimed.runs "first" = some zombie ∧
      zombie.claimed = ⟨1, 1, 1⟩ :=
    Option.map_eq_some_iff.mp (by decide)
  have held : holdsClaim prepared.journal.database "first" run.claimed = true := by
    rw [claimed]
    decide
  have lost : holdsClaim recovered.journal.database "first" run.claimed = false := by
    rw [claimed]
    decide
  have path : World.Path Services.Onboarding.settings Services.Onboarding.platform
      (fun _ _ => True) recovered reclaimed :=
    World.Path.run _ _ _ _
  refine (displaced_call_changes prepared_reachable live held lost path still
    (same.trans claimed.symm) (.beat _)).mpr ?_
  intro moment own worker call committed
  simp only [World.transaction, still, Option.map_some, Option.some.injEq] at committed
  cases committed
  trivial

end Codenaut.System
