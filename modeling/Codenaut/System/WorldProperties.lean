import Codenaut.ActiveIndex.Properties
import Codenaut.System.World

/-!
# Invariants of the world

What a step can commit, which runs are live after it, and what every live run
has a right to rely on.
-/

set_option autoImplicit false

namespace Codenaut.System

open Codenaut.ActiveIndex Codenaut.Core Codenaut.Db Codenaut.Indexing Codenaut.Interaction
open Codenaut.Relational Codenaut.Services Codenaut.Vector

/-- The job is still RUNNING under this worker's lock. -/
def holdsClaim (db : Database) (workerId : WorkerId) (claimed : ClaimedJob) : Bool :=
  db.indexingJobs.any (heldBy claimed workerId)

theorem holdsClaim_iff {db : Database} {workerId : WorkerId} {claimed : ClaimedJob} :
    holdsClaim db workerId claimed = true ↔ ∃ job ∈ db.indexingJobs, job.id = claimed.id ∧
      job.status = .running ∧ job.lockedBy = some workerId := by
  simp only [holdsClaim, List.any_eq_true, heldBy_iff]

/-! ## What a step does -/

/-- The transaction of an action, with the run that asked for it. -/
inductive Issued (world : World) : Action → Transaction → Prop where
  | served {moment : Moment} {operation : Operation} (outsideRuns : runOnly operation = false) :
      Issued world (.serve moment operation outsideRuns) ⟨moment, operation⟩
  | claimed {moment : Moment} {workerId : WorkerId} {jobId : JobId}
      (idle : world.runs workerId = none) :
      Issued world (.claim moment workerId jobId) ⟨moment, .claim jobId workerId⟩
  | asked {workerId : WorkerId} {outside : Outside} {run : Run} {call : StoreCall}
      {next : Except Failure call.Reply →
        Program Request Request.Reply (Except Failure Unit × RunState)}
      (live : world.runs workerId = some run) (asks : run.program = .ask (.store call) next)
      (committed : outside.commit ≠ .rolledBack) :
      Issued world (.work workerId outside) ⟨outside.moment, .store run.claimed workerId call⟩
  | beat {moment : Moment} {workerId : WorkerId} {run : Run}
      (live : world.runs workerId = some run) :
      Issued world (.beat moment workerId) ⟨moment, .store run.claimed workerId .heartbeat⟩

/-- Where a run that is live after a step comes from. -/
inductive RunStep (settings : Settings) (platform : Platform) (world : World) :
    Action → WorkerId → Run → Prop where
  | kept {action : Action} {workerId : WorkerId} {run : Run}
      (live : world.runs workerId = some run)
      (apart : ∀ outside, action ≠ .work workerId outside) :
      RunStep settings platform world action workerId run
  | started {moment : Moment} {workerId : WorkerId} {jobId : JobId} {claimed : ClaimedJob}
      (idle : world.runs workerId = none)
      (taken : (claim world.journal.database moment.now jobId workerId).1 = some claimed) :
      RunStep settings platform world (.claim moment workerId jobId) workerId
        (Run.start settings platform claimed)
  | advanced {workerId : WorkerId} {outside : Outside} {run : Run} {request : Request}
      {next : request.Reply → Program Request Request.Reply (Except Failure Unit × RunState)}
      (live : world.runs workerId = some run) (asks : run.program = .ask request next) :
      RunStep settings platform world (.work workerId outside) workerId
        (run.advance world.points request next
          (world.reply settings platform workerId run.claimed outside request))

section Step

variable {settings : Settings} {platform : Platform} {world : World} {action : Action}

theorem issued_of_transaction {entry : Transaction}
    (committed : world.transaction action = some entry) : Issued world action entry := by
  cases action with
  | serve moment operation outsideRuns =>
      cases committed
      exact .served outsideRuns
  | claim moment workerId jobId =>
      simp only [World.transaction] at committed
      split at committed
      case isTrue idle =>
          cases committed
          exact .claimed (Option.isNone_iff_eq_none.mp idle)
      case isFalse => cases committed
  | work workerId outside =>
      simp only [World.transaction, Option.bind_eq_some_iff] at committed
      obtain ⟨run, live, committed⟩ := committed
      unfold Run.transaction at committed
      split at committed
      case h_1 call next asks =>
          split at committed
          case isTrue => cases committed
          case isFalse kept =>
              cases committed
              exact .asked live asks kept
      case h_2 => cases committed
  | beat moment workerId =>
      simp only [World.transaction, Option.map_eq_some_iff] at committed
      obtain ⟨run, live, rfl⟩ := committed
      exact .beat live
  | crash workerId => cases committed

/-- A worker with a live run claims no other job. -/
theorem Issued.apart {entry : Transaction} (issued : Issued world action entry)
    {workerId : WorkerId} {run : Run} (live : world.runs workerId = some run) (jobId : JobId) :
    entry.operation ≠ .claim jobId workerId := by
  intro claims
  cases issued with
  | served outsideRuns =>
      subst claims
      cases outsideRuns
  | claimed idle =>
      cases claims
      simp [idle] at live
  | asked => cases claims
  | beat => cases claims

/-- A store call other than a heartbeat is asked for by the worker's run. -/
theorem Issued.asker {entry : Transaction} (issued : Issued world action entry)
    {claimed : ClaimedJob} {workerId : WorkerId} {call : StoreCall}
    (stores : entry.operation = .store claimed workerId call) (other : call ≠ .heartbeat) :
    ∃ outside run next, action = .work workerId outside ∧ world.runs workerId = some run ∧
      run.claimed = claimed ∧ run.program = .ask (.store call) next := by
  cases issued with
  | served outsideRuns =>
      subst stores
      cases outsideRuns
  | claimed => cases stores
  | beat =>
      cases stores
      exact (other rfl).elim
  | asked live asks =>
      cases stores
      exact ⟨_, _, _, rfl, live, rfl, asks⟩

/-- A step applies one issued transaction to the journal, or none. -/
theorem step_journal (settings : Settings) (platform : Platform) (world : World)
    (action : Action) :
    (world.step settings platform action).journal = world.journal ∨
      ∃ entry, Issued world action entry ∧
        (world.step settings platform action).journal =
          world.journal.apply settings platform entry.moment entry.operation := by
  simp only [World.step, World.journalAfter]
  cases committed : world.transaction action with
  | none => exact .inl rfl
  | some entry => exact .inr ⟨entry, issued_of_transaction committed, rfl⟩

theorem step_runs {workerId : WorkerId} {run : Run}
    (live : (world.step settings platform action).runs workerId = some run) :
    RunStep settings platform world action workerId run := by
  simp only [World.step] at live
  cases action with
  | serve moment operation outsideRuns => exact .kept live fun _ => nofun
  | beat moment worker => exact .kept live fun _ => nofun
  | crash worker =>
      simp only [World.runsAfter, Function.update_apply] at live
      split at live
      · cases live
      · exact .kept live fun _ => nofun
  | claim moment worker jobId =>
      simp only [World.runsAfter] at live
      split at live
      case isFalse => exact .kept live fun _ => nofun
      case isTrue idle =>
          rw [Function.update_apply] at live
          split at live
          case isFalse => exact .kept live fun _ => nofun
          case isTrue same =>
              subst same
              simp only [World.claimedRun, Option.map_eq_some_iff] at live
              obtain ⟨claimed, taken, rfl⟩ := live
              exact .started (Option.isNone_iff_eq_none.mp idle) taken
  | work worker outside =>
      simp only [World.runsAfter, Function.update_apply] at live
      split at live
      case isFalse apart =>
          refine .kept live ?_
          rintro other ⟨⟩
          exact apart rfl
      case isTrue same =>
          subst same
          simp only [Option.bind_eq_some_iff] at live
          obtain ⟨before, started, live⟩ := live
          unfold World.runAfter at live
          split at live
          · cases live
          case h_2 request next asks =>
              cases live
              exact .advanced started asks

end Step

end Codenaut.System
