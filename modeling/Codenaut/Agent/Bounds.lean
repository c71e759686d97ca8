import Codenaut.Agent.Service
import Codenaut.Agent.ToolsProperties

/-!
# Bounds of an agent run

Whatever the provider decides and the backends return: the trace is bounded and
numbered, no call is executed twice, accepted results keep the size limits,
evidence identifiers are distinct, and an answer cites evidence of the run.
-/

set_option autoImplicit false

namespace Codenaut.Agent

open Codenaut.Core Codenaut.Db Codenaut.Interaction Codenaut.Rag

/-! ## Events -/

/-- The requests for a decision. -/
def decisions (history : List QuestionEvent) : Nat :=
  history.countP fun event => match event.1 with
    | .decide _ => true
    | _ => false

/-- The tool calls that were executed. -/
def entered (history : List QuestionEvent) : List (AgentToolName × AgentToolArguments) :=
  history.filterMap fun event => match event.1 with
    | .enter tool arguments _ => some (tool, arguments)
    | _ => none

/-- Requests that are neither a decision nor a tool call. -/
def Quiet : QuestionRequest → Prop
  | .decide _ | .enter .. => False
  | _ => True

theorem quiet_of_toolRequest (request : QuestionRequest) (asked : ToolRequest request) :
    Quiet request := by
  cases request with
  | decide | enter => exact asked
  | authorize | loadBuild | generate | embedQuery | searchVectors | publicHistory
  | authorizedInstallation | installationToken | repositoryHistory | graphBuild | callerTargets
  | callerRows => exact trivial

section Growth

variable {history seen : List QuestionEvent}

theorem Extends.decisions_eq (grown : Extends Quiet history seen) :
    decisions seen = decisions history := by
  obtain ⟨events, rfl, quiet⟩ := grown
  unfold decisions
  rw [List.countP_append, List.countP_eq_zero.mpr, Nat.zero_add]
  intro event member
  have silent := quiet event member
  obtain ⟨request, reply⟩ := event
  cases request <;> simp_all [Quiet]

theorem Extends.entered_eq (grown : Extends Quiet history seen) :
    entered seen = entered history := by
  obtain ⟨events, rfl, quiet⟩ := grown
  unfold entered
  rw [List.filterMap_append, List.filterMap_eq_nil_iff.mpr, List.nil_append]
  intro event member
  have silent := quiet event member
  obtain ⟨request, reply⟩ := event
  cases request <;> simp_all [Quiet]

end Growth

/-! ## Quiet tasks -/

section QuietTasks

variable {Locals : Type} {state : Locals}

theorem authorizedRepository_calls (call : QuestionCall) (site : CheckSite) :
    Task.Calls Quiet state (authorizedRepository call site) fun _ => True := by
  apply Task.calls_bind (Task.calls_ask (by trivial))
  exact fun reply _ => calls_raising reply

theorem loadActiveBuild_calls (site : CheckSite) (repository : Repository) :
    Task.Calls Quiet state (loadActiveBuild site repository) fun _ => True := by
  unfold loadActiveBuild
  split
  · exact Task.calls_pure trivial
  · apply Task.calls_bind (Task.calls_ask (by trivial))
    exact fun reply _ => calls_raising reply

end QuietTasks

theorem loadIndex_calls {locals : AgentLocals} (site : CheckSite) (repository : Repository) :
    Task.Calls Quiet locals (loadIndex site repository) fun _ => True := by
  apply Task.calls_bind (loadActiveBuild_calls site repository)
  exact fun build _ => Task.calls_pure trivial

theorem refreshAuthorization_calls {locals : AgentLocals} (call : QuestionCall)
    (active : ActiveIndex) (site : CheckSite) :
    Task.Calls Quiet locals (refreshAuthorization call active site) fun _ => True := by
  apply Task.calls_bind Task.calls_get
  rintro _ rfl
  split
  · exact Task.calls_throw
  · apply Task.calls_bind (authorizedRepository_calls call site)
    intro current _
    apply Task.calls_bind (loadIndex_calls site current)
    intro currentActive _
    split <;> exact Task.calls_pure trivial

theorem validateEvidenceSize_calls {permitted : QuestionRequest → Prop} {locals : AgentLocals}
    (settings : Settings) (encodedSize totalEvidenceBytes : Nat) :
    Task.Calls permitted locals (validateEvidenceSize settings encodedSize totalEvidenceBytes)
      fun _ => encodedSize ≤ settings.agentMaxToolResultBytes ∧
        totalEvidenceBytes + encodedSize ≤ settings.agentMaxTotalEvidenceBytes := by
  unfold validateEvidenceSize
  split
  · exact Task.calls_throw
  · split
    · exact Task.calls_throw
    · exact Task.calls_pure ⟨by omega, by omega⟩

/-! ## Grounded answers -/

/-- The result reports the trace, and an answer cites evidence of the run. -/
structure Grounded (locals : AgentLocals) (result : AgentRunResult) : Prop where
  trace : result.trace = locals.trace
  cited : result.answerability = .answered ∨ result.answerability = .partiallyAnswered →
    result.evidence = locals.evidence ∧ result.citedEvidenceIds ≠ [] ∧
      result.citedEvidenceIds.Sublist (locals.evidence.map (·.evidenceId))

/-- A result that answers nothing. -/
theorem grounded_noAnswer (locals : AgentLocals) (repositoryId : RepositoryId)
    {state : Answerability} (unanswered : state ≠ .answered ∧ state ≠ .partiallyAnswered)
    (active : Option ActiveIndex) (repository : Option Repository) (count : Nat) :
    Grounded locals (noAnswer repositoryId state active repository count locals.trace) where
  trace := rfl
  cited := by
    rintro (answered | answered)
    · exact absurd answered unanswered.1
    · exact absurd answered unanswered.2

/-- Citations of an answer are identifiers of evidence, at least one, in order. -/
theorem citedIds_grounded {state : Answerability} {cited ordered : List String}
    {evidence : List AgentEvidence} (chosen : citedIds state cited evidence = some ordered)
    (answered : state = .answered ∨ state = .partiallyAnswered) :
    ordered ≠ [] ∧ ordered.Sublist (evidence.map (·.evidenceId)) := by
  simp only [citedIds, if_pos answered] at chosen
  split at chosen
  case isTrue => cases chosen
  case isFalse named =>
    obtain rfl := Option.some.inj chosen
    simp only [not_or] at named
    refine ⟨?_, List.filter_sublist⟩
    obtain ⟨nonempty, known⟩ := named
    obtain ⟨first, rest, rfl⟩ := List.exists_cons_of_ne_nil nonempty
    have stored : first ∈ evidence.map (·.evidenceId) := by
      by_contra missing
      have unknown : (!(evidence.map (·.evidenceId)).contains first) = true := by
        rw [List.contains_eq_mem, decide_eq_false missing]
        rfl
      exact known (List.any_eq_true.mpr ⟨first, .head _, unknown⟩)
    exact List.ne_nil_of_mem (List.mem_filter.mpr ⟨stored, by simp⟩)

theorem finalize_calls (locals : AgentLocals) (call : QuestionCall) (active : ActiveIndex)
    (decision : AgentDecision) :
    Task.Calls Quiet locals (finalize call active decision) (Grounded locals) := by
  apply Task.calls_bind Task.calls_get
  rintro _ rfl
  split
  · exact Task.calls_throw
  · apply Task.calls_bind (authorizedRepository_calls call .final)
    intro finalRepository _
    apply Task.calls_bind (loadIndex_calls .final finalRepository)
    intro finalActive _
    apply Task.calls_bind Task.calls_get
    rintro _ rfl
    split
    · exact Task.calls_pure (grounded_noAnswer _ _ (by decide) _ _ _)
    · simp only
      split
      · exact Task.calls_pure (grounded_noAnswer _ _ (by decide) _ _ _)
      case h_2 orderedIds chosen =>
        refine Task.calls_pure ⟨rfl, fun answered => ⟨rfl, ?_⟩⟩
        exact citedIds_grounded chosen answered

/-! ## The invariant of the loop -/

/-- The accepted results of a run: in order they are its evidence, and their
serialised sizes keep both limits. -/
structure Accepted (settings : Settings) (platform : QuestionPlatform) (locals : AgentLocals)
    (results : List (List AgentEvidence)) : Prop where
  evidence : locals.evidence = results.flatten
  sizes : ∀ result ∈ results, encodedSize platform result ≤ settings.agentMaxToolResultBytes
  total : locals.totalEvidenceBytes = (results.map (encodedSize platform)).sum
  within : locals.totalEvidenceBytes ≤ settings.agentMaxTotalEvidenceBytes
  counted : results.map List.length =
    (locals.trace.filter (·.status == .completed)).map (·.resultCount)

/-- What holds of the local variables and the history between two statements. -/
structure LoopInvariant (settings : Settings) (platform : QuestionPlatform)
    (history : List QuestionEvent) (locals : AgentLocals) : Prop where
  numbered : locals.trace.map (·.step) = List.range' 1 locals.trace.length
  remembered : ∀ entry ∈ entered history,
    safeArgumentFingerprint platform.toPlatform entry.1 entry.2 ∈ locals.fingerprints
  once : (entered history).Nodup
  distinct : (locals.evidence.map (·.evidenceId)).Nodup
  named : ∀ item ∈ locals.evidence,
    ∃ step, step ≤ locals.trace.length ∧ StepNamed step item.evidenceId
  accepted : ∃ results, Accepted settings platform locals results

/-- A decision is asked for within the budget, and no call is entered twice. -/
def WithinBudget (settings : Settings) (history : List QuestionEvent) : QuestionRequest → Prop
  | .decide _ => decisions history < settings.agentMaxToolCalls
  | .enter tool arguments _ => (tool, arguments) ∉ entered history
  | _ => True

abbrev budgetContract (settings : Settings) :
    Contract (List QuestionEvent) QuestionRequest QuestionReply :=
  historyContract (WithinBudget settings)

namespace LoopInvariant

variable {settings : Settings} {platform : QuestionPlatform} {history seen : List QuestionEvent}
  {locals : AgentLocals}

theorem start : LoopInvariant settings platform [] {} where
  numbered := rfl
  remembered := by simp [entered]
  once := List.nodup_nil
  distinct := List.nodup_nil
  named := by simp
  accepted := ⟨[], rfl, by simp, rfl, Nat.zero_le _, rfl⟩

theorem regrown (holds : LoopInvariant settings platform history locals)
    (same : entered seen = entered history) : LoopInvariant settings platform seen locals where
  numbered := holds.numbered
  remembered := same ▸ holds.remembered
  once := same ▸ holds.once
  distinct := holds.distinct
  named := holds.named
  accepted := holds.accepted

theorem authorized (holds : LoopInvariant settings platform history locals)
    (repository : Repository) :
    LoopInvariant settings platform history { locals with repository := some repository } where
  numbered := holds.numbered
  remembered := holds.remembered
  once := holds.once
  distinct := holds.distinct
  named := holds.named
  accepted := by
    obtain ⟨results, accepted⟩ := holds.accepted
    exact ⟨results, accepted.evidence, accepted.sizes, accepted.total, accepted.within,
      accepted.counted⟩

theorem remember (holds : LoopInvariant settings platform history locals) (fingerprint : String) :
    LoopInvariant settings platform history
      { locals with fingerprints := fingerprint :: locals.fingerprints } where
  numbered := holds.numbered
  remembered := fun entry member => .tail _ (holds.remembered entry member)
  once := holds.once
  distinct := holds.distinct
  named := holds.named
  accepted := by
    obtain ⟨results, accepted⟩ := holds.accepted
    exact ⟨results, accepted.evidence, accepted.sizes, accepted.total, accepted.within,
      accepted.counted⟩

/-- A call whose fingerprint is new to the run, once it is remembered. -/
theorem enter (holds : LoopInvariant settings platform history locals) {tool : AgentToolName}
    {arguments : AgentToolArguments} (step : Nat)
    (remembered : safeArgumentFingerprint platform.toPlatform tool arguments ∈
      locals.fingerprints)
    (fresh : (tool, arguments) ∉ entered history) :
    LoopInvariant settings platform (⟨.enter tool arguments step, ()⟩ :: history) locals where
  numbered := holds.numbered
  remembered := by
    intro entry member
    rcases List.mem_cons.mp member with rfl | earlier
    · exact remembered
    · exact holds.remembered entry earlier
  once := List.nodup_cons.mpr ⟨fresh, holds.once⟩
  distinct := holds.distinct
  named := holds.named
  accepted := holds.accepted

theorem numbered_snoc (holds : LoopInvariant settings platform history locals)
    (added : AgentTraceStep) (next : added.step = locals.trace.length + 1) :
    (locals.trace ++ [added]).map (·.step) = List.range' 1 (locals.trace ++ [added]).length := by
  rw [List.map_append, holds.numbered, List.length_append, List.length_singleton,
    List.range'_1_concat]
  simp [next, Nat.add_comm]

/-- A step that gathers nothing. -/
theorem unsuccessful (holds : LoopInvariant settings platform history locals)
    {changed : AgentLocals} {added : AgentTraceStep}
    (trace : changed.trace = locals.trace ++ [added]) (next : added.step = locals.trace.length + 1)
    (incomplete : added.status ≠ .completed) (evidence : changed.evidence = locals.evidence)
    (fingerprints : changed.fingerprints = locals.fingerprints)
    (bytes : changed.totalEvidenceBytes = locals.totalEvidenceBytes) :
    LoopInvariant settings platform history changed where
  numbered := by
    rw [trace]
    exact holds.numbered_snoc added next
  remembered := fingerprints ▸ holds.remembered
  once := holds.once
  distinct := evidence ▸ holds.distinct
  named := by
    intro item member
    obtain ⟨step, bounded, named⟩ := holds.named item (evidence ▸ member)
    refine ⟨step, ?_, named⟩
    rw [trace, List.length_append]
    omega
  accepted := by
    obtain ⟨results, accepted⟩ := holds.accepted
    refine ⟨results, ?_⟩
    constructor
    · rw [evidence]
      exact accepted.evidence
    · exact accepted.sizes
    · rw [bytes]
      exact accepted.total
    · rw [bytes]
      exact accepted.within
    · rw [trace, List.filter_append, accepted.counted]
      simp [incomplete]

/-- A step whose result is accepted. -/
theorem accept (holds : LoopInvariant settings platform history locals) {tool : AgentToolName}
    {fingerprint : String} {result : List AgentEvidence}
    (evidence : StepEvidence (locals.trace.length + 1) result)
    (size : encodedSize platform result ≤ settings.agentMaxToolResultBytes)
    (total : locals.totalEvidenceBytes + encodedSize platform result ≤
      settings.agentMaxTotalEvidenceBytes) :
    LoopInvariant settings platform history
      (locals.accept tool fingerprint result (encodedSize platform result)) where
  numbered := holds.numbered_snoc _ rfl
  remembered := holds.remembered
  once := holds.once
  distinct := by
    -- the new items are named after a step that no earlier item is named after
    simp only [AgentLocals.accept, List.map_append]
    apply List.nodup_append.mpr
    refine ⟨holds.distinct, evidence.distinct, ?_⟩
    intro earlier earlierMember later laterMember same
    obtain ⟨item, stored, rfl⟩ := List.mem_map.mp earlierMember
    obtain ⟨next, new, rfl⟩ := List.mem_map.mp laterMember
    obtain ⟨step, bounded, named⟩ := holds.named item stored
    have steps := named.step_eq (same ▸ evidence.named next new)
    omega
  named := by
    intro item member
    have longer : (locals.accept tool fingerprint result
        (encodedSize platform result)).trace.length = locals.trace.length + 1 := by
      simp [AgentLocals.accept]
    rcases List.mem_append.mp member with old | new
    · obtain ⟨step, bounded, named⟩ := holds.named item old
      exact ⟨step, by omega, named⟩
    · exact ⟨locals.trace.length + 1, by omega, evidence.named item new⟩
  accepted := by
    obtain ⟨results, accepted⟩ := holds.accepted
    refine ⟨results ++ [result], ?_⟩
    constructor
    · simp [AgentLocals.accept, accepted.evidence]
    · intro other member
      rcases List.mem_append.mp member with old | new
      · exact accepted.sizes other old
      · exact List.mem_singleton.mp new ▸ size
    · simp [AgentLocals.accept, accepted.total]
    · simpa [AgentLocals.accept] using total
    · simp [AgentLocals.accept, accepted.counted, traceStep]

end LoopInvariant

/-! ## One iteration -/

section Iteration

variable {settings : QuestionSettings} {platform : QuestionPlatform} {call : QuestionCall}
  {active : ActiveIndex} {history : List QuestionEvent} {locals : AgentLocals}

/-- A quiet task keeps the invariant, the local variables and the counts. -/
theorem quiet_holds {Result : Type} {task : AgentTask Result} {post : Result → Prop}
    (calls : Task.Calls Quiet locals task post)
    (holds : LoopInvariant settings.toSettings platform history locals) :
    task.Holds (budgetContract settings.toSettings) history locals fun seen left result =>
      LoopInvariant settings.toSettings platform seen locals ∧ left = locals ∧
        decisions seen = decisions history ∧ entered seen = entered history ∧
        ∀ value, result = .ok value → post value := by
  have covers : ∀ (seen : List QuestionEvent) (request : QuestionRequest),
      Extends Quiet history seen → Quiet request →
        WithinBudget settings.toSettings seen request := by
    intro seen request _ quiet
    cases request with
    | decide | enter => exact quiet.elim
    | authorize | loadBuild | generate | embedQuery | searchVectors | publicHistory
    | authorizedInstallation | installationToken | repositoryHistory | graphBuild
    | callerTargets | callerRows => exact trivial
  apply (calls.holds covers).mono
  rintro seen left result ⟨grown, rfl, ends⟩
  exact ⟨holds.regrown (Extends.entered_eq grown), rfl, Extends.decisions_eq grown,
    Extends.entered_eq grown, ends⟩

/-- What an attempt leaves. An accepted result is of the step and keeps both limits. -/
structure AttemptEnds (settings : Settings) (platform : QuestionPlatform)
    (trace : List AgentTraceStep) (fingerprints : List String) (asked : Nat)
    (seen : List QuestionEvent) (left : AgentLocals) (result : Except Raised Attempt) : Prop where
  holds : LoopInvariant settings platform seen left
  traceKept : left.trace = trace
  remembered : left.fingerprints = fingerprints
  counted : decisions seen = asked
  accepted : ∀ evidence size, result = .ok (.accepted evidence size) →
    size = encodedSize platform evidence ∧ StepEvidence (trace.length + 1) evidence ∧
      size ≤ settings.agentMaxToolResultBytes ∧
      left.totalEvidenceBytes + size ≤ settings.agentMaxTotalEvidenceBytes
  failedStatus : ∀ status code, result = .ok (.failed status code) → status ≠ .completed

theorem attemptBody_holds (tool : AgentToolName) (arguments : AgentToolArguments)
    (holds : LoopInvariant settings.toSettings platform history locals)
    (remembered : safeArgumentFingerprint platform.toPlatform tool arguments ∈
      locals.fingerprints)
    (fresh : (tool, arguments) ∉ entered history) :
    (attemptBody settings platform call active tool arguments (locals.trace.length + 1)).Holds
      (budgetContract settings.toSettings) history locals
      (AttemptEnds settings.toSettings platform locals.trace locals.fingerprints
        (decisions history)) := by
  apply Task.holds_bind
  apply (quiet_holds (refreshAuthorization_calls call active .tool) holds).mono
  rintro seen current result ⟨kept, rfl, asked, same, -⟩
  have unentered : (tool, arguments) ∉ entered seen := same ▸ fresh
  cases result with
  | error raised => exact ⟨kept, rfl, rfl, asked, by simp, by simp⟩
  | ok refreshed =>
      cases refreshed with
      | none => exact Task.holds_pure ⟨kept, rfl, rfl, asked, by simp, by simp⟩
      | some repository =>
          apply Task.holds_bind
          apply Task.holds_modify
          have authorized := kept.authorized repository
          apply Task.holds_bind
          apply Task.holds_bind
          refine Task.holds_ask unentered fun _ => ?_
          have entering := authorized.enter (current.trace.length + 1) remembered unentered
          apply (quiet_holds ((toolBody_calls settings platform _ arguments _ tool).permit
            quiet_of_toolRequest) entering).mono
          rintro later _ result ⟨invariant, rfl, counted, -, ends⟩
          cases result with
          | error raised => exact ⟨invariant, rfl, rfl, counted.trans asked, by simp, by simp⟩
          | ok evidence =>
              apply Task.holds_bind
              apply Task.holds_get
              apply Task.holds_bind
              apply (quiet_holds (validateEvidenceSize_calls settings.toSettings _ _)
                invariant).mono
              rintro last _ result ⟨invariant, rfl, recounted, -, limits⟩
              cases result with
              | error raised =>
                  exact ⟨invariant, rfl, rfl, recounted.trans (counted.trans asked), by simp,
                    by simp⟩
              | ok =>
                  apply Task.holds_pure
                  refine ⟨invariant, rfl, rfl, recounted.trans (counted.trans asked), ?_, by simp⟩
                  intro accepted size same
                  obtain ⟨rfl, rfl⟩ := Attempt.accepted.inj (Except.ok.inj same)
                  exact ⟨rfl, ends _ rfl, limits () rfl⟩

theorem attemptTool_holds (tool : AgentToolName) (arguments : AgentToolArguments)
    (holds : LoopInvariant settings.toSettings platform history locals)
    (remembered : safeArgumentFingerprint platform.toPlatform tool arguments ∈
      locals.fingerprints)
    (fresh : (tool, arguments) ∉ entered history) :
    (attemptTool settings platform call active tool arguments (locals.trace.length + 1)).Holds
      (budgetContract settings.toSettings) history locals
      (AttemptEnds settings.toSettings platform locals.trace locals.fingerprints
        (decisions history)) := by
  apply Task.holds_tryCatch
  apply (attemptBody_holds tool arguments holds remembered fresh).mono
  intro seen left result ends
  cases result with
  | ok attempt => exact ends
  | error raised =>
      cases raised with
      | timeout | tool | indexing =>
          exact Task.holds_pure ⟨ends.holds, ends.traceKept, ends.remembered, ends.counted,
            by simp, by rintro _ _ ⟨⟩; decide⟩
      | cancelled | value | access | github | provider | database | other =>
          exact Task.holds_throw ⟨ends.holds, ends.traceKept, ends.remembered, ends.counted,
            by simp, by simp⟩

/-- What an iteration that found `before` steps in the trace leaves. -/
structure StepEnds (settings : Settings) (platform : QuestionPlatform) (before : Nat)
    (seen : List QuestionEvent) (left : AgentLocals) (result : Except Raised Flow) : Prop where
  holds : LoopInvariant settings platform seen left
  asked : decisions seen ≤ before + 1
  steps : left.trace.length ≤ before + 1
  next : result = .ok .next → left.trace.length = before + 1 ∧ decisions seen = before + 1
  finish : ∀ answered, result = .ok (.finish answered) → Grounded left answered

theorem toolStep_holds (tool : AgentToolName) (arguments : AgentToolArguments)
    (holds : LoopInvariant settings.toSettings platform history locals)
    (asked : decisions history = locals.trace.length + 1) :
    (toolStep settings platform call active tool arguments).Holds
      (budgetContract settings.toSettings) history locals
      (StepEnds settings.toSettings platform locals.trace.length) := by
  apply Task.holds_bind
  apply Task.holds_get
  apply Task.holds_bind
  apply Task.holds_get
  simp only
  split
  · apply Task.holds_bind
    apply Task.holds_modify
    apply Task.holds_pure
    constructor
    · exact holds.unsuccessful rfl rfl (by simp [traceStep]) rfl rfl rfl
    · exact Nat.le_of_eq asked
    · simp [AgentLocals.reject]
    · simp
    · simp
  case isFalse unknown =>
    have fresh : (tool, arguments) ∉ entered history := by
      intro member
      have known := holds.remembered _ member
      exact unknown (by simpa using known)
    apply Task.holds_bind
    apply Task.holds_modify
    apply Task.holds_bind
    have remembering := holds.remember
      (safeArgumentFingerprint platform.toPlatform tool arguments)
    apply (attemptTool_holds tool arguments remembering (.head _) fresh).mono
    intro seen left result ends
    have counted := ends.counted.trans asked
    have length : left.trace.length = locals.trace.length := congrArg List.length ends.traceKept
    cases result with
    | error raised =>
        exact ⟨ends.holds, Nat.le_of_eq counted, by omega, by simp, by simp⟩
    | ok attempt =>
        cases attempt with
        | unauthorized =>
            apply Task.holds_bind
            apply Task.holds_get
            apply Task.holds_pure
            refine ⟨ends.holds, Nat.le_of_eq counted, by omega, by simp, ?_⟩
            intro answered same
            obtain rfl := Flow.finish.inj (Except.ok.inj same)
            exact grounded_noAnswer left _ (by decide) _ _ _
        | failed status code =>
            apply Task.holds_bind
            apply Task.holds_modify
            apply Task.holds_pure
            have incomplete : status ≠ .completed := ends.failedStatus status code rfl
            refine ⟨ends.holds.unsuccessful rfl rfl incomplete rfl rfl rfl,
              Nat.le_of_eq counted, ?_, fun _ => ⟨?_, counted⟩, by simp⟩
            · simp [AgentLocals.fail, length]
            · simp [AgentLocals.fail, length]
        | accepted evidence size =>
            obtain ⟨rfl, ofStep, small, within⟩ := ends.accepted _ _ rfl
            apply Task.holds_bind
            apply Task.holds_modify
            apply Task.holds_pure
            have named : StepEvidence (left.trace.length + 1) evidence := length ▸ ofStep
            refine ⟨ends.holds.accept named small within, Nat.le_of_eq counted, ?_,
              fun _ => ⟨?_, counted⟩, by simp⟩
            · simp [AgentLocals.accept, length]
            · simp [AgentLocals.accept, length]

theorem askProvider_holds (holds : LoopInvariant settings.toSettings platform history locals)
    (asked : decisions history = locals.trace.length)
    (room : locals.trace.length < settings.agentMaxToolCalls) :
    (askProvider settings.toSettings call).Holds (budgetContract settings.toSettings) history
      locals fun seen left _ =>
        LoopInvariant settings.toSettings platform seen left ∧ left = locals ∧
          decisions seen = locals.trace.length + 1 := by
  apply Task.holds_bind
  apply Task.holds_get
  apply Task.holds_tryCatch
  apply Task.holds_bind
  refine Task.holds_ask (show decisions history < _ by omega) fun reply => ?_
  -- the request adds one decision and enters no tool
  have grown : ∀ payload (answer : Except Raised AgentDecision),
      LoopInvariant settings.toSettings platform (⟨.decide payload, answer⟩ :: history) locals ∧
        decisions (⟨.decide payload, answer⟩ :: history) = locals.trace.length + 1 :=
    fun payload answer => ⟨holds.regrown rfl, by rw [← asked]; simp [decisions]⟩
  obtain ⟨invariant, counted⟩ := grown _ reply
  cases reply with
  | ok decision =>
      apply Task.holds_bind
      apply Task.holds_pure
      exact Task.holds_pure ⟨invariant, rfl, counted⟩
  | error raised =>
      apply Task.holds_bind
      apply Task.holds_throw
      cases raised with
      | provider | timeout => exact Task.holds_pure ⟨invariant, rfl, counted⟩
      | cancelled | tool | indexing | value | access | github | database | other =>
          exact Task.holds_throw ⟨invariant, rfl, counted⟩

theorem decideStep_holds (holds : LoopInvariant settings.toSettings platform history locals)
    (asked : decisions history = locals.trace.length)
    (room : locals.trace.length < settings.agentMaxToolCalls) :
    (decideStep settings platform call active).Holds (budgetContract settings.toSettings) history
      locals (StepEnds settings.toSettings platform locals.trace.length) := by
  apply Task.holds_bind
  apply (askProvider_holds holds asked room).mono
  rintro seen left result ⟨invariant, rfl, counted⟩
  have silent : ∀ answered : AgentRunResult, Grounded left answered →
      StepEnds settings.toSettings platform left.trace.length seen left
        (.ok (.finish answered)) := by
    intro answered grounded
    refine ⟨invariant, Nat.le_of_eq counted, Nat.le_succ _, by simp, ?_⟩
    intro other same
    obtain rfl := Flow.finish.inj (Except.ok.inj same)
    exact grounded
  cases result with
  | error raised =>
      exact ⟨invariant, Nat.le_of_eq counted, Nat.le_succ _, by simp, by simp⟩
  | ok answer =>
      cases answer with
      | none =>
          apply Task.holds_bind
          apply Task.holds_get
          exact Task.holds_pure (silent _ (grounded_noAnswer left _ (by decide) _ _ _))
      | some decision =>
          simp only
          split
          · apply Task.holds_bind
            apply (quiet_holds (finalize_calls left call active decision) invariant).mono
            rintro later _ result ⟨kept, rfl, recounted, -, ends⟩
            have total := recounted.trans counted
            cases result with
            | error raised =>
                exact ⟨kept, Nat.le_of_eq total, Nat.le_succ _, by simp, by simp⟩
            | ok answered =>
                apply Task.holds_pure
                refine ⟨kept, Nat.le_of_eq total, Nat.le_succ _, by simp, ?_⟩
                intro other same
                obtain rfl := Flow.finish.inj (Except.ok.inj same)
                exact ends _ rfl
          · split
            · apply Task.holds_bind
              apply Task.holds_get
              exact Task.holds_pure (silent _ (grounded_noAnswer left _ (by decide) _ _ _))
            · exact toolStep_holds _ _ invariant counted

theorem iteration_holds (holds : LoopInvariant settings.toSettings platform history locals)
    (asked : decisions history = locals.trace.length)
    (room : locals.trace.length < settings.agentMaxToolCalls) :
    (iteration settings platform call active).Holds (budgetContract settings.toSettings) history
      locals (StepEnds settings.toSettings platform locals.trace.length) := by
  apply Task.holds_bind
  apply Task.holds_get
  simp only
  split
  · exact decideStep_holds holds asked room
  · apply Task.holds_bind
    apply (quiet_holds (refreshAuthorization_calls call active .evidence) holds).mono
    rintro seen left result ⟨kept, rfl, counted, -, -⟩
    have total := counted.trans asked
    cases result with
    | error raised => exact ⟨kept, by omega, Nat.le_succ _, by simp, by simp⟩
    | ok refreshed =>
        cases refreshed with
        | none =>
            apply Task.holds_bind
            apply Task.holds_get
            apply Task.holds_pure
            refine ⟨kept, by omega, Nat.le_succ _, by simp, ?_⟩
            intro answered same
            obtain rfl := Flow.finish.inj (Except.ok.inj same)
            exact grounded_noAnswer left _ (by decide) _ _ _
        | some repository =>
            apply Task.holds_bind
            apply Task.holds_modify
            exact decideStep_holds (kept.authorized repository) total room

/-! ## The run -/

/-- What a run leaves, with or without a result. -/
structure RunEnds (settings : Settings) (platform : QuestionPlatform) (seen : List QuestionEvent)
    (left : AgentLocals) (result : Except Raised AgentRunResult) : Prop where
  holds : LoopInvariant settings platform seen left
  asked : decisions seen ≤ settings.agentMaxToolCalls
  steps : left.trace.length ≤ settings.agentMaxToolCalls
  result : ∀ answered, result = .ok answered → Grounded left answered ∨
    answered.trace = [] ∧ answered.answerability ≠ .answered ∧
      answered.answerability ≠ .partiallyAnswered

theorem exhausted_holds {contract : Contract (List QuestionEvent) QuestionRequest QuestionReply}
    {post : List QuestionEvent → AgentLocals → Except Raised AgentRunResult → Prop}
    (ends : ∀ answered, Grounded locals answered → post history locals (.ok answered)) :
    (exhausted call active).Holds contract history locals post := by
  apply Task.holds_bind
  apply Task.holds_get
  apply Task.holds_pure
  apply ends
  apply grounded_noAnswer
  split <;> decide

/-- The loop, by induction on the iterations that remain. -/
theorem agentLoop_holds (remaining : Nat) :
    ∀ {history : List QuestionEvent} {locals : AgentLocals},
      LoopInvariant settings.toSettings platform history locals →
      decisions history = locals.trace.length →
      locals.trace.length + remaining = settings.agentMaxToolCalls →
      (agentLoop settings platform call active remaining).Holds
        (budgetContract settings.toSettings) history locals
        (RunEnds settings.toSettings platform) := by
  induction remaining with
  | zero =>
      intro history locals holds asked budget
      refine exhausted_holds fun answered grounded => ⟨holds, by omega, by omega, ?_⟩
      intro other same
      obtain rfl := Except.ok.inj same
      exact .inl grounded
  | succ remaining ih =>
      intro history locals holds asked budget
      apply Task.holds_bind
      apply (iteration_holds holds asked (by omega)).mono
      intro seen left result ends
      have fewAsked := ends.asked
      have fewSteps := ends.steps
      cases result with
      | error raised => exact ⟨ends.holds, by omega, by omega, by simp⟩
      | ok flow =>
          cases flow with
          | next =>
              obtain ⟨length, counted⟩ := ends.next rfl
              exact ih ends.holds (by omega) (by omega)
          | stop =>
              refine exhausted_holds fun answered grounded => ⟨ends.holds, by omega, by omega, ?_⟩
              intro other same
              obtain rfl := Except.ok.inj same
              exact .inl grounded
          | finish answered =>
              refine Task.holds_pure ⟨ends.holds, by omega, by omega, ?_⟩
              intro other same
              obtain rfl := Except.ok.inj same
              exact .inl (ends.finish _ rfl)

theorem runAgent_holds :
    (runAgent settings platform call).Holds (budgetContract settings.toSettings) [] {}
      (RunEnds settings.toSettings platform) := by
  have start : LoopInvariant settings.toSettings platform [] {} := .start
  apply Task.holds_bind
  apply (quiet_holds (authorizedRepository_calls call .initial) start).mono
  rintro seen _ result ⟨kept, rfl, counted, -, -⟩
  have none : decisions seen = 0 := counted
  cases result with
  | error raised => exact ⟨kept, by omega, Nat.zero_le _, by simp⟩
  | ok repository =>
      apply Task.holds_bind
      apply Task.holds_modify
      apply Task.holds_bind
      apply (quiet_holds (loadIndex_calls .initial repository)
        (kept.authorized repository)).mono
      rintro later _ result ⟨invariant, rfl, recounted, -, -⟩
      have stillNone : decisions later = 0 := recounted.trans none
      have silent : ∀ answered : AgentRunResult, answered.trace = [] ∧
          answered.answerability ≠ .answered ∧ answered.answerability ≠ .partiallyAnswered →
          RunEnds settings.toSettings platform later { repository := some repository }
            (.ok answered) := by
        intro answered unanswered
        refine ⟨invariant, by omega, Nat.zero_le _, ?_⟩
        intro other same
        obtain rfl := Except.ok.inj same
        exact .inr unanswered
      cases result with
      | error raised => exact ⟨invariant, by omega, Nat.zero_le _, by simp⟩
      | ok loaded =>
          cases loaded with
          | none => exact Task.holds_pure (silent _ ⟨rfl, by simp [noAnswer], by simp [noAnswer]⟩)
          | some active =>
              simp only
              split
              · exact Task.holds_pure (silent _ ⟨rfl, by simp [noAnswer], by simp [noAnswer]⟩)
              · exact agentLoop_holds _ invariant stillNone (Nat.zero_add _)

theorem answer_holds :
    (answer settings platform call).Holds (budgetContract settings.toSettings) [] {}
      (RunEnds settings.toSettings platform) := by
  apply Task.holds_tryCatch
  apply runAgent_holds.mono
  intro seen left result ends
  cases result with
  | ok answered => exact ends
  | error raised =>
      cases raised with
      | timeout | cancelled =>
          refine Task.holds_pure ⟨ends.holds, ends.asked, ends.steps, ?_⟩
          intro other same
          obtain rfl := Except.ok.inj same
          exact .inr ⟨rfl, by simp [noAnswer], by simp [noAnswer]⟩
      | tool | indexing | value | access | github | provider | database | other => exact ends

end Iteration

/-! ## Every run -/

/-- The answer is grounded in evidence that this run gathered. -/
structure GroundedAnswer (locals : AgentLocals) (answered : AgentRunResult) : Prop where
  evidence : answered.evidence = locals.evidence
  nonempty : answered.citedEvidenceIds ≠ []
  nodup : answered.citedEvidenceIds.Nodup
  ordered : answered.citedEvidenceIds.Sublist (answered.evidence.map (·.evidenceId))
  exact : ∀ id ∈ answered.citedEvidenceIds,
    answered.evidence.countP (·.evidenceId == id) = 1

/-- The bounds of a run with its events, its local variables and its result. -/
structure RunBounds (settings : Settings) (platform : QuestionPlatform)
    (events : List QuestionEvent) (result : Except Raised AgentRunResult)
    (locals : AgentLocals) : Prop where
  traceLength : locals.trace.length ≤ settings.agentMaxToolCalls
  traceNumbered : locals.trace.map (·.step) = List.range' 1 locals.trace.length
  providerCalls : decisions events ≤ settings.agentMaxToolCalls
  executedOnce : (entered events).Nodup
  acceptedSizes : ∃ results, Accepted settings platform locals results
  evidenceDistinct : (locals.evidence.map (·.evidenceId)).Nodup
  resultTrace : ∀ answered, result = .ok answered →
    answered.trace = locals.trace ∨ answered.trace = []
  grounded : ∀ answered, result = .ok answered →
    answered.answerability = .answered ∨ answered.answerability = .partiallyAnswered →
      GroundedAnswer locals answered

theorem countP_of_nodup {evidence : List AgentEvidence} {id : String}
    (distinct : (evidence.map (·.evidenceId)).Nodup)
    (member : id ∈ evidence.map (·.evidenceId)) :
    evidence.countP (·.evidenceId == id) = 1 := by
  have single := List.count_eq_one_of_mem distinct member
  rw [List.count, List.countP_map] at single
  exact single

/-- Every run of the agent, whatever its provider and its backends do, keeps its
bounds and answers from its own evidence. -/
theorem agent_run_bounded (settings : QuestionSettings) (platform : QuestionPlatform)
    (call : QuestionCall) {events : List QuestionEvent}
    {outcome : Except Raised AgentRunResult × AgentLocals}
    (runs : ((answer settings platform call).start {}).Runs events outcome) :
    RunBounds settings.toSettings platform events outcome.1 outcome.2 := by
  have safe : ((answer settings platform call).start {}).Safe (budgetContract settings.toSettings)
      (fun seen ended => RunEnds settings.toSettings platform seen ended.2 ended.1) [] :=
    answer_holds
  have ends := safe.ends runs
  rw [List.append_nil] at ends
  have distinct := ends.holds.distinct
  constructor
  · exact ends.steps
  · exact ends.holds.numbered
  · simpa [decisions] using ends.asked
  · have once := ends.holds.once
    simpa [entered, List.filterMap_reverse] using once
  · exact ends.holds.accepted
  · exact distinct
  · intro answered same
    rcases ends.result answered same with grounded | silent
    · exact .inl grounded.trace
    · exact .inr silent.1
  · intro answered same claimed
    rcases ends.result answered same with grounded | ⟨-, unanswered, unpartial⟩
    · obtain ⟨evidence, nonempty, ordered⟩ := grounded.cited claimed
      have sublist : answered.citedEvidenceIds.Sublist (answered.evidence.map (·.evidenceId)) :=
        evidence ▸ ordered
      have own : (answered.evidence.map (·.evidenceId)).Nodup := evidence ▸ distinct
      exact ⟨evidence, nonempty, own.sublist sublist, sublist, fun id cited =>
        countP_of_nodup own (sublist.subset cited)⟩
    · rcases claimed with full | partially
      · exact absurd full unanswered
      · exact absurd partially unpartial

/-! ## A run that searches once -/

namespace SearchedRun

def settings : QuestionSettings where
  embeddingModelIdentifier := "model"
  embeddingModelRevision := "revision"
  embeddingDimension := 1

def platform : QuestionPlatform where
  sha256Hex := fun _ => "digest"
  uuid5 := fun _ _ => 0
  textLe := fun _ _ => true
  casefold := id
  isDecimal := Char.isDigit
  scoreText := fun _ => "1.0"
  isUnsupported := fun _ => false

def call : QuestionCall where
  userId := 1
  repositoryId := 2
  question := { text := "main?", fingerprint := "digest", estimatedTokens := 2 }

def repository : Repository where
  id := 2
  installationId := some 1
  githubRepositoryId := 7
  githubOwner := "octo"
  githubName := "app"
  githubFullName := "octo/app"
  githubUrl := "url"
  isPrivate := true
  defaultBranch := "main"
  lastIndexedCommitSha := some "commit"
  indexVersion := 3
  indexingStatus := .complete
  activeVectorCount := 1

def build : RepositoryIndexBuild where
  repositoryId := 2
  jobId := none
  indexVersion := 3
  state := .active
  commitSha := "commit"
  embeddingModelIdentifier := "model"
  embeddingModelRevision := "revision"
  embeddingDimension := 1
  preprocessingFingerprint := "policy"
  expectedChunkCount := 1
  vectorCount := 1

def hit : Vector.RetrievalHit where
  score := 1
  filePath := "app.py"
  language := "python"
  chunkType := "function"
  symbolName := some "main"
  qualifiedSymbolName := some "app.main"
  startLine := 1
  endLine := 2
  content := "main"
  stableChunkHash := "hash"

/-- The first decision searches; the next one answers from what was found. -/
def decision (payload : AgentPayload) : AgentDecision :=
  if payload.evidence.isEmpty then
    { action := .tool, toolName := some .searchCode, arguments := some { query := some "main" } }
  else
    { action := .final, answer := some "There.", answerability := some .answered,
      uncertainty := some .low, evidenceIds := payload.evidence.map (·.evidenceId) }

def replies (_ : List QuestionEvent) : (request : QuestionRequest) → QuestionReply request
  | .authorize .. => .ok repository
  | .loadBuild .. => .ok (some build)
  | .decide payload => .ok (decision payload)
  | .generate .. => .error .other
  | .enter .. => ()
  | .embedQuery _ => .ok [1]
  | .searchVectors .. => .ok [hit]
  | .publicHistory .. => .error .github
  | .authorizedInstallation .. => .error .access
  | .installationToken .. => .error .github
  | .repositoryHistory .. => .error .github
  | .graphBuild .. => .ok none
  | .callerTargets .. => .ok []
  | .callerRows .. => .ok []

def run : (Except Raised AgentRunResult × AgentLocals) × List QuestionEvent :=
  ((answer settings platform call).start {}).recorded replies

end SearchedRun

open SearchedRun in
theorem searchedRun_bounded :
    RunBounds settings.toSettings platform run.2 run.1.1 run.1.2 ∧
      run.1.1.toOption.map (·.citedEvidenceIds) = some ["T1-C1"] :=
  ⟨agent_run_bounded settings platform call (Program.runs_recorded replies _), by decide +kernel⟩

end Codenaut.Agent
