import Codenaut.Agent.Bounds
import Codenaut.Agent.Checks

/-!
# Disclosure of an agent run

Evidence is sent to the provider, and returned, right after a check that
passed. A check that refuses ends the run without a further disclosure.
-/

set_option autoImplicit false

namespace Codenaut.Agent

open Codenaut.Core Codenaut.Db Codenaut.Interaction Codenaut.Rag

/-- The result carries evidence or citations. -/
def AgentRunResult.Discloses (result : AgentRunResult) : Prop :=
  result.evidence ≠ [] ∨ result.citedEvidenceIds ≠ []

theorem noAnswer_silent (repositoryId : RepositoryId) (state : Answerability)
    (active : Option ActiveIndex) (repository : Option Repository) (count : Nat)
    (trace : List AgentTraceStep) :
    ¬ (noAnswer repositoryId state active repository count trace).Discloses := by
  simp [noAnswer, AgentRunResult.Discloses]

section Backends

variable {call : QuestionCall} {repository : Repository} {build : RepositoryIndexBuild}
  {history : List QuestionEvent}

theorem backend_unrefused {active : ActiveIndex} (event : QuestionEvent)
    (backend : BackendRequest event.1) : ¬ Refuses repository active event := by
  obtain ⟨request, reply⟩ := event
  cases request with
  | authorize | loadBuild | decide | generate | enter => exact backend.elim
  | embedQuery | searchVectors | publicHistory | authorizedInstallation
  | installationToken | repositoryHistory | graphBuild | callerTargets | callerRows =>
      exact fun refuses => refuses.1

theorem backend_silent (request : QuestionRequest) (backend : BackendRequest request) :
    ¬ Sends request := by
  cases request with
  | authorize | loadBuild | decide | generate | enter => exact backend.elim
  | embedQuery | searchVectors | publicHistory | authorizedInstallation
  | installationToken | repositoryHistory | graphBuild | callerTargets | callerRows => exact id

theorem Clear.backends (clear : Clear call repository build history)
    {seen : List QuestionEvent} (grown : Extends BackendRequest history seen) :
    Clear call repository build seen :=
  clear.extend grown backend_unrefused

/-- Backend calls keep a clear history clear. -/
theorem backend_holds {Locals Result : Type} {locals : Locals} {task : QuestionTask Locals Result}
    {post : Result → Prop} (calls : Task.Calls BackendRequest locals task post)
    (clear : Clear call repository build history) :
    task.Holds (disclosureContract call) history locals fun seen left _ =>
      Clear call repository build seen ∧ left = locals := by
  have covers : ∀ (seen : List QuestionEvent) (request : QuestionRequest),
      Extends BackendRequest history seen → BackendRequest request →
        SendsAdmitted call seen request :=
    fun _ request _ backend sends => absurd sends (backend_silent request backend)
  apply (calls.holds covers).mono
  rintro seen left result ⟨grown, kept, -⟩
  exact ⟨clear.backends grown, kept⟩

end Backends

/-! ## The checks of the loop -/

section Loop

variable {settings : QuestionSettings} {platform : QuestionPlatform} {call : QuestionCall}
  {repository : Repository} {build : RepositoryIndexBuild} {history : List QuestionEvent}
  {locals : AgentLocals}

/-- The loop works on the repository that the run started with. -/
def AgentLocals.Works (locals : AgentLocals) (repository : Repository) : Prop :=
  ∃ current, locals.repository = some current ∧ current.id = repository.id

/-- What a check inside the loop leaves. -/
structure RefreshEnds (call : QuestionCall) (repository : Repository)
    (build : RepositoryIndexBuild) (site : CheckSite) (locals : AgentLocals)
    (seen : List QuestionEvent) (left : AgentLocals) (result : Except Raised (Option Repository)) :
    Prop where
  kept : left = locals
  passed : ∀ refreshed, result = .ok (some refreshed) →
    Checked call repository build seen ∧ refreshed.id = repository.id
  tolerated : ∀ raised, result = .error raised → toleratedAt site raised = true →
    Clear call repository build seen

theorem refreshAuthorization_holds {site : CheckSite}
    (clear : Clear call repository build history) (works : locals.Works repository) :
    (refreshAuthorization call (loadedIndex build) site).Holds (disclosureContract call) history
      locals (RefreshEnds call repository build site locals) := by
  obtain ⟨expected, bound, sameId⟩ := works
  apply Task.holds_bind
  apply Task.holds_get
  simp only [bound]
  apply Task.holds_bind
  apply authorizedRepository_holds
  intro reply
  cases reply with
  | error raised =>
      refine ⟨rfl, by simp, ?_⟩
      intro escaped same tolerated
      cases same
      exact clear.tolerated tolerated
  | ok current =>
      apply Task.holds_bind
      apply Task.holds_bind
      apply loadActiveBuild_holds
      · intro missing
        apply Task.holds_pure
        have differs : (none == some (loadedIndex build)) = false := rfl
        simp only [Option.map_none, differs, Bool.and_false]
        exact Task.holds_pure ⟨rfl, by simp, by simp⟩
      · intro indexed reply
        have opened : Clear call repository build
            (⟨.authorize site call.userId call.repositoryId, .ok current⟩ :: history) :=
          clear.opened indexed
        cases reply with
        | error raised =>
            refine ⟨rfl, by simp, ?_⟩
            intro escaped same tolerated
            cases same
            exact opened.tolerated tolerated
        | ok loaded =>
            apply Task.holds_pure
            simp only
            split
            case isFalse => exact Task.holds_pure ⟨rfl, by simp, by simp⟩
            case isTrue agrees =>
              refine Task.holds_pure ⟨rfl, ?_, by simp⟩
              rintro refreshed ⟨⟩
              simp only [Bool.and_eq_true, beq_iff_eq, sameAccess] at agrees
              obtain ⟨⟨⟨⟨same, -⟩, -⟩, -⟩, index⟩ := agrees
              obtain ⟨currentBuild, rfl, sameIndex⟩ := Option.map_eq_some_iff.mp index
              exact ⟨clear.checked indexed (same.trans sameId) sameIndex, same.trans sameId⟩

/-! ## Tools -/

/-- What a part of a tool step leaves that refuses by failing. -/
structure PartEnds {Result : Type} (call : QuestionCall) (repository : Repository)
    (build : RepositoryIndexBuild) (locals : AgentLocals) (seen : List QuestionEvent)
    (left : AgentLocals) (result : Except Raised Result) : Prop where
  kept : left = locals
  finished : ∀ value, result = .ok value → Clear call repository build seen
  tolerated : ∀ raised, result = .error raised → toleratedAt .tool raised = true →
    Clear call repository build seen

theorem PartEnds.of_clear {Result : Type} {seen : List QuestionEvent} {left : AgentLocals}
    {result : Except Raised Result} (clear : Clear call repository build seen)
    (kept : left = locals) : PartEnds call repository build locals seen left result :=
  ⟨kept, fun _ _ => clear, fun _ _ _ => clear⟩

theorem authorizeCallers_holds (context : ActiveRepositoryContext)
    (clear : Clear call repository build history) :
    (authorizeCallers context).Holds (disclosureContract call) history locals
      (PartEnds call repository build locals) := by
  apply Task.holds_tryCatch
  apply Task.holds_bind
  refine Task.holds_ask (fun sends => sends.elim) fun reply => ?_
  cases reply with
  | ok current =>
      exact Task.holds_pure (.of_clear (clear.tolerated rfl) rfl)
  | error raised =>
      apply Task.holds_throw
      cases raised with
      | access => exact Task.holds_throw (.of_clear (clear.tolerated rfl) rfl)
      | timeout | tool | indexing =>
          exact Task.holds_throw (.of_clear (clear.tolerated rfl) rfl)
      | cancelled | value | github | provider | database | other =>
          refine Task.holds_throw ⟨rfl, by simp, ?_⟩
          intro escaped same tolerated
          cases same
          cases tolerated

theorem executeFindCallers_holds (context : ActiveRepositoryContext)
    (arguments : AgentToolArguments) (step : Nat)
    (clear : Clear call repository build history) :
    (executeFindCallers settings context arguments step).Holds (disclosureContract call) history
      locals (PartEnds call repository build locals) := by
  unfold executeFindCallers
  split
  · exact Task.holds_throw (.of_clear clear rfl)
  · apply Task.holds_bind
    apply (authorizeCallers_holds context clear).mono
    rintro seen _ result ⟨rfl, finished, tolerated⟩
    cases result with
    | error raised =>
        refine ⟨rfl, by simp, ?_⟩
        rintro escaped ⟨⟩
        exact tolerated raised rfl
    | ok current =>
        have still := finished current rfl
        simp only
        split
        · exact Task.holds_throw (.of_clear still rfl)
        · apply (backend_holds (callersFound_calls settings.toSettings context current _ _ step)
            still).mono
          exact fun _ _ _ ⟨later, kept⟩ => .of_clear later kept

theorem toolBody_holds (context : ActiveRepositoryContext) (arguments : AgentToolArguments)
    (step : Nat) (tool : AgentToolName) (clear : Clear call repository build history) :
    (toolBody settings platform context arguments step tool).Holds (disclosureContract call)
      history locals (PartEnds call repository build locals) := by
  cases tool with
  | searchCode =>
      apply (backend_holds (executeSearchCode_calls settings platform context arguments step)
        clear).mono
      exact fun _ _ _ ⟨still, kept⟩ => .of_clear still kept
  | getHistory =>
      apply (backend_holds (executeGetHistory_calls settings platform context arguments step)
        clear).mono
      exact fun _ _ _ ⟨still, kept⟩ => .of_clear still kept
  | findCallers => exact executeFindCallers_holds context arguments step clear

/-! ## A tool step -/

/-- What the `try` of a tool step leaves. -/
structure BodyEnds (call : QuestionCall) (repository : Repository) (build : RepositoryIndexBuild)
    (seen : List QuestionEvent) (left : AgentLocals) (result : Except Raised Attempt) : Prop where
  finished : ∀ attempt, result = .ok attempt → attempt ≠ .unauthorized →
    Clear call repository build seen ∧ left.Works repository
  tolerated : ∀ raised, result = .error raised → toleratedAt .tool raised = true →
    Clear call repository build seen ∧ left.Works repository

theorem BodyEnds.of_clear {seen : List QuestionEvent} {left : AgentLocals}
    {result : Except Raised Attempt} (clear : Clear call repository build seen)
    (works : left.Works repository) : BodyEnds call repository build seen left result :=
  ⟨fun _ _ _ => ⟨clear, works⟩, fun _ _ _ => ⟨clear, works⟩⟩

theorem attemptBody_clears (tool : AgentToolName) (arguments : AgentToolArguments) (step : Nat)
    (clear : Clear call repository build history) (works : locals.Works repository) :
    (attemptBody settings platform call (loadedIndex build) tool arguments step).Holds
      (disclosureContract call) history locals (BodyEnds call repository build) := by
  apply Task.holds_bind
  apply (refreshAuthorization_holds clear works).mono
  rintro seen _ result ⟨rfl, passed, tolerated⟩
  cases result with
  | error raised =>
      refine ⟨by simp, ?_⟩
      rintro escaped ⟨⟩ recorded
      exact ⟨tolerated raised rfl recorded, works⟩
  | ok refreshed =>
      cases refreshed with
      | none =>
          refine Task.holds_pure ⟨?_, by simp⟩
          rintro attempt ⟨⟩ authorized
          exact absurd rfl authorized
      | some current =>
          obtain ⟨checked, sameId⟩ := passed current rfl
          apply Task.holds_bind
          apply Task.holds_modify
          have working : ∀ left : AgentLocals, left.repository = some current →
              left.Works repository :=
            fun left bound => ⟨current, bound, sameId⟩
          apply Task.holds_bind
          apply Task.holds_bind
          refine Task.holds_ask (fun sends => sends.elim) fun _ => ?_
          have entering : Clear call repository build (⟨.enter tool arguments step, ()⟩ :: seen) :=
            checked.clear.snoc fun refuses => refuses.1
          apply (toolBody_holds _ arguments step tool entering).mono
          rintro later _ result ⟨rfl, finished, tolerated⟩
          cases result with
          | error raised =>
              refine ⟨by simp, ?_⟩
              rintro escaped ⟨⟩ recorded
              exact ⟨tolerated raised rfl recorded, working _ rfl⟩
          | ok evidence =>
              have still := finished evidence rfl
              apply Task.holds_bind
              apply Task.holds_get
              apply Task.holds_bind
              apply (backend_holds (validateEvidenceSize_calls settings.toSettings _ _)
                still).mono
              rintro last _ result ⟨cleared, rfl⟩
              cases result with
              | error raised => exact .of_clear cleared (working _ rfl)
              | ok => exact Task.holds_pure (.of_clear cleared (working _ rfl))

theorem attemptTool_clears (tool : AgentToolName) (arguments : AgentToolArguments) (step : Nat)
    (clear : Clear call repository build history) (works : locals.Works repository) :
    (attemptTool settings platform call (loadedIndex build) tool arguments step).Holds
      (disclosureContract call) history locals fun seen left result =>
        ∀ attempt, result = .ok attempt → attempt ≠ .unauthorized →
          Clear call repository build seen ∧ left.Works repository := by
  apply Task.holds_tryCatch
  apply (attemptBody_clears tool arguments step clear works).mono
  intro seen left result ends
  cases result with
  | ok attempt => exact ends.finished
  | error raised =>
      cases raised with
      | timeout | tool | indexing =>
          exact Task.holds_pure fun _ _ _ => ends.tolerated _ rfl rfl
      | cancelled | value | access | github | provider | database | other =>
          exact Task.holds_throw (by simp)

/-- What an iteration leaves. -/
structure StepClears (call : QuestionCall) (repository : Repository)
    (build : RepositoryIndexBuild) (seen : List QuestionEvent) (left : AgentLocals)
    (result : Except Raised Flow) : Prop where
  next : result = .ok .next → Clear call repository build seen ∧ left.Works repository
  finish : ∀ answered, result = .ok (.finish answered) → answered.Discloses →
    Checked call repository build seen

theorem StepClears.silent {seen : List QuestionEvent} {left : AgentLocals}
    {answered : AgentRunResult} (silent : ¬ answered.Discloses) :
    StepClears call repository build seen left (.ok (.finish answered)) where
  next := by simp
  finish := by
    rintro other ⟨⟩ discloses
    exact absurd discloses silent

theorem toolStep_clears (tool : AgentToolName) (arguments : AgentToolArguments)
    (clear : Clear call repository build history) (works : locals.Works repository) :
    (toolStep settings platform call (loadedIndex build) tool arguments).Holds
      (disclosureContract call) history locals (StepClears call repository build) := by
  apply Task.holds_bind
  apply Task.holds_get
  apply Task.holds_bind
  apply Task.holds_get
  simp only
  split
  · apply Task.holds_bind
    apply Task.holds_modify
    exact Task.holds_pure ⟨by simp, by simp⟩
  · apply Task.holds_bind
    apply Task.holds_modify
    have working : AgentLocals.Works { locals with
        fingerprints := safeArgumentFingerprint platform.toPlatform tool arguments ::
          locals.fingerprints } repository := works
    apply Task.holds_bind
    apply (attemptTool_clears tool arguments _ clear working).mono
    intro seen left result ends
    cases result with
    | error raised => exact ⟨by simp, by simp⟩
    | ok attempt =>
        cases attempt with
        | unauthorized =>
            apply Task.holds_bind
            apply Task.holds_get
            exact Task.holds_pure (.silent (noAnswer_silent _ _ _ _ _ _))
        | failed status code =>
            obtain ⟨cleared, working⟩ := ends _ rfl (by simp)
            apply Task.holds_bind
            apply Task.holds_modify
            exact Task.holds_pure ⟨fun _ => ⟨cleared, working⟩, by simp⟩
        | accepted evidence size =>
            obtain ⟨cleared, working⟩ := ends _ rfl (by simp)
            apply Task.holds_bind
            apply Task.holds_modify
            exact Task.holds_pure ⟨fun _ => ⟨cleared, working⟩, by simp⟩

/-! ## An iteration -/

theorem askProvider_clears (clear : Clear call repository build history)
    (admitted : locals.evidence ≠ [] → Checked call repository build history) :
    (askProvider settings.toSettings call).Holds (disclosureContract call) history locals
      fun seen left _ => Clear call repository build seen ∧ left = locals := by
  apply Task.holds_bind
  apply Task.holds_get
  apply Task.holds_tryCatch
  apply Task.holds_bind
  refine Task.holds_ask (fun sends => (admitted sends).admitted) fun reply => ?_
  have still : ∀ payload (answer : Except Raised AgentDecision),
      Clear call repository build (⟨.decide payload, answer⟩ :: history) :=
    fun payload answer => clear.snoc fun refuses => refuses.1
  cases reply with
  | ok decision =>
      apply Task.holds_bind
      apply Task.holds_pure
      exact Task.holds_pure ⟨still _ (.ok decision), rfl⟩
  | error raised =>
      apply Task.holds_bind
      apply Task.holds_throw
      cases raised with
      | provider | timeout => exact Task.holds_pure ⟨still _ (.error _), rfl⟩
      | cancelled | tool | indexing | value | access | github | database | other =>
          exact Task.holds_throw ⟨still _ (.error _), rfl⟩

/-- The final check admits what the answer discloses. -/
theorem finalize_discloses (decision : AgentDecision)
    (clear : Clear call repository build history) (works : locals.Works repository) :
    (finalize call (loadedIndex build) decision).Holds (disclosureContract call) history locals
      fun seen _ result => ∀ answered, result = .ok answered → answered.Discloses →
        Checked call repository build seen := by
  obtain ⟨expected, bound, sameId⟩ := works
  have silent : ∀ {seen : List QuestionEvent} {answered : AgentRunResult},
      ¬ answered.Discloses → ∀ returned, (.ok answered : Except Raised AgentRunResult) =
        .ok returned → returned.Discloses → Checked call repository build seen := by
    rintro seen answered silent returned ⟨⟩ discloses
    exact absurd discloses silent
  apply Task.holds_bind
  apply Task.holds_get
  simp only [bound]
  apply Task.holds_bind
  apply authorizedRepository_holds
  intro reply
  cases reply with
  | error raised => simp
  | ok current =>
      apply Task.holds_bind
      apply Task.holds_bind
      apply loadActiveBuild_holds
      · intro missing
        apply Task.holds_pure
        apply Task.holds_bind
        apply Task.holds_get
        simp only
        split
        case isTrue => exact Task.holds_pure (silent (noAnswer_silent _ _ _ _ _ _))
        case isFalse agrees => simp at agrees
      · intro indexed reply
        cases reply with
        | error raised => simp
        | ok loaded =>
            apply Task.holds_pure
            apply Task.holds_bind
            apply Task.holds_get
            simp only
            split
            case isTrue => exact Task.holds_pure (silent (noAnswer_silent _ _ _ _ _ _))
            case isFalse agrees =>
              simp only [Bool.or_eq_true, bne_iff_ne, not_or, not_not] at agrees
              obtain ⟨same, index⟩ := agrees
              obtain ⟨currentBuild, rfl, sameIndex⟩ := Option.map_eq_some_iff.mp index
              have checked : Checked call repository build
                  ((passed call .final current currentBuild).reverse ++ history) :=
                clear.checked indexed (same.trans sameId) sameIndex
              split
              · exact Task.holds_pure (silent (noAnswer_silent _ _ _ _ _ _))
              · exact Task.holds_pure fun _ _ _ => checked

theorem decideStep_clears (clear : Clear call repository build history)
    (works : locals.Works repository)
    (admitted : locals.evidence ≠ [] → Checked call repository build history) :
    (decideStep settings platform call (loadedIndex build)).Holds (disclosureContract call)
      history locals (StepClears call repository build) := by
  apply Task.holds_bind
  apply (askProvider_clears clear admitted).mono
  rintro seen left result ⟨still, rfl⟩
  cases result with
  | error raised => exact ⟨by simp, by simp⟩
  | ok answer =>
      cases answer with
      | none =>
          apply Task.holds_bind
          apply Task.holds_get
          exact Task.holds_pure (.silent (noAnswer_silent _ _ _ _ _ _))
      | some decision =>
          simp only
          split
          · apply Task.holds_bind
            apply (finalize_discloses decision still works).mono
            intro later last result ends
            cases result with
            | error raised => exact ⟨by simp, by simp⟩
            | ok answered =>
                refine Task.holds_pure ⟨by simp, ?_⟩
                rintro returned ⟨⟩ discloses
                exact ends answered rfl discloses
          · split
            · apply Task.holds_bind
              apply Task.holds_get
              exact Task.holds_pure (.silent (noAnswer_silent _ _ _ _ _ _))
            · exact toolStep_clears _ _ still works

theorem iteration_clears (clear : Clear call repository build history)
    (works : locals.Works repository) :
    (iteration settings platform call (loadedIndex build)).Holds (disclosureContract call)
      history locals (StepClears call repository build) := by
  apply Task.holds_bind
  apply Task.holds_get
  simp only
  split
  case isTrue empty =>
    have none : locals.evidence = [] := by simpa using empty
    exact decideStep_clears clear works fun gathered => absurd none gathered
  case isFalse =>
    apply Task.holds_bind
    apply (refreshAuthorization_holds clear works).mono
    rintro seen _ result ⟨rfl, passed, -⟩
    cases result with
    | error raised => exact ⟨by simp, by simp⟩
    | ok refreshed =>
        cases refreshed with
        | none =>
            apply Task.holds_bind
            apply Task.holds_get
            exact Task.holds_pure (.silent (noAnswer_silent _ _ _ _ _ _))
        | some current =>
            obtain ⟨checked, sameId⟩ := passed current rfl
            apply Task.holds_bind
            apply Task.holds_modify
            exact decideStep_clears checked.clear ⟨current, rfl, sameId⟩ fun _ => checked

/-! ## The run -/

/-- A result that discloses ends on a check that passed. -/
def DisclosesChecked (call : QuestionCall) (repository : Repository)
    (build : RepositoryIndexBuild) (seen : List QuestionEvent)
    (result : Except Raised AgentRunResult) : Prop :=
  ∀ answered, result = .ok answered → answered.Discloses → Checked call repository build seen

theorem exhausted_silent :
    (exhausted call (loadedIndex build)).Holds (disclosureContract call) history locals
      fun seen _ result => DisclosesChecked call repository build seen result := by
  apply Task.holds_bind
  apply Task.holds_get
  apply Task.holds_pure
  rintro answered ⟨⟩ discloses
  exact absurd discloses (noAnswer_silent _ _ _ _ _ _)

/-- The loop, by induction on the iterations that remain. -/
theorem agentLoop_discloses (remaining : Nat) :
    ∀ {history : List QuestionEvent} {locals : AgentLocals},
      Clear call repository build history → locals.Works repository →
      (agentLoop settings platform call (loadedIndex build) remaining).Holds
        (disclosureContract call) history locals
        fun seen _ result => DisclosesChecked call repository build seen result := by
  induction remaining with
  | zero => exact fun _ _ => exhausted_silent
  | succ remaining ih =>
      intro history locals clear works
      apply Task.holds_bind
      apply (iteration_clears clear works).mono
      intro seen left result ends
      cases result with
      | error raised => exact fun _ same => by cases same
      | ok flow =>
          cases flow with
          | next =>
              obtain ⟨still, working⟩ := ends.next rfl
              exact ih still working
          | stop => exact exhausted_silent
          | finish answered =>
              apply Task.holds_pure
              rintro returned ⟨⟩ discloses
              exact ends.finish answered rfl discloses

end Loop

section Run

variable (settings : QuestionSettings) (platform : QuestionPlatform) (call : QuestionCall)

/-- What a path of the agent discloses at its end. -/
def RunAdmitted (seen : List QuestionEvent) (result : Except Raised AgentRunResult) : Prop :=
  ∀ answered, result = .ok answered → answered.Discloses → Admitted Refuses call seen.reverse

variable {call} in
theorem RunAdmitted.silent {seen : List QuestionEvent} {answered : AgentRunResult}
    (silent : ¬ answered.Discloses) : RunAdmitted call seen (.ok answered) := by
  rintro returned ⟨⟩ discloses
  exact absurd discloses silent

theorem runAgent_discloses :
    (runAgent settings platform call).Holds (disclosureContract call) [] {}
      fun seen _ result => RunAdmitted call seen result := by
  apply Task.holds_bind
  apply authorizedRepository_holds
  intro reply
  cases reply with
  | error raised => exact fun _ same => by cases same
  | ok repository =>
      apply Task.holds_bind
      apply Task.holds_modify
      apply Task.holds_bind
      apply Task.holds_bind
      apply loadActiveBuild_holds
      · intro missing
        apply Task.holds_pure
        exact Task.holds_pure (.silent (noAnswer_silent _ _ _ _ _ _))
      · intro indexed reply
        cases reply with
        | error raised => exact fun _ same => by cases same
        | ok loaded =>
            apply Task.holds_pure
            cases loaded with
            | none => exact Task.holds_pure (.silent (noAnswer_silent _ _ _ _ _ _))
            | some build =>
                simp only [Option.map_some]
                split
                · exact Task.holds_pure (.silent (noAnswer_silent _ _ _ _ _ _))
                · apply (agentLoop_discloses settings.agentMaxToolCalls
                    (Clear.start call repository build) ⟨repository, rfl, rfl⟩).mono
                  intro seen left result ends answered same discloses
                  exact (ends answered same discloses).admitted

theorem answer_discloses :
    (answer settings platform call).Holds (disclosureContract call) [] {}
      fun seen _ result => RunAdmitted call seen result := by
  apply Task.holds_tryCatch
  apply (runAgent_discloses settings platform call).mono
  intro seen left result ends
  cases result with
  | ok answered => exact ends
  | error raised =>
      cases raised with
      | timeout | cancelled => exact Task.holds_pure (.silent (noAnswer_silent _ _ _ _ _ _))
      | tool | indexing | value | access | github | provider | database | other => exact ends

/-- In every run of the agent, what is sent or returned is admitted. -/
theorem agent_gated {events : List QuestionEvent}
    {outcome : Except Raised AgentRunResult × AgentLocals}
    (runs : ((answer settings platform call).start {}).Runs events outcome) :
    Gated Refuses call events (∃ answered, outcome.1 = .ok answered ∧ answered.Discloses) := by
  have safe : ((answer settings platform call).start {}).Safe (disclosureContract call)
      (fun seen ended => RunAdmitted call seen ended.1) [] :=
    answer_discloses settings platform call
  apply Gated.of_admitted
  · rintro before request reply after rfl sends
    simpa using safe.asks runs sends
  · rintro ⟨answered, same, discloses⟩
    simpa using safe.ends runs answered same discloses

end Run

end Codenaut.Agent
