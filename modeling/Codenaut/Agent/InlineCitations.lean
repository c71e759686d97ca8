import Codenaut.Agent.Bounds

/-!
# Inline citations

An answer may name evidence in brackets. The validator of the single-pass path
lets no such name through that is not declared; `_finalize` looks only at the
declared ones, so an answer of the agent names what its decision put there.
-/

set_option autoImplicit false

namespace Codenaut.Agent

open Codenaut.Core Codenaut.Db Codenaut.Interaction Codenaut.Rag

/-! ## Bracketed names -/

/-- The names of evidence: those of the selector and those that the tools give. -/
inductive EvidenceName (isDecimal : Char → Bool) : String → Prop where
  | selected {digits : List Char} (some : digits ≠ [])
      (decimal : ∀ digit ∈ digits, isDecimal digit = true) :
      EvidenceName isDecimal (String.ofList ('E' :: digits))
  | code (step position : Nat) :
      EvidenceName isDecimal (evidenceName step ["C" ++ toString position])
  | commit (step position : Nat) :
      EvidenceName isDecimal (evidenceName step ["H" ++ toString position])
  | pullRequest (step position pullPosition : Nat) :
      EvidenceName isDecimal
        (evidenceName step ["P" ++ toString position, toString pullPosition])
  | caller (step position : Nat) :
      EvidenceName isDecimal (evidenceName step ["G" ++ toString position])

/-- The text names the evidence in brackets. -/
def Bracketed (isDecimal : Char → Bool) (text id : String) : Prop :=
  EvidenceName isDecimal id ∧ ('[' :: id.toList ++ [']']) <:+: text.toList

theorem not_bracketed {isDecimal : Char → Bool} {text id : String} (plain : '[' ∉ text.toList) :
    ¬Bracketed isDecimal text id := by
  rintro ⟨-, inside⟩
  exact plain (inside.subset (by simp))

/-- The pattern of the validator finds bracketed names. -/
theorem inlineIds_bracketed {isDecimal : Char → Bool} {id : String} (text : List Char)
    (found : id ∈ inlineIds isDecimal text) :
    EvidenceName isDecimal id ∧ ('[' :: id.toList ++ [']']) <:+: text := by
  fun_induction inlineIds isDecimal text with
  | case1 => cases found
  | case2 rest digits closed ih =>
      rcases List.mem_cons.mp found with rfl | later
      · rw [Bool.and_eq_true] at closed
        obtain ⟨some, bracket⟩ := closed
        refine ⟨.selected (by simpa using some) fun digit member => ?_, ?_⟩
        · exact List.all_eq_true.mp List.all_takeWhile digit member
        · obtain ⟨after, split⟩ : ∃ after, rest.drop digits.length = ']' :: after := by
            cases dropped : rest.drop digits.length with
            | nil => simp [dropped] at bracket
            | cons first after =>
                rw [dropped] at bracket
                simp only [List.head?_cons, beq_iff_eq, Option.some.injEq] at bracket
                exact ⟨after, by rw [bracket]⟩
          have whole : rest = digits ++ ']' :: after := by
            rw [← split]
            exact (List.prefix_iff_eq_append.mp (List.takeWhile_prefix isDecimal)).symm
          rw [String.toList_ofList, whole]
          exact ⟨[], after, by simp⟩
      · obtain ⟨name, inside⟩ := ih later
        exact ⟨name, inside.trans ((List.suffix_cons _ _).trans (List.suffix_cons _ _)).isInfix⟩
  | case3 rest digits opened ih =>
      obtain ⟨name, inside⟩ := ih found
      exact ⟨name, inside.trans ((List.suffix_cons _ _).trans (List.suffix_cons _ _)).isInfix⟩
  | case4 char rest other ih =>
      obtain ⟨name, inside⟩ := ih found
      exact ⟨name, inside.trans (List.suffix_cons _ _).isInfix⟩

/-- The rule of the single-pass path: what an answer names in brackets, it cites. -/
theorem validateCitations_inline {platform : QuestionPlatform} {draft : GroundedAnswerDraft}
    {evidence : List Evidence} {commitSha : CommitSha} {citations : List Citation}
    (validated : validateCitations platform draft evidence commitSha = (.answered, citations)) :
    ∀ id ∈ inlineIds platform.isDecimal draft.answer.toList,
      id ∈ draft.evidenceIds ∧ (byId evidence id).isSome = true := by
  intro id inline
  unfold validateCitations at validated
  dsimp only at validated
  split at validated
  · cases validated
  case isFalse declared =>
    simp only [Bool.or_eq_true, not_or, Bool.not_eq_true, List.any_eq_false] at declared
    obtain ⟨⟨-, known⟩, cited⟩ := declared
    constructor
    · simpa using cited id inline
    · simpa using known id inline

/-! ## The final decision -/

/-- The decision that a request brought. -/
def decidedBy : QuestionEvent → Option AgentDecision
  | ⟨.decide _, .ok decision⟩ => some decision
  | _ => none

/-- The last decision in a history, newest event first. -/
def lastDecision (history : List QuestionEvent) : Option AgentDecision :=
  history.findSome? decidedBy

theorem Extends.lastDecision_eq {history seen : List QuestionEvent}
    (grown : Extends Quiet history seen) : lastDecision seen = lastDecision history := by
  obtain ⟨events, rfl, quiet⟩ := grown
  unfold lastDecision
  rw [List.findSome?_append, List.findSome?_eq_none_iff.mpr, Option.none_or]
  intro event member
  have silent := quiet event member
  obtain ⟨request, reply⟩ := event
  cases request with
  | decide => exact silent.elim
  | _ => rfl

/-- What a result takes from the decision. -/
structure Finalized (decision : AgentDecision) (result : AgentRunResult) : Prop where
  answer : result.answer = (decision.answer.filter (· != "")).getD insufficientText
  cited : ∀ id, id ∈ result.citedEvidenceIds ↔ id ∈ decision.evidenceIds
  known : ∀ id ∈ result.citedEvidenceIds, id ∈ result.evidence.map (·.evidenceId)

def Answers (result : AgentRunResult) : Prop :=
  result.answerability = .answered ∨ result.answerability = .partiallyAnswered

theorem not_answers_noAnswer {repositoryId : RepositoryId} {state : Answerability}
    {active : Option ActiveIndex} {repository : Option Repository} {count : Nat}
    {trace : List AgentTraceStep} (silent : state ≠ .answered ∧ state ≠ .partiallyAnswered) :
    ¬Answers (noAnswer repositoryId state active repository count trace) :=
  not_or.mpr silent

theorem mem_citedIds {state : Answerability} {cited ordered : List String}
    {evidence : List AgentEvidence} (chosen : citedIds state cited evidence = some ordered)
    (answered : state = .answered ∨ state = .partiallyAnswered) (id : String) :
    id ∈ ordered ↔ id ∈ cited := by
  simp only [citedIds, if_pos answered] at chosen
  split at chosen
  case isTrue => cases chosen
  case isFalse named =>
    obtain rfl := Option.some.inj chosen
    simp only [not_or, Bool.not_eq_true, List.any_eq_false] at named
    rw [List.mem_filter, List.contains_iff_mem]
    constructor
    · exact And.right
    · intro member
      exact ⟨by simpa using named.2 id member, member⟩

theorem finalize_finalized (locals : AgentLocals) (call : QuestionCall) (active : ActiveIndex)
    (decision : AgentDecision) :
    Task.Calls Quiet locals (finalize call active decision) fun result =>
      Answers result → Finalized decision result := by
  apply Task.calls_bind Task.calls_get
  rintro _ rfl
  split
  · exact Task.calls_throw
  · apply Task.calls_bind (authorizedRepository_calls call .final)
    intro finalRepository _
    apply Task.calls_bind (loadIndex_calls .final finalRepository)
    intro finalActive _
    apply Task.calls_bind Task.calls_get
    rintro _ rfl
    split
    · exact Task.calls_pure fun answered => absurd answered (not_answers_noAnswer (by decide))
    · simp only
      split
      · exact Task.calls_pure fun answered => absurd answered (not_answers_noAnswer (by decide))
      case h_2 orderedIds chosen =>
        refine Task.calls_pure fun answered => ⟨rfl, fun id => ?_, fun id member => ?_⟩
        · exact (mem_citedIds chosen answered id).trans List.mem_eraseDups
        · exact (citedIds_grounded chosen answered).2.subset member

/-! ## Every run -/

/-- An answer comes from the last decision. -/
def FromDecision (history : List QuestionEvent) (result : AgentRunResult) : Prop :=
  Answers result → ∃ decision, lastDecision history = some decision ∧
    decision.action = .final ∧ Finalized decision result

abbrev anyContract : Contract (List QuestionEvent) QuestionRequest QuestionReply :=
  historyContract fun _ _ => True

section Runs

variable {settings : QuestionSettings} {platform : QuestionPlatform} {call : QuestionCall}
  {active : ActiveIndex}

def FlowEnds (seen : List QuestionEvent) (_ : AgentLocals) (flow : Except Raised Flow) : Prop :=
  ∀ result, flow = .ok (.finish result) → FromDecision seen result

def ResultEnds (seen : List QuestionEvent) (_ : AgentLocals)
    (ended : Except Raised AgentRunResult) : Prop :=
  ∀ result, ended = .ok result → FromDecision seen result

theorem fromDecision_noAnswer {history : List QuestionEvent} {repositoryId : RepositoryId}
    {state : Answerability} {active : Option ActiveIndex} {repository : Option Repository}
    {count : Nat} {trace : List AgentTraceStep}
    (silent : state ≠ .answered ∧ state ≠ .partiallyAnswered) :
    FromDecision history (noAnswer repositoryId state active repository count trace) :=
  fun answered => absurd answered (not_answers_noAnswer silent)

theorem flowEnds_finish {seen : List QuestionEvent} {left : AgentLocals} {result : AgentRunResult}
    (ends : FromDecision seen result) : FlowEnds seen left (.ok (.finish result)) := by
  intro other same
  obtain rfl := Flow.finish.inj (Except.ok.inj same)
  exact ends

theorem resultEnds_ok {seen : List QuestionEvent} {left : AgentLocals} {result : AgentRunResult}
    (ends : FromDecision seen result) : ResultEnds seen left (.ok result) := by
  intro other same
  obtain rfl := Except.ok.inj same
  exact ends

theorem flowEnds_error {seen : List QuestionEvent} {left : AgentLocals} {raised : Raised} :
    FlowEnds seen left (.error raised) :=
  fun _ same => nomatch same

theorem resultEnds_error {seen : List QuestionEvent} {left : AgentLocals} {raised : Raised} :
    ResultEnds seen left (.error raised) :=
  fun _ same => nomatch same

/-- Whatever a task does, it may do where everything is allowed. -/
theorem holds_any {Result : Type} (task : AgentTask Result) (history : List QuestionEvent)
    (locals : AgentLocals) : task.Holds anyContract history locals fun _ _ _ => True :=
  Program.safe_unrestricted (task.start locals) history

theorem toolStep_ends (tool : AgentToolName) (arguments : AgentToolArguments)
    (history : List QuestionEvent) (locals : AgentLocals) :
    (toolStep settings platform call active tool arguments).Holds anyContract history locals
      FlowEnds := by
  apply Task.holds_bind
  apply Task.holds_get
  apply Task.holds_bind
  apply Task.holds_get
  simp only
  split
  · apply Task.holds_bind
    apply Task.holds_modify
    exact Task.holds_pure fun result same => by cases same
  · apply Task.holds_bind
    apply Task.holds_modify
    apply Task.holds_bind
    apply (holds_any _ _ _).mono
    rintro seen left result -
    cases result with
    | error raised => exact flowEnds_error
    | ok attempt =>
        cases attempt with
        | unauthorized =>
            apply Task.holds_bind
            apply Task.holds_get
            exact Task.holds_pure (flowEnds_finish (fromDecision_noAnswer (by decide)))
        | failed | accepted =>
            apply Task.holds_bind
            apply Task.holds_modify
            exact Task.holds_pure fun result same => by cases same

/-- A decision that the provider returns is the last one of the history. -/
theorem askProvider_ends (history : List QuestionEvent) (locals : AgentLocals) :
    (askProvider settings.toSettings call).Holds anyContract history locals
      fun seen _ asked => ∀ decision, asked = .ok (some decision) →
        lastDecision seen = some decision := by
  apply Task.holds_bind
  apply Task.holds_get
  apply Task.holds_tryCatch
  apply Task.holds_bind
  refine Task.holds_ask trivial fun reply => ?_
  cases reply with
  | ok decision =>
      apply Task.holds_bind
      apply Task.holds_pure
      refine Task.holds_pure fun other same => ?_
      obtain rfl := Option.some.inj (Except.ok.inj same)
      rfl
  | error raised =>
      apply Task.holds_bind
      apply Task.holds_throw
      cases raised with
      | provider | timeout => exact Task.holds_pure fun other same => by cases same
      | cancelled | tool | indexing | value | access | github | database | other =>
          exact Task.holds_throw fun other same => by cases same

theorem decideStep_ends (history : List QuestionEvent) (locals : AgentLocals) :
    (decideStep settings platform call active).Holds anyContract history locals FlowEnds := by
  apply Task.holds_bind
  apply (askProvider_ends history locals).mono
  intro seen left result last
  cases result with
  | error raised => exact flowEnds_error
  | ok answer =>
      cases answer with
      | none =>
          apply Task.holds_bind
          apply Task.holds_get
          exact Task.holds_pure (flowEnds_finish (fromDecision_noAnswer (by decide)))
      | some decision =>
          simp only
          split
          case isTrue final =>
            apply Task.holds_bind
            apply ((finalize_finalized left call active decision).holds fun _ _ _ _ =>
              trivial).mono
            rintro later _ ended ⟨grown, rfl, finalized⟩
            cases ended with
            | error raised => exact flowEnds_error
            | ok result =>
                refine Task.holds_pure (flowEnds_finish fun answered => ⟨decision, ?_, final, ?_⟩)
                · rw [Extends.lastDecision_eq grown]
                  exact last decision rfl
                · exact finalized result rfl answered
          case isFalse =>
            split
            · apply Task.holds_bind
              apply Task.holds_get
              exact Task.holds_pure (flowEnds_finish (fromDecision_noAnswer (by decide)))
            · exact toolStep_ends _ _ _ _

theorem iteration_ends (history : List QuestionEvent) (locals : AgentLocals) :
    (iteration settings platform call active).Holds anyContract history locals FlowEnds := by
  apply Task.holds_bind
  apply Task.holds_get
  simp only
  split
  · exact decideStep_ends history locals
  · apply Task.holds_bind
    apply (holds_any _ _ _).mono
    rintro seen left result -
    cases result with
    | error raised => exact flowEnds_error
    | ok refreshed =>
        cases refreshed with
        | none =>
            apply Task.holds_bind
            apply Task.holds_get
            exact Task.holds_pure (flowEnds_finish (fromDecision_noAnswer (by decide)))
        | some repository =>
            apply Task.holds_bind
            apply Task.holds_modify
            exact decideStep_ends seen _

theorem exhausted_ends (history : List QuestionEvent) (locals : AgentLocals) :
    (exhausted call active).Holds anyContract history locals ResultEnds := by
  apply Task.holds_bind
  apply Task.holds_get
  apply Task.holds_pure
  apply resultEnds_ok
  apply fromDecision_noAnswer
  split <;> decide

theorem agentLoop_ends (remaining : Nat) : ∀ (history : List QuestionEvent) (locals : AgentLocals),
    (agentLoop settings platform call active remaining).Holds anyContract history locals
      ResultEnds := by
  induction remaining with
  | zero => exact exhausted_ends
  | succ remaining ih =>
      intro history locals
      apply Task.holds_bind
      apply (iteration_ends history locals).mono
      intro seen left result ends
      cases result with
      | error raised => exact resultEnds_error
      | ok flow =>
          cases flow with
          | next => exact ih seen left
          | stop => exact exhausted_ends seen left
          | finish result => exact Task.holds_pure (resultEnds_ok (ends result rfl))

theorem answer_ends :
    (answer settings platform call).Holds anyContract [] {} ResultEnds := by
  have ran : (runAgent settings platform call).Holds anyContract [] {} ResultEnds := by
    apply Task.holds_bind
    apply (holds_any _ _ _).mono
    rintro seen left result -
    cases result with
    | error raised => exact resultEnds_error
    | ok repository =>
        apply Task.holds_bind
        apply Task.holds_modify
        apply Task.holds_bind
        apply (holds_any _ _ _).mono
        rintro later left result -
        cases result with
        | error raised => exact resultEnds_error
        | ok loaded =>
            cases loaded with
            | none => exact Task.holds_pure (resultEnds_ok (fromDecision_noAnswer (by decide)))
            | some active =>
                simp only
                split
                · exact Task.holds_pure (resultEnds_ok (fromDecision_noAnswer (by decide)))
                · exact agentLoop_ends _ _ _
  apply Task.holds_tryCatch
  apply ran.mono
  intro seen left result ends
  cases result with
  | ok result => exact ends
  | error raised =>
      cases raised with
      | timeout | cancelled =>
          exact Task.holds_pure (resultEnds_ok (fromDecision_noAnswer (by decide)))
      | tool | indexing | value | access | github | provider | database | other =>
          exact Task.holds_throw resultEnds_error

end Runs

/-- What an answer names in brackets, it cites from its evidence. -/
def InlineGrounded (isDecimal : Char → Bool) (result : AgentRunResult) : Prop :=
  ∀ id, Bracketed isDecimal result.answer id →
    id ∈ result.citedEvidenceIds ∧ id ∈ result.evidence.map (·.evidenceId)

/-- What the answer of a decision names in brackets, the decision declares. -/
def InlineDeclared (isDecimal : Char → Bool) (decision : AgentDecision) : Prop :=
  ∀ id, Bracketed isDecimal (decision.answer.getD "") id → id ∈ decision.evidenceIds

/-- Then the names that the validator's pattern finds are cited, too. -/
theorem InlineGrounded.inlineIds {isDecimal : Char → Bool} {result : AgentRunResult}
    (grounded : InlineGrounded isDecimal result) :
    ∀ id ∈ Rag.inlineIds isDecimal result.answer.toList, id ∈ result.citedEvidenceIds :=
  fun id found => (grounded id (inlineIds_bracketed _ found)).1

theorem Finalized.inline_iff {isDecimal : Char → Bool} {decision : AgentDecision}
    {result : AgentRunResult} (finalized : Finalized decision result) :
    InlineGrounded isDecimal result ↔ InlineDeclared isDecimal decision := by
  have named : ∀ id, Bracketed isDecimal result.answer id ↔
      Bracketed isDecimal (decision.answer.getD "") id := by
    intro id
    rw [finalized.answer]
    by_cases blank : decision.answer.getD "" = ""
    · have fallback : (decision.answer.filter (· != "")).getD insufficientText =
          insufficientText := by
        cases given : decision.answer with
        | none => rfl
        | some text =>
            rw [given, Option.getD_some] at blank
            rw [blank]
            rfl
      rw [fallback, blank]
      exact iff_of_false (not_bracketed (by decide +kernel)) (not_bracketed (by decide))
    · cases given : decision.answer with
      | none => simp [given] at blank
      | some text =>
          rw [given, Option.getD_some] at blank
          simp [Option.filter, blank]
  constructor
  · intro grounded id bracketed
    exact (finalized.cited id).mp (grounded id ((named id).mpr bracketed)).1
  · intro declared id bracketed
    have cited := (finalized.cited id).mpr (declared id ((named id).mp bracketed))
    exact ⟨cited, finalized.known id cited⟩

/-- In every run that answers, the bracketed names of the answer are cited just
where the last decision declared them. -/
theorem inline_grounded_iff (settings : QuestionSettings) (platform : QuestionPlatform)
    (call : QuestionCall) (events : List QuestionEvent)
    (outcome : Except Raised AgentRunResult × AgentLocals) (result : AgentRunResult)
    (runs : ((answer settings platform call).start {}).Runs events outcome)
    (returned : outcome.1 = .ok result)
    (answered : result.answerability = .answered ∨ result.answerability = .partiallyAnswered) :
    ∃ decision, lastDecision events.reverse = some decision ∧ decision.action = .final ∧
      (InlineGrounded platform.isDecimal result ↔
        InlineDeclared platform.isDecimal decision) := by
  have safe : ((answer settings platform call).start {}).Safe anyContract
      (fun seen ended => ResultEnds seen ended.2 ended.1) [] := answer_ends
  have ends := safe.ends runs
  rw [List.append_nil] at ends
  obtain ⟨decision, last, final, finalized⟩ := ends result returned answered
  exact ⟨decision, last, final, finalized.inline_iff⟩

namespace InventedRun

open SearchedRun

/-- The answer names evidence that no tool returned, and declares what one did. -/
def decision (payload : AgentPayload) : AgentDecision :=
  { SearchedRun.decision payload with
    answer := if payload.evidence.isEmpty then none else some "There [T9-C9]." }

def replies (history : List QuestionEvent) : (request : QuestionRequest) → QuestionReply request
  | .decide payload => .ok (decision payload)
  | request => SearchedRun.replies history request

def run : (Except Raised AgentRunResult × AgentLocals) × List QuestionEvent :=
  ((answer settings platform call).start {}).recorded replies

/-- The result of a run that returns. -/
def returned (run : (Except Raised AgentRunResult × AgentLocals) × List QuestionEvent) :
    AgentRunResult :=
  run.1.1.toOption.getD (noAnswer 0 .temporarilyUnavailable none none 0 [])

end InventedRun

open SearchedRun InventedRun in
theorem searchedRun_inline : ∃ decision,
    lastDecision SearchedRun.run.2.reverse = some decision ∧ decision.action = .final ∧
      (InlineGrounded platform.isDecimal (returned SearchedRun.run) ↔
        InlineDeclared platform.isDecimal decision) :=
  inline_grounded_iff settings platform call SearchedRun.run.2 SearchedRun.run.1
    (returned SearchedRun.run) (Program.runs_recorded SearchedRun.replies _)
    (by decide +kernel) (by decide +kernel)

open SearchedRun InventedRun in
/-- The answer is returned with the invented name in it. -/
theorem invented_name_answered : ¬ ∀ (settings : QuestionSettings) (platform : QuestionPlatform)
    (call : QuestionCall) (events : List QuestionEvent)
    (outcome : Except Raised AgentRunResult × AgentLocals) (result : AgentRunResult),
    ((answer settings platform call).start {}).Runs events outcome → outcome.1 = .ok result →
      result.answerability = .answered ∨ result.answerability = .partiallyAnswered →
        InlineGrounded platform.isDecimal result := by
  intro grounded
  have every := grounded settings platform call InventedRun.run.2 InventedRun.run.1
    (returned InventedRun.run) (Program.runs_recorded InventedRun.replies _)
    (by decide +kernel) (by decide +kernel)
  have named : Bracketed platform.isDecimal (returned InventedRun.run).answer
      (evidenceName 9 ["C" ++ toString 9]) :=
    ⟨.code 9 9, "There ".toList, ".".toList, by decide +kernel⟩
  exact absurd (every _ named).1 (by decide +kernel)

end Codenaut.Agent
