import Codenaut.Agent.Disclosure
import Codenaut.Rag.QuestionService

/-!
# Disclosure of a single-pass answer

The synthesis follows a check that passed, and so do citations.
-/

set_option autoImplicit false

namespace Codenaut.Rag

open Codenaut.Agent Codenaut.Core Codenaut.Db Codenaut.Interaction

theorem scopedIndex_eq {repository current : Repository} {build currentBuild : RepositoryIndexBuild}
    (same : scopedIndex current currentBuild = scopedIndex repository build) :
    current.id = repository.id ∧ loadedIndex currentBuild = loadedIndex build := by
  simp only [scopedIndex, ScopedIndex.mk.injEq] at same
  obtain ⟨sameId, -, -, -, version, commit, policy⟩ := same
  exact ⟨sameId, by simp [loadedIndex, version, commit, policy]⟩

section Path

variable {settings : QuestionSettings} {platform : QuestionPlatform} {call : QuestionCall}
  {repository : Repository} {build : RepositoryIndexBuild} {history : List QuestionEvent}

theorem retrieveHits_calls (active : ScopedIndex) :
    Task.Calls BackendRequest () (retrieveHits settings platform call active) fun _ => True := by
  unfold retrieveHits
  split
  · exact Task.calls_throw
  · apply Task.calls_bind (Task.calls_ask (by trivial))
    intro reply _
    apply Task.calls_bind (calls_raising _)
    intro queryVector _
    split
    · exact Task.calls_throw
    · apply Task.calls_bind (Task.calls_ask (by trivial))
      exact fun answered _ => calls_raising _

theorem retrieve_calls (active : ScopedIndex) :
    Task.Calls BackendRequest () (retrieve settings platform call active) fun _ => True := by
  apply calls_handled
  · exact Task.calls_bind (retrieveHits_calls active) fun hits _ => Task.calls_pure trivial
  · intro raised
    split
    · exact Task.calls_pure trivial
    · exact Task.calls_throw

/-- Citations end on a check that passed. -/
def Cites (call : QuestionCall) (seen : List QuestionEvent)
    (result : Except Raised GroundedAnswer) : Prop :=
  ∀ answered, result = .ok answered → answered.citations ≠ [] →
    Admitted Refuses call seen.reverse

theorem Cites.silent {seen : List QuestionEvent} {answered : GroundedAnswer}
    (silent : answered.citations = []) : Cites call seen (.ok answered) := by
  rintro returned ⟨⟩ cites
  exact absurd silent cites

theorem Cites.raised {seen : List QuestionEvent} {raised : Raised} :
    Cites call seen (.error raised) :=
  fun _ same => by cases same

theorem synthesize_clears (evidence : List Evidence)
    (checked : Checked call repository build history) :
    (synthesize call evidence).Holds (disclosureContract call) history ()
      fun seen _ _ => Clear call repository build seen := by
  apply Task.holds_tryCatch
  apply Task.holds_bind
  refine Task.holds_ask (fun _ => checked.admitted) fun reply => ?_
  have still : ∀ answer : Except Raised GroundedAnswerDraft,
      Clear call repository build (⟨.generate call.question evidence, answer⟩ :: history) :=
    fun answer => checked.clear.snoc fun refuses => refuses.1
  cases reply with
  | ok draft =>
      apply Task.holds_bind
      apply Task.holds_pure
      exact Task.holds_pure (still (.ok draft))
  | error raised =>
      apply Task.holds_bind
      apply Task.holds_throw
      cases raised with
      | provider => exact Task.holds_pure (still (.error _))
      | timeout | cancelled | tool | indexing | value | access | github | database | other =>
          exact Task.holds_throw (still (.error _))

theorem concludeAnswer_cites (evidence : List Evidence) (draft : GroundedAnswerDraft)
    (clear : Clear call repository build history) :
    (concludeAnswer platform call (scopedIndex repository build) evidence draft).Holds
      (disclosureContract call) history () fun seen _ result => Cites call seen result := by
  apply Task.holds_bind
  apply authorizedRepository_holds
  intro reply
  cases reply with
  | error raised => exact .raised
  | ok current =>
      apply Task.holds_bind
      apply Task.holds_bind
      apply loadActiveBuild_holds
      · intro missing
        apply Task.holds_pure
        exact Task.holds_pure (.silent rfl)
      · intro indexed reply
        cases reply with
        | error raised => exact .raised
        | ok loaded =>
            apply Task.holds_pure
            simp only
            split
            case isTrue => exact Task.holds_pure (.silent rfl)
            case isFalse agrees =>
              simp only [bne_iff_ne, ne_eq, not_not] at agrees
              obtain ⟨currentBuild, rfl, same⟩ := Option.map_eq_some_iff.mp agrees
              obtain ⟨sameId, sameIndex⟩ := scopedIndex_eq same
              have checked : Checked call repository build
                  ((passed call .final current currentBuild).reverse ++ history) :=
                clear.checked indexed sameId sameIndex
              split
              · exact Task.holds_pure (.silent rfl)
              · exact Task.holds_pure fun _ _ _ => checked.admitted

theorem discloseEvidence_cites (evidence : List Evidence)
    (clear : Clear call repository build history) :
    (discloseEvidence platform call repository (scopedIndex repository build) evidence).Holds
      (disclosureContract call) history () fun seen _ result => Cites call seen result := by
  apply Task.holds_bind
  apply authorizedRepository_holds
  intro reply
  cases reply with
  | error raised => exact .raised
  | ok current =>
      apply Task.holds_bind
      apply Task.holds_bind
      apply loadActiveBuild_holds
      · intro missing
        apply Task.holds_pure
        have differs : sameScope repository current (scopedIndex repository build) none = false :=
          Bool.and_false _
        simp only [Option.map_none, differs, Bool.not_false, if_true]
        exact Task.holds_pure (.silent rfl)
      · intro indexed reply
        cases reply with
        | error raised => exact .raised
        | ok loaded =>
            apply Task.holds_pure
            simp only
            split
            case isTrue => exact Task.holds_pure (.silent rfl)
            case isFalse agrees =>
              simp only [sameScope, Bool.not_eq_true', Bool.not_eq_false, Bool.and_eq_true,
                beq_iff_eq] at agrees
              obtain ⟨currentBuild, rfl, same⟩ := Option.map_eq_some_iff.mp agrees.2
              obtain ⟨sameId, sameIndex⟩ := scopedIndex_eq same
              have checked : Checked call repository build
                  ((passed call .evidence current currentBuild).reverse ++ history) :=
                clear.checked indexed sameId sameIndex
              apply Task.holds_bind
              apply (synthesize_clears evidence checked).mono
              intro seen left result still
              cases result with
              | error raised => exact .raised
              | ok draft =>
                  cases draft with
                  | none => exact Task.holds_pure (.silent rfl)
                  | some draft => exact concludeAnswer_cites evidence draft still

theorem answerBounded_cites :
    (answerBounded settings platform call).Holds (disclosureContract call) [] ()
      fun seen _ result => Cites call seen result := by
  apply Task.holds_bind
  apply authorizedRepository_holds
  intro reply
  cases reply with
  | error raised => exact .raised
  | ok repository =>
      apply Task.holds_bind
      apply Task.holds_bind
      apply loadActiveBuild_holds
      · intro missing
        apply Task.holds_pure
        exact Task.holds_pure (.silent rfl)
      · intro indexed reply
        cases reply with
        | error raised => exact .raised
        | ok loaded =>
            apply Task.holds_pure
            cases loaded with
            | none => exact Task.holds_pure (.silent rfl)
            | some build =>
                simp only [Option.map_some]
                split
                · exact Task.holds_pure (.silent rfl)
                · apply Task.holds_bind
                  apply (backend_holds (retrieve_calls (scopedIndex repository build))
                    (Clear.start call repository build)).mono
                  rintro seen _ result ⟨still, rfl⟩
                  cases result with
                  | error raised => exact .raised
                  | ok found =>
                      cases found with
                      | none => exact Task.holds_pure (.silent rfl)
                      | some hits =>
                          simp only
                          split
                          · exact Task.holds_pure (.silent rfl)
                          · exact discloseEvidence_cites _ still

theorem answer_cites :
    (answer settings platform call).Holds (disclosureContract call) [] ()
      fun seen _ result => Cites call seen result := by
  apply Task.holds_tryCatch
  apply answerBounded_cites.mono
  intro seen left result ends
  cases result with
  | ok answered => exact ends
  | error raised =>
      cases raised with
      | timeout | cancelled => exact Task.holds_pure (.silent rfl)
      | tool | indexing | value | access | github | provider | database | other => exact ends

end Path

theorem answer_gated (settings : QuestionSettings) (platform : QuestionPlatform)
    (call : QuestionCall) {events : List QuestionEvent}
    {outcome : Except Raised GroundedAnswer × Unit}
    (runs : ((answer settings platform call).start ()).Runs events outcome) :
    Gated Refuses call events
      (∃ answered, outcome.1 = .ok answered ∧ answered.citations ≠ []) := by
  have safe : ((answer settings platform call).start ()).Safe (disclosureContract call)
      (fun seen ended => Cites call seen ended.1) [] :=
    answer_cites
  apply Gated.of_admitted
  · rintro before request reply after rfl sends
    simpa using safe.asks runs sends
  · rintro ⟨answered, same, cites⟩
    simpa using safe.ends runs answered same cites

/-! ## Both paths -/

/-- On both question paths, evidence is sent, and evidence or citations are
returned, right after a check of the repository and the index that the path
started with. A check that refuses ends the disclosures. -/
theorem disclosures_gated (settings : QuestionSettings) (platform : QuestionPlatform)
    (call : QuestionCall) :
    (∀ (events : List QuestionEvent) (outcome : Except Raised AgentRunResult × AgentLocals),
      ((Agent.answer settings platform call).start {}).Runs events outcome →
        Gated Refuses call events
          (∃ answered, outcome.1 = .ok answered ∧ answered.Discloses)) ∧
    (∀ (events : List QuestionEvent) (outcome : Except Raised GroundedAnswer × Unit),
      ((answer settings platform call).start ()).Runs events outcome →
        Gated Refuses call events
          (∃ answered, outcome.1 = .ok answered ∧ answered.citations ≠ [])) :=
  ⟨fun _ _ runs => agent_gated settings platform call runs,
    fun _ _ runs => answer_gated settings platform call runs⟩

/-! ## Runs that disclose -/

namespace CitedAnswer

open SearchedRun

def draft : GroundedAnswerDraft where
  answer := "There."
  answerability := .answered
  uncertainty := .low
  evidenceIds := ["E1"]

def replies (history : List QuestionEvent) : (request : QuestionRequest) → QuestionReply request
  | .generate _ _ => .ok draft
  | request => SearchedRun.replies history request

def run : (Except Raised GroundedAnswer × Unit) × List QuestionEvent :=
  ((answer settings platform call).start ()).recorded replies

end CitedAnswer

theorem disclosingRuns_gated :
    (Gated Refuses SearchedRun.call SearchedRun.run.2
        (∃ answered, SearchedRun.run.1.1 = .ok answered ∧ answered.Discloses) ∧
      Gated Refuses SearchedRun.call CitedAnswer.run.2
        (∃ answered, CitedAnswer.run.1.1 = .ok answered ∧ answered.citations ≠ [])) ∧
      CitedAnswer.run.1.1.toOption.map (·.citations.length) = some 1 := by
  have gated := disclosures_gated SearchedRun.settings SearchedRun.platform SearchedRun.call
  refine ⟨⟨?_, ?_⟩, by decide +kernel⟩
  · exact gated.1 _ _ (Program.runs_recorded SearchedRun.replies _)
  · exact gated.2 _ _ (Program.runs_recorded CitedAnswer.replies _)

/-! ## A failed check that a tool step records -/

namespace RecordedCheck

open SearchedRun

def platform : QuestionPlatform :=
  { SearchedRun.platform with sha256Hex := id }

/-- The decisions search, then ask for callers, then answer from what was found. -/
def decision (payload : AgentPayload) : AgentDecision :=
  if payload.evidence.isEmpty || !payload.failedTools.isEmpty then SearchedRun.decision payload
  else
    { action := .tool, toolName := some .findCallers,
      arguments := some { symbolName := some "main" } }

def searched (history : List QuestionEvent) : Bool :=
  history.any fun event => match event.1 with
    | .searchVectors .. => true
    | _ => false

/-- After the search, the first check at the site raises. -/
def replies (failing : CheckSite) (raised : Raised) (history : List QuestionEvent) :
    (request : QuestionRequest) → QuestionReply request
  | .authorize site _ _ =>
      if site = failing && searched history then .error raised else .ok repository
  | .decide payload => .ok (decision payload)
  | request => SearchedRun.replies history request

def run (failing : CheckSite) (raised : Raised) :
    (Except Raised AgentRunResult × AgentLocals) × List QuestionEvent :=
  ((Agent.answer settings platform call).start {}).recorded (replies failing raised)

/-- A check of the run raised. -/
def checkRaised : QuestionEvent → Bool
  | ⟨.authorize _ _ _, .error _⟩ => true
  | _ => false

def cites (result : Except Raised AgentRunResult) : Bool :=
  result.toOption.any fun answered => !answered.citedEvidenceIds.isEmpty

/-- A run that discloses after a check raised is not gated by every check. -/
theorem not_gated {call : QuestionCall} {events : List QuestionEvent} {discloses : Prop}
    (raised : events.any checkRaised = true) (disclosed : discloses) :
    ¬ Gated Fails call events discloses := by
  intro gated
  obtain ⟨repository, build, between, site, current, currentBuild, -, -, -, unfailed⟩ :=
    gated.returned disclosed
  obtain ⟨⟨request, reply⟩, member, failing⟩ := List.any_eq_true.mp raised
  apply unfailed _ member
  cases request with
  | authorize =>
      cases reply with
      | ok => cases failing
      | error => exact trivial
  | loadBuild | decide | generate | enter | embedQuery | searchVectors | publicHistory
  | authorizedInstallation | installationToken | repositoryHistory | graphBuild | callerTargets
  | callerRows => cases failing

theorem discloses_of_cites {result : Except Raised AgentRunResult} (cited : cites result = true) :
    ∃ answered, result = .ok answered ∧ answered.Discloses := by
  cases result with
  | error raised => cases cited
  | ok answered =>
      refine ⟨answered, rfl, .inr ?_⟩
      simpa [cites, Except.toOption] using cited

end RecordedCheck

open RecordedCheck in
/-- The check before a tool times out, or the caller tool's own check finds the
access revoked; the run goes on and answers after a further check. -/
theorem failedCheck_recorded :
    ¬ Gated Fails SearchedRun.call (run .tool .timeout).2
        (∃ answered, (run .tool .timeout).1.1 = .ok answered ∧ answered.Discloses) ∧
      ¬ Gated Fails SearchedRun.call (run .callers .access).2
        (∃ answered, (run .callers .access).1.1 = .ok answered ∧ answered.Discloses) :=
  ⟨not_gated (by decide +kernel) (discloses_of_cites (by decide +kernel)),
    not_gated (by decide +kernel) (discloses_of_cites (by decide +kernel))⟩

end Codenaut.Rag
