import Codenaut.Indexing.Models
import Codenaut.Retries.Loop

/-!
# Transport failures

The retry loops of the embedding client (`app/embeddings/client.py`), the LLM
clients (`app/llm/client.py`) and the GitHub client (`app/github/client.py`) over
what the HTTP layer does at each attempt.
-/

set_option autoImplicit false

namespace Codenaut.Http

open Codenaut.Indexing Codenaut.Retries

/-- The classes of the `httpx.TransportError` family. -/
inductive TransportError where
  | connectTimeout
  | readTimeout
  | writeTimeout
  | poolTimeout
  | connectError
  | readError
  | writeError
  | closeError
  | localProtocolError
  | remoteProtocolError
  | proxyError
  | unsupportedProtocol
  deriving DecidableEq, Repr

/-- `except (httpx.ConnectError, httpx.TimeoutException)`. -/
def TransportError.handled : TransportError → Bool
  | .connectTimeout | .readTimeout | .writeTimeout | .poolTimeout | .connectError => true
  | _ => false

structure Response (Body : Type) where
  status : Nat
  body : Body
  deriving DecidableEq, Repr

/-- What one attempt at a request comes to. -/
inductive Outcome (Body : Type) where
  | answered (response : Response Body)
  | failed (error : TransportError)
  deriving DecidableEq, Repr

/-- How a client classifies the outcomes. -/
structure Policy (Error : Type) where
  accepts : Nat → Bool
  transient : Nat → Bool
  statusError : Nat → Error
  unavailable : Error

namespace Policy

variable {Body Error : Type}

def judge (policy : Policy Error) : Outcome Body → Judgement (Response Body) Error
  | .answered response =>
      if policy.accepts response.status then .answer response
      else if policy.transient response.status then .again (policy.statusError response.status)
      else .refuse (policy.statusError response.status)
  | .failed error => if error.handled then .again policy.unavailable else .propagate

/-- The loop over `range(1, attempts + 1)`. -/
def request (policy : Policy Error) (attempts : Nat) (outcomes : Nat → Outcome Body) :
    Run (Response Body) Error :=
  Retries.run policy.judge outcomes attempts 0

end Policy

/-- The bounded attempts of the settings (`app/core/config.py`). -/
structure RetrySettings where
  embeddingMaxAttempts : Nat := 3
  llmMaxAttempts : Nat := 2
  embeddingAttempts : 1 ≤ embeddingMaxAttempts ∧ embeddingMaxAttempts ≤ 10 := by decide
  llmAttempts : 1 ≤ llmMaxAttempts ∧ llmMaxAttempts ≤ 4 := by decide

/-! ## The embedding client -/

def embeddingStatusError (status : Nat) : IndexingError :=
  let retryable := [408, 425, 429, 500, 502, 503, 504].contains status
  if [401, 403].contains status then
    { code := "embedding_authentication_failed"
      safeMessage := "The private embedding service rejected worker authentication"
      retryable := false }
  else if status = 503 then
    { code := "embedding_model_not_ready"
      safeMessage := "The embedding model is not ready"
      retryable }
  else if [413, 422].contains status then
    { code := "embedding_input_rejected"
      safeMessage := "A repository chunk was rejected by the embedding service"
      retryable }
  else
    { code := "embedding_service_failure"
      safeMessage := "The private embedding service could not generate embeddings"
      retryable }

def embeddingPolicy : Policy IndexingError where
  accepts status := status == 200
  transient status := [408, 425, 429, 500, 502, 503, 504].contains status
  statusError := embeddingStatusError
  unavailable :=
    { code := "embedding_service_unavailable"
      safeMessage := "The private embedding service is temporarily unavailable"
      retryable := true }

/-- `EmbeddingServiceClient._request_with_retry`. -/
def embeddingRequestWithRetry {Body : Type} (settings : RetrySettings)
    (outcomes : Nat → Outcome Body) : Run (Response Body) IndexingError :=
  embeddingPolicy.request settings.embeddingMaxAttempts outcomes

/-! ## The LLM clients -/

structure LLMProviderError where
  code : String
  retryable : Bool
  deriving DecidableEq, Repr

def llmPolicy : Policy LLMProviderError where
  accepts status := status == 200
  transient status := [408, 425, 429, 500, 502, 503, 504].contains status
  statusError status :=
    if [401, 403].contains status then ⟨"llm_authentication_failed", false⟩
    else ⟨"llm_request_failed", [408, 425, 429, 500, 502, 503, 504].contains status⟩
  unavailable := ⟨"llm_unavailable", true⟩

/-- `_request_with_retry` of both clients. -/
def llmRequestWithRetry {Body : Type} (settings : RetrySettings)
    (outcomes : Nat → Outcome Body) : Run (Response Body) LLMProviderError :=
  llmPolicy.request settings.llmMaxAttempts outcomes

/-! ## The GitHub client -/

/-- `GitHubAPIError` carries nothing. -/
inductive GitHubAPIError where
  | mk
  deriving DecidableEq, Repr

/-- The arguments of `_request` that its loop reads. -/
structure GitHubCall where
  retryAttempts : Nat := 1
  allowErrorStatus : Bool := false
  attempts : 0 < retryAttempts := by decide

/-- `raise_for_status` lets the 2xx statuses pass. -/
def isSuccess (status : Nat) : Bool :=
  200 ≤ status ∧ status ≤ 299

def githubPolicy (call : GitHubCall) : Policy GitHubAPIError where
  accepts status := call.allowErrorStatus || isSuccess status
  transient status := [429, 500, 502, 503, 504].contains status
  statusError _ := .mk
  unavailable := .mk

/-- `GitHubClient._request`. -/
def githubRequest {Body : Type} (call : GitHubCall) (outcomes : Nat → Outcome Body) :
    Run (Response Body) GitHubAPIError :=
  (githubPolicy call).request call.retryAttempts outcomes

/-! ## Containment -/

section Containment

variable {Body Error : Type} (policy : Policy Error) (attempts : Nat)

/-- What a loop owes its callers: a response that the client accepts or an error
of its own class, within its attempts. -/
def Contained (run : Run (Response Body) Error) : Prop :=
  ((∃ response, run.ending = .returned response ∧ policy.accepts response.status = true) ∨
      ∃ error, run.ending = .raised error) ∧
    run.attempts ≤ attempts ∧ run.ending ≠ .exhausted

/-- A status after which the loop makes no further attempt. -/
def Policy.final (status : Nat) : Bool :=
  policy.accepts status || !policy.transient status

/-- Every transport error that the handlers leave out is preceded by a response
that ends the loop. -/
def UnhandledPreceded (outcomes : Nat → Outcome Body) : Prop :=
  ∀ index < attempts, ∀ error, outcomes index = .failed error → error.handled = false →
    ∃ earlier < index, ∃ response, outcomes earlier = .answered response ∧
      policy.final response.status = true

variable {policy attempts}

theorem judge_propagate {outcome : Outcome Body} :
    policy.judge outcome = .propagate ↔
      ∃ error, outcome = .failed error ∧ error.handled = false := by
  cases outcome with
  | answered response => simp only [Policy.judge]; split <;> (try split) <;> simp
  | failed error => cases handled : error.handled <;> simp [Policy.judge, handled]

theorem judge_settles {outcome : Outcome Body} :
    (policy.judge outcome).Settles ↔
      ∃ response, outcome = .answered response ∧ policy.final response.status = true := by
  cases outcome with
  | failed error => cases handled : error.handled <;> simp [Policy.judge, handled]
  | answered response =>
      cases accepted : policy.accepts response.status <;>
        cases passing : policy.transient response.status <;>
          simp [Policy.judge, Policy.final, accepted, passing]

/-- A client returns only responses that it accepts. -/
theorem judge_answer {outcome : Outcome Body} {response : Response Body}
    (answered : policy.judge outcome = .answer response) :
    policy.accepts response.status = true := by
  cases outcome with
  | failed error => cases handled : error.handled <;> simp [Policy.judge, handled] at answered
  | answered received =>
      cases accepted : policy.accepts received.status with
      | true =>
          simp only [Policy.judge, accepted, if_true, Judgement.answer.injEq] at answered
          exact answered ▸ accepted
      | false =>
          cases passing : policy.transient received.status <;>
            simp [Policy.judge, accepted, passing] at answered

/-- A loop contains its failures exactly if no unhandled error reaches it. -/
theorem request_contained_iff (positive : 0 < attempts) (outcomes : Nat → Outcome Body) :
    Contained policy attempts (policy.request attempts outcomes) ↔
      UnhandledPreceded policy attempts outcomes := by
  have settling := contained_iff policy.judge outcomes positive 0
  have bounded := attempts_le policy.judge outcomes attempts 0
  simp only [Nat.zero_add, judge_propagate, judge_settles] at settling bounded
  have accepted (response : Response Body) :
      (policy.request attempts outcomes).ending = .returned response →
        policy.accepts response.status = true := by
    intro returned
    obtain ⟨index, answered⟩ := returned_of policy.judge outcomes returned
    exact judge_answer answered
  constructor
  · rintro ⟨settled, -, -⟩ index reached error failed unhandled
    refine settling.mp ?_ index reached ⟨error, failed, unhandled⟩
    exact settled.imp_left fun ⟨response, returned, _⟩ => ⟨response, returned⟩
  · intro preceded
    have settled := settling.mpr fun index reached ⟨error, failed, unhandled⟩ =>
      preceded index reached error failed unhandled
    exact ⟨settled.imp_left fun ⟨response, returned⟩ =>
        ⟨response, returned, accepted response returned⟩,
      bounded, not_exhausted policy.judge outcomes positive 0⟩

end Containment

/-- Each of the loops returns a response that its client accepts or raises an
error of its own class, within its attempts, exactly if every transport error
other than a failed connection or a timeout comes after a response that ends
the loop. -/
theorem retry_loops_contained {Body : Type} (settings : RetrySettings) (call : GitHubCall)
    (outcomes : Nat → Outcome Body) :
    (Contained embeddingPolicy settings.embeddingMaxAttempts
        (embeddingRequestWithRetry settings outcomes) ↔
      UnhandledPreceded embeddingPolicy settings.embeddingMaxAttempts outcomes) ∧
    (Contained llmPolicy settings.llmMaxAttempts (llmRequestWithRetry settings outcomes) ↔
      UnhandledPreceded llmPolicy settings.llmMaxAttempts outcomes) ∧
    (Contained (githubPolicy call) call.retryAttempts (githubRequest call outcomes) ↔
      UnhandledPreceded (githubPolicy call) call.retryAttempts outcomes) :=
  ⟨request_contained_iff settings.embeddingAttempts.1 outcomes,
    request_contained_iff settings.llmAttempts.1 outcomes,
    request_contained_iff call.attempts outcomes⟩

/-- A connection that breaks while the response is read leaves each loop as an
`httpx.ReadError`, with attempts left. -/
theorem read_error_escapes :
    ∃ (settings : RetrySettings) (call : GitHubCall) (outcomes : Nat → Outcome Unit),
      outcomes 0 = .failed .readError ∧
      embeddingRequestWithRetry settings outcomes = ⟨.escaped, 1⟩ ∧
      llmRequestWithRetry settings outcomes = ⟨.escaped, 1⟩ ∧
      githubRequest call outcomes = ⟨.escaped, 1⟩ ∧
      ¬ Contained embeddingPolicy settings.embeddingMaxAttempts
        (embeddingRequestWithRetry settings outcomes) ∧
      ¬ Contained llmPolicy settings.llmMaxAttempts (llmRequestWithRetry settings outcomes) ∧
      ¬ Contained (githubPolicy call) call.retryAttempts (githubRequest call outcomes) := by
  refine ⟨{}, { retryAttempts := 2 }, fun _ => .failed .readError, rfl, rfl, rfl, rfl, ?_⟩
  simp [Contained, embeddingRequestWithRetry, llmRequestWithRetry, githubRequest, Policy.request,
    Retries.run, Policy.judge, TransportError.handled]

end Codenaut.Http
