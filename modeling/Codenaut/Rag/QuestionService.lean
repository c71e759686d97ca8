import Codenaut.Agent.Requests

/-!
# Single-pass answers

`QuestionService` of `app/rag/service.py`: retrieval, one synthesis, and a
check of the caller's access before each disclosure.
-/

set_option autoImplicit false

namespace Codenaut.Rag

open Codenaut.Agent Codenaut.Core Codenaut.Db Codenaut.Indexing Codenaut.Interaction Codenaut.Vector

/-- The `ActiveIndex` of this path, which keeps columns of the repository. -/
structure ScopedIndex where
  repositoryId : RepositoryId
  installationId : Option InstallationId
  accessMode : RepositoryAccessMode
  githubRepositoryId : Nat
  indexVersion : Nat
  commitSha : CommitSha
  preprocessingFingerprint : String
  deriving DecidableEq, Repr

def scopedIndex (repository : Repository) (build : RepositoryIndexBuild) : ScopedIndex where
  repositoryId := repository.id
  installationId := repository.installationId
  accessMode := repository.accessMode
  githubRepositoryId := repository.githubRepositoryId
  indexVersion := build.indexVersion
  commitSha := build.commitSha
  preprocessingFingerprint := build.preprocessingFingerprint

def insufficientText : String :=
  "The active index does not contain enough evidence to answer this question."

def unsupportedText : String :=
  "This question requires information outside Milestone 6 static indexed evidence."

def unavailableText : String :=
  "Grounded answering is temporarily unavailable. Please try again."

/-- `_no_answer`. -/
def noAnswer (repositoryId : RepositoryId) (state : Answerability)
    (active : Option ScopedIndex) (repository : Option Repository) (evidenceCount : Nat) :
    GroundedAnswer where
  repositoryId := repositoryId
  answer := match state with
    | .unsupportedQuestion => unsupportedText
    | .temporarilyUnavailable => unavailableText
    | _ => insufficientText
  answerability := state
  uncertainty := if state = .insufficientEvidence then .high else .notApplicable
  citations := []
  commitSha := match active with
    | some index => some index.commitSha
    | none => repository.bind (·.lastIndexedCommitSha)
  indexVersion := match active with
    | some index => index.indexVersion
    | none => (repository.map (·.indexVersion)).getD 0
  retrievedEvidenceCount := evidenceCount

/-- `_load_active_index`. -/
def loadScopedIndex (site : CheckSite) (repository : Repository) :
    QuestionTask Unit (Option ScopedIndex) := do
  let build ← loadActiveBuild site repository
  pure (build.map (scopedIndex repository))

/-- The scope of the search; the constructor may raise `ValueError`. -/
def ScopedIndex.vectorScope (active : ScopedIndex) : Option VectorScope :=
  VectorScope.make? active.installationId active.repositoryId active.indexVersion
    active.accessMode
    (if active.accessMode = .publicAccess then some active.githubRepositoryId else none)

/-- The body of the retrieval `try`. -/
def retrieveHits (settings : QuestionSettings) (platform : QuestionPlatform)
    (call : QuestionCall) (active : ScopedIndex) : QuestionTask Unit (List RetrievalHit) := do
  match prepareQuery settings.toSettings platform.toPlatform call.question.text with
  | .error failure => throw (Raised.ofFailure failure)
  | .ok prepared =>
      let queryVector ← raising (← Task.ask (.embedQuery prepared))
      match active.vectorScope with
      | none => throw .value
      | some scope =>
          raising (← Task.ask (.searchVectors scope queryVector active.commitSha
            (embeddingModelFingerprint settings.toSettings platform.toPlatform
              active.preprocessingFingerprint)
            active.preprocessingFingerprint settings.ragRetrievalOverfetch
            settings.ragRetrievalScoreThreshold))

/-- The retrieval with its handler; `none` is a classified failure. -/
def retrieve (settings : QuestionSettings) (platform : QuestionPlatform) (call : QuestionCall)
    (active : ScopedIndex) : QuestionTask Unit (Option (List RetrievalHit)) :=
  tryCatch (do
    let hits ← retrieveHits settings platform call active
    pure (some hits)) fun raised =>
      match raised with
      | .indexing _ => pure none
      | raised => throw raised

/-- The synthesis with its handler; `none` is a provider failure. -/
def synthesize (call : QuestionCall) (evidence : List Evidence) :
    QuestionTask Unit (Option GroundedAnswerDraft) :=
  tryCatch (do
    let draft ← raising (← Task.ask (.generate call.question evidence))
    pure (some draft)) fun raised =>
      match raised with
      | .provider _ => pure none
      | raised => throw raised

/-- The check between retrieval and synthesis. -/
def sameScope (repository current : Repository) (active : ScopedIndex)
    (currentActive : Option ScopedIndex) : Bool :=
  current.id == repository.id && current.installationId == repository.installationId &&
    current.accessMode == repository.accessMode &&
    current.githubRepositoryId == repository.githubRepositoryId && currentActive == some active

/-- The end of `_answer_bounded`, after the synthesis. -/
def concludeAnswer (platform : QuestionPlatform) (call : QuestionCall) (active : ScopedIndex)
    (evidence : List Evidence) (draft : GroundedAnswerDraft) :
    QuestionTask Unit GroundedAnswer := do
  let finalRepository ← authorizedRepository call .final
  let finalActive ← loadScopedIndex .final finalRepository
  if finalActive != some active then
    pure (noAnswer call.repositoryId .temporarilyUnavailable none (some finalRepository) 0)
  else
    let validated := validateCitations platform draft evidence active.commitSha
    if validated.1 ≠ .answered then
      pure (noAnswer call.repositoryId validated.1 (some active) none evidence.length)
    else
      pure {
        repositoryId := call.repositoryId
        answer := draft.answer
        answerability := validated.1
        uncertainty := draft.uncertainty.uncertainty
        citations := validated.2
        commitSha := some active.commitSha
        indexVersion := active.indexVersion
        retrievedEvidenceCount := evidence.length }

/-- `_answer_bounded` from the selected evidence on. -/
def discloseEvidence (platform : QuestionPlatform) (call : QuestionCall)
    (repository : Repository) (active : ScopedIndex) (evidence : List Evidence) :
    QuestionTask Unit GroundedAnswer := do
  let currentRepository ← authorizedRepository call .evidence
  let currentActive ← loadScopedIndex .evidence currentRepository
  if !sameScope repository currentRepository active currentActive then
    pure (noAnswer call.repositoryId .temporarilyUnavailable none (some currentRepository) 0)
  else
    match ← synthesize call evidence with
    | none =>
        pure (noAnswer call.repositoryId .temporarilyUnavailable (some active) none
          evidence.length)
    | some draft => concludeAnswer platform call active evidence draft

/-- `_answer_bounded`. -/
def answerBounded (settings : QuestionSettings) (platform : QuestionPlatform)
    (call : QuestionCall) : QuestionTask Unit GroundedAnswer := do
  let repository ← authorizedRepository call .initial
  match ← loadScopedIndex .initial repository with
  | none => pure (noAnswer call.repositoryId .insufficientEvidence none (some repository) 0)
  | some active =>
      if platform.isUnsupported call.question.text then
        pure (noAnswer call.repositoryId .unsupportedQuestion (some active) none 0)
      else
        match ← retrieve settings platform call active with
        | none => pure (noAnswer call.repositoryId .temporarilyUnavailable (some active) none 0)
        | some hits =>
            let evidence := select settings.toSettings hits
            if evidence.isEmpty then
              pure (noAnswer call.repositoryId .insufficientEvidence (some active) none 0)
            else discloseEvidence platform call repository active evidence

/-- `answer`: the timeout around the whole path gives no answer. -/
def answer (settings : QuestionSettings) (platform : QuestionPlatform) (call : QuestionCall) :
    QuestionTask Unit GroundedAnswer :=
  tryCatch (answerBounded settings platform call) fun raised =>
    match raised with
    | .timeout | .cancelled =>
        pure (noAnswer call.repositoryId .temporarilyUnavailable none none 0)
    | raised => throw raised

end Codenaut.Rag
