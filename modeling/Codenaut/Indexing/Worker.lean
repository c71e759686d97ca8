import Codenaut.Indexing.Freshness
import Codenaut.Interaction.Program
import Codenaut.Services.Operation
import Codenaut.Vector.Qdrant

/-!
# Indexing worker

`IndexingWorker._run_claimed` and the methods under it
(`app/indexing/worker.py`), as a program that asks the job store, the provider,
the analyzer, the embedding service and the vector store. The workspace on disk
and the log are left out; the heartbeat is a transaction of its own.
-/

set_option autoImplicit false

namespace Codenaut.Indexing

open Codenaut.Core Codenaut.Db Codenaut.Embeddings Codenaut.Interaction Codenaut.Services
open Codenaut.Vector

/-! ## Requests -/

abbrev Token : Type := String

structure ClonedRepository where
  checkout : String
  commitSha : CommitSha
  deriving DecidableEq, Repr

/-- How a call to the provider raises: `GitHubAPIError` with its two
subclasses, or anything else. -/
inductive GitHubFailure where
  | notFound
  | isPrivate
  | api
  | internal
  deriving DecidableEq, Repr

/-- The arguments of `analyze`. -/
structure AnalysisInput where
  checkout : String
  discovery : DiscoveryResult
  repositoryId : RepositoryId
  indexVersion : Nat
  commitSha : CommitSha
  deriving DecidableEq, Repr

/-- The analyzer's child process reports two stages before its result. -/
inductive Request where
  | store (call : StoreCall)
  | publicRepository (owner name : String)
  | installationToken (githubInstallationId githubRepositoryId : Nat)
  | clone (owner name defaultBranch : String) (installationToken : Option Token)
  | comparePublic (owner name : String) (base head : CommitSha)
  | compare (installationToken : Token) (owner name : String) (base head : CommitSha)
  | discover (checkout : String)
  | chunking (input : AnalysisInput)
  | graphing (input : AnalysisInput)
  | analysisResult (input : AnalysisInput)
  | embedDocuments (documents : List PreparedEmbedding)
  | ensureCollection
  | deleteScope (scope : VectorScope)
  | upsert (scope : VectorScope) (records : List VectorRecord)
  | validateScope (scope : VectorScope) (expectedCount : Nat) (commitSha : CommitSha)
      (modelFingerprint : String)
  | reusableVectors (scope : VectorScope) (prepared : List PreparedEmbedding)
      (commitSha : CommitSha) (modelFingerprint preprocessingFingerprint : String)

abbrev Request.Reply : Request → Type
  | .store call => Except Failure call.Reply
  | .publicRepository _ _ => Except GitHubFailure GitHub.PublicRepository
  | .installationToken _ _ => Except GitHubFailure Token
  | .clone _ _ _ _ => Except Failure ClonedRepository
  | .comparePublic _ _ _ _ => Except GitHubFailure GitHub.CommitComparison
  | .compare _ _ _ _ _ => Except GitHubFailure GitHub.CommitComparison
  | .discover _ => Except Failure DiscoveryResult
  | .chunking _ => Except Failure Unit
  | .graphing _ => Except Failure Unit
  | .analysisResult _ => Except Failure ProcessingResult
  | .embedDocuments _ => Except Failure VectorMap
  | .ensureCollection => Except Failure Unit
  | .deleteScope _ => Except Failure Unit
  | .upsert _ _ => Except Failure Unit
  | .validateScope _ _ _ _ => Except Failure Unit
  | .reusableVectors _ _ _ _ _ => Except Failure VectorMap

/-- `_RunState`. -/
structure RunState where
  context : Option JobContext := none
  buildPrepared : Bool := false
  deriving DecidableEq, Repr

abbrev Work (Result : Type) : Type := Task Request Request.Reply RunState Failure Result

def raising {Result : Type} (reply : Except Failure Result) : Work Result :=
  match reply with
  | .ok result => pure result
  | .error failure => throw failure

/-- A method of the job store. -/
def store (call : StoreCall) : Work call.Reply := do
  raising (← Task.ask (.store call))

def workerError (code safeMessage : String) (retryable : Bool) : Failure :=
  .indexing { code, safeMessage, retryable }

/-! ## Vector scopes -/

def contextScope (context : JobContext) (indexVersion : Nat) : Option VectorScope :=
  VectorScope.make? context.installationId context.repositoryId indexVersion context.accessMode
    (if context.accessMode = .publicAccess then some context.githubRepositoryId else none)

/-- `_scope`; an invalid scope raises `ValueError`. -/
def scopeAt (context : JobContext) (indexVersion : Nat) : Work VectorScope :=
  match contextScope context indexVersion with
  | some scope => pure scope
  | none => throw .internal

/-! ## Clone token -/

/-- `_clone_token` of a public repository whose provider record is gone or changed. -/
def withdrawPublic {Result : Type} (context : JobContext) (code safeMessage : String) :
    Work Result := do
  store (.revokePublicAccess context.repositoryId)
  throw (workerError code safeMessage false)

def identityChanged (context : JobContext) (metadata : GitHub.PublicRepository) : Bool :=
  metadata.repository.id != context.githubRepositoryId || metadata.repository.isPrivate ||
    metadata.repository.defaultBranch != context.defaultBranch

def publicCloneToken (context : JobContext) : Work (Option Token) := do
  match ← Task.ask (Request.publicRepository context.owner context.name) with
  | .error .notFound | .error .isPrivate =>
      withdrawPublic context "public_repository_unavailable"
        "The public repository is no longer available"
  | .error .api =>
      throw (workerError "github_metadata_unavailable"
        "GitHub repository metadata is temporarily unavailable" true)
  | .error .internal => throw .internal
  | .ok metadata =>
      if identityChanged context metadata then
        withdrawPublic context "public_repository_identity_changed"
          "The public repository identity changed"
      else pure none

def installationMissing : Failure :=
  workerError "github_installation_missing" "GitHub repository authorization is unavailable" false

def installationCloneToken (context : JobContext) : Work (Option Token) :=
  match context.githubInstallationId with
  | none => throw installationMissing
  | some githubInstallationId => do
      match ← Task.ask (Request.installationToken githubInstallationId context.githubRepositoryId) with
      | .ok token => pure (some token)
      | .error .internal => throw .internal
      | .error _ =>
          throw (workerError "github_token_unavailable"
            "GitHub repository access is temporarily unavailable" true)

def cloneToken (context : JobContext) : Work (Option Token) :=
  match context.accessMode with
  | .publicAccess => publicCloneToken context
  | .githubInstallation => installationCloneToken context

/-- `_require_installation_token`. -/
def requireInstallationToken (token : Option Token) : Work Token :=
  match token with
  | some granted => pure granted
  | none => throw installationMissing

/-! ## Comparison and analysis -/

/-- Every `GitHubAPIError` means that there is no comparison. -/
def comparisonOf (reply : Except GitHubFailure GitHub.CommitComparison) :
    Work (Option GitHub.CommitComparison) :=
  match reply with
  | .ok comparison => pure (some comparison)
  | .error .internal => throw .internal
  | .error _ => pure none

def compareWithActive (context : JobContext) (token : Option Token) (head : CommitSha) :
    Work (Option GitHub.CommitComparison) :=
  match context.activeCommitSha with
  | none => pure none
  | some base =>
      match context.accessMode with
      | .publicAccess => do
          comparisonOf (← Task.ask (.comparePublic context.owner context.name base head))
      | .githubInstallation => do
          let granted ← requireInstallationToken token
          comparisonOf (← Task.ask (.compare granted context.owner context.name base head))

/-- The analyzer answered for another checkout. -/
def parserFailure : Failure :=
  workerError "internal_parser_failure" "Static repository processing failed safely" false

def analyze (context : JobContext) (cloned : ClonedRepository) :
    Work (DiscoveryResult × ProcessingResult) := do
  store (.stage .discovering "discovering" 55 (some cloned.commitSha))
  let discovery ← raising (← Task.ask (.discover cloned.checkout))
  store (.stage .parsing "parsing" 65 (some cloned.commitSha))
  let input : AnalysisInput :=
    { checkout := cloned.checkout
      discovery := discovery
      repositoryId := context.repositoryId
      indexVersion := context.indexVersion
      commitSha := cloned.commitSha }
  raising (← Task.ask (.chunking input))
  store (.stage .parsing "chunking" 85 (some cloned.commitSha))
  raising (← Task.ask (.graphing input))
  store (.stage .buildingGraph "building_graph" 87 (some cloned.commitSha))
  let processing ← raising (← Task.ask (.analysisResult input))
  if processing.repositoryId = context.repositoryId ∧
      processing.indexVersion = context.indexVersion ∧
      processing.commitSha = cloned.commitSha then
    pure (discovery, processing)
  else throw parserFailure

/-! ## Refresh plan -/

/-- The plan falls back to a full rebuild when too many bytes changed. -/
def boundedPlan (settings : Settings) (discovery : DiscoveryResult) (plan : FreshnessPlan) :
    FreshnessPlan :=
  let changed := discovery.files.filter fun file => file.relativePath ∈ plan.changes.targetPaths
  if plan.actualMode = .incremental ∧
      settings.freshnessMaxChangedBytes < (changed.map (·.sizeBytes)).sum then
    ⟨.full, some "changed_bytes_limit", plan.changes⟩
  else plan

def recordPlan (plan : FreshnessPlan) (actualMode : IndexingMode)
    (fallbackReason : Option String) : Work Unit :=
  store (.recordFreshnessPlan actualMode fallbackReason plan.changes.counts
    (plan.changes.targetPaths ∪ plan.changes.removedPaths).card)

/-! ## Embedding -/

def activationRaceLost : Failure :=
  workerError "index_activation_race"
    "The inactive index is no longer eligible for activation" false

def modelFingerprint (settings : Settings) (platform : Platform) : String :=
  embeddingModelFingerprint settings platform (policyFingerprint settings platform)

/-- The chunks whose files the comparison did not change. -/
def reusableDocuments (plan : FreshnessPlan) (prepared : List PreparedEmbedding) :
    List PreparedEmbedding :=
  prepared.filter fun document => document.chunk.filePath ∉ plan.changes.targetPaths

/-- The vectors of the active version that an incremental refresh keeps: all of
them, or none. -/
def reuseVectors (settings : Settings) (platform : Platform) (context : JobContext)
    (plan : FreshnessPlan) (prepared : List PreparedEmbedding) : Work VectorMap :=
  if plan.actualMode = .incremental ∧ 0 < context.activeIndexVersion then do
    let reusable := reusableDocuments plan prepared
    let active ← scopeAt context context.activeIndexVersion
    let reused ← raising (← Task.ask (.reusableVectors active reusable
      (context.activeCommitSha.getD "") (modelFingerprint settings platform)
      (policyFingerprint settings platform)))
    if reused.keys.length = reusable.length then pure reused
    else do
      recordPlan plan .full (some "previous_artifact_missing")
      pure ∅
  else pure ∅

def vectorOf (reused embeddings : VectorMap) (document : PreparedEmbedding) : Embedding :=
  (reused.lookup document.itemId).getD ((embeddings.lookup document.itemId).getD [])

/-- The second half of `_embed_and_store`: the scope is emptied and written anew. -/
def storeVectors (settings : Settings) (platform : Platform) (context : JobContext)
    (cloned : ClonedRepository) (prepared toEmbed : List PreparedEmbedding)
    (reused embeddings : VectorMap) : Work Nat := do
  store (.stage .finalizing "storing_vectors" 92 (some cloned.commitSha))
  let scope ← scopeAt context context.indexVersion
  let eligible ← store (.canCleanupInactive context.repositoryId context.indexVersion)
  if eligible then do
    raising (← Task.ask .ensureCollection)
    raising (← Task.ask (.deleteScope scope))
    let records := prepared.map fun document =>
      buildVectorRecord settings platform scope document (vectorOf reused embeddings document)
        (policyFingerprint settings platform)
    raising (← Task.ask (.upsert scope records))
    store (.recordVectorCounts prepared.length records.length reused.keys.length
      (some toEmbed.length))
    pure records.length
  else throw activationRaceLost

def embedAndStore (settings : Settings) (platform : Platform) (context : JobContext)
    (cloned : ClonedRepository) (processing : ProcessingResult) (plan : FreshnessPlan) :
    Work Nat := do
  store (.stage .embedding "embedding" 88 (some cloned.commitSha))
  let prepared ← raising (processing.chunks.mapM (prepareChunk settings platform))
  let reused ← reuseVectors settings platform context plan prepared
  let toEmbed := prepared.filter fun document => document.itemId ∉ reused
  let embeddings ← raising (← Task.ask (.embedDocuments toEmbed))
  if embeddings.keys.length = toEmbed.length then
    storeVectors settings platform context cloned prepared toEmbed reused embeddings
  else
    throw (workerError "embedding_result_count_mismatch"
      "The embedding service returned an invalid response" false)

/-! ## Cleanup -/

/-- `delete_scope` on one version of the context's repository. -/
def deleteVersion (context : JobContext) (indexVersion : Nat) : Work Unit := do
  let scope ← scopeAt context indexVersion
  raising (← Task.ask (.deleteScope scope))

/-- `delete_scope` on the inactive version; whether it succeeded. -/
def deleteInactive (context : JobContext) : Work Bool :=
  tryCatch (do deleteVersion context context.indexVersion; pure true) fun _ => pure false

def cleanupInactive (context : JobContext) : Work Bool := do
  let eligible ← store (.canCleanupInactive context.repositoryId context.indexVersion)
  if eligible then do
    let deleted ← deleteInactive context
    store (.recordFailedBuildCleanup context.repositoryId context.indexVersion deleted)
    pure deleted
  else pure false

def cleanupSuperseded (context : JobContext) (indexVersion : Nat) : Work Unit :=
  tryCatch
    (do
      deleteVersion context indexVersion
      store (.completeSupersededCleanup context.repositoryId indexVersion))
    fun _ => pure ()

/-! ## Activation -/

def activateIndex (context : JobContext) (commitSha : CommitSha) : Work Unit := do
  store (.stage .finalizing "activating_index" 99 (some commitSha))
  let previousVersion ← store (.activate commitSha)
  if 0 < previousVersion then cleanupSuperseded context previousVersion

/-- The second authorization must give the context of the first. -/
def activateAuthorized (context : JobContext) (commitSha : CommitSha) :
    Option JobContext → Work Unit
  | none => do
      let _ ← cleanupInactive context
      store .cancelRevoked
  | some reauthorized =>
      if reauthorized = context then activateIndex context commitSha
      else throw activationRaceLost

/-- `_validate_and_activate`; its result is only logged. -/
def validateAndActivate (settings : Settings) (platform : Platform) (context : JobContext)
    (commitSha : CommitSha) (vectorCount : Nat) : Work Unit := do
  store (.stage .finalizing "validating_index" 96 (some commitSha))
  let scope ← scopeAt context context.indexVersion
  raising (← Task.ask (.validateScope scope vectorCount commitSha
    (modelFingerprint settings platform)))
  store .validateGraph
  store .markBuildReady
  let current ← store .isCurrent
  if current then do
    let reauthorized ← store .authorizedContext
    activateAuthorized context commitSha reauthorized
  else do
    let _ ← cleanupInactive context
    store (.markStale "refresh_superseded_before_activation" true)

/-! ## A claimed job -/

/-- The refresh from a clone that differs from the active index. -/
def refreshFrom (settings : Settings) (platform : Platform) (context : JobContext)
    (token : Option Token) (cloned : ClonedRepository) : Work Unit := do
  let comparison ← compareWithActive context token cloned.commitSha
  let planned := planRefresh comparison (decide (0 < context.activeIndexVersion))
    context.requestedMode settings.freshnessMaxChangedFiles
  let (discovery, processing) ← analyze context cloned
  let plan := boundedPlan settings discovery planned
  recordPlan plan plan.actualMode plan.fallbackReason
  store (.prepareBuild cloned.commitSha discovery processing (policyFingerprint settings platform))
  modify fun state => { state with buildPrepared := true }
  let vectorCount ← embedAndStore settings platform context cloned processing plan
  validateAndActivate settings platform context cloned.commitSha vectorCount

/-- The clone is the active commit already. -/
def targetAlreadyActive (context : JobContext) (cloned : ClonedRepository) : Bool :=
  context.activeCommitSha == some cloned.commitSha &&
    context.indexedBranch == some context.defaultBranch &&
    context.requestedMode == .incremental

def processAuthorized (settings : Settings) (platform : Platform) (context : JobContext) :
    Work Unit := do
  let token ← cloneToken context
  let cloned ← raising (← Task.ask (.clone context.owner context.name context.defaultBranch token))
  if targetAlreadyActive context cloned then store (.markStale "target_already_active" false)
  else refreshFrom settings platform context token cloned

/-- The body of the outer `try`. -/
def attemptClaimed (settings : Settings) (platform : Platform) : Work Unit := do
  let authorized ← store .authorizedContext
  modify fun state => { state with context := authorized }
  match authorized with
  | none => store .cancelRevoked
  | some context => do
      let current ← store .isCurrent
      if current then processAuthorized settings platform context
      else store (.markStale "refresh_superseded" true)

/-- The inactive build is cleaned up if this run prepared it. -/
def cleanupPrepared : Work Bool := do
  let state ← get
  match state.context with
  | some context => if state.buildPrepared then cleanupInactive context else pure true
  | none => pure true

/-- The two outer handlers. -/
def failClaimed (failure : Failure) : Work Unit := do
  let complete ← cleanupPrepared
  let _ ←
    match failure with
    | .indexing error =>
        store (.fail error.code error.safeMessage (error.retryable || !complete))
    | .internal =>
        store (.fail "worker_internal_error" "The indexing worker encountered an internal error"
          true)
  pure ()

def runClaimed (settings : Settings) (platform : Platform) : Work Unit :=
  tryCatch (attemptClaimed settings platform) failClaimed

end Codenaut.Indexing
