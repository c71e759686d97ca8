import Codenaut.Indexing.CallGraph
import Codenaut.Services.IndexingJobs.Claims

/-!
# Job store: preparing, validating and activating a build

The transactions that write `repository_index_builds`, the symbol and call-edge
rows, and the active columns of the repository. A raised error rolls the
transaction back, so it carries no database.
-/

set_option autoImplicit false

namespace Codenaut.Services

open Codenaut.Core Codenaut.Db Codenaut.Indexing Codenaut.Relational

/-- `_activation_race`. -/
def activationRace : Failure := .indexing
  { code := "index_activation_race"
    safeMessage := "The inactive index is no longer eligible for activation"
    retryable := false }

/-- `_graph_validation_error`. -/
def graphValidationError : Failure := .indexing
  { code := "call_graph_validation_failed"
    safeMessage := "The inactive static call graph failed validation"
    retryable := false }

def vectorCountMismatch : Failure := .indexing
  { code := "vector_count_mismatch"
    safeMessage := "The inactive vector index failed count validation"
    retryable := false }

/-! ## Stored graph rows -/

def symbolRow (platform : Platform) (repositoryId : RepositoryId) (indexVersion : Nat)
    (symbol : SymbolRecord) : SymbolDefinition where
  id := deterministicSymbolId platform repositoryId indexVersion symbol
  repositoryId := repositoryId
  indexVersion := indexVersion
  filePath := symbol.filePath
  language := symbol.language
  symbolName := symbol.symbolName
  qualifiedName := symbol.qualifiedName
  symbolType := symbol.symbolType
  startLine := symbol.startLine
  endLine := symbol.endLine
  contentHash := symbol.contentHash
  commitSha := symbol.commitSha

def edgeRow (repositoryId : RepositoryId) (indexVersion : Nat) (edge : CallEdgeRecord) :
    CallEdge where
  id := edge.id
  repositoryId := repositoryId
  indexVersion := indexVersion
  callerSymbolId := edge.callerSymbolId
  calleeSymbolId := edge.calleeSymbolId
  unresolvedCalleeName := edge.unresolvedCalleeName
  filePath := edge.filePath
  callLine := edge.callLine
  callEndLine := edge.callEndLine
  callExpression := edge.callExpression
  callSiteFingerprint := edge.callSiteFingerprint
  resolutionType := edge.resolutionType
  confidence := edge.confidence
  commitSha := edge.commitSha

/-- PostgreSQL text: no NUL character, at most `limit` characters. -/
def textFits (limit : Nat) (text : String) : Bool :=
  decide (text.length ≤ limit) && text.toList.all (· != '\x00')

def symbolFits (row : SymbolDefinition) : Bool :=
  decide (1 ≤ row.indexVersion) && decide (1 ≤ row.startLine) &&
    decide (row.startLine ≤ row.endLine) && textFits 1024 row.filePath &&
    textFits 32 row.language && textFits 512 row.symbolName &&
    textFits 1024 row.qualifiedName && textFits 64 row.contentHash && textFits 64 row.commitSha

def edgeFits (row : CallEdge) : Bool :=
  decide (1 ≤ row.indexVersion) && decide (1 ≤ row.callLine) &&
    decide (row.callLine ≤ row.callEndLine) &&
    (row.calleeSymbolId.isSome || row.unresolvedCalleeName.isSome) &&
    row.unresolvedCalleeName.all (textFits 1024) && textFits 1024 row.filePath &&
    textFits 2048 row.callExpression && textFits 64 row.callSiteFingerprint &&
    textFits 64 row.commitSha

/-- The scoped foreign key from an edge to a symbol. -/
def edgeRefersTo (edge : CallEdge) (symbols : List SymbolDefinition)
    (symbolId : SymbolId) : Bool :=
  symbols.any fun symbol => symbol.id == symbolId &&
    symbol.repositoryId == edge.repositoryId && symbol.indexVersion == edge.indexVersion

/-- The primary keys, unique constraints, foreign keys and check constraints of
`symbol_definitions` and `call_edges` accept the inserted rows. -/
def graphInsertAccepted (db : Database) (symbols : List SymbolDefinition)
    (edges : List CallEdge) : Bool :=
  let allSymbols := db.symbolDefinitions ++ symbols
  let allEdges := db.callEdges ++ edges
  symbols.all symbolFits && edges.all edgeFits &&
    decide (allSymbols.map (·.id)).Nodup &&
    decide (allSymbols.map fun row =>
      (row.repositoryId, row.indexVersion, row.filePath, row.qualifiedName, row.startLine)).Nodup &&
    decide (allEdges.map (·.id)).Nodup &&
    decide (allEdges.map fun row =>
      (row.repositoryId, row.indexVersion, row.callSiteFingerprint)).Nodup &&
    edges.all fun edge => edgeRefersTo edge allSymbols edge.callerSymbolId &&
      edge.calleeSymbolId.all (edgeRefersTo edge allSymbols)

/-! ## `prepare_build` -/

/-- The row that `prepare_build` inserts for a version that has none. -/
def newBuild (settings : Settings) (claimed : ClaimedJob) (repositoryId : RepositoryId)
    (commitSha : CommitSha) (processing : ProcessingResult)
    (preprocessingFingerprint : String) : RepositoryIndexBuild where
  repositoryId := repositoryId
  jobId := some claimed.id
  indexVersion := processing.indexVersion
  state := .building
  cleanupStatus := .pending
  commitSha := commitSha
  embeddingModelIdentifier := settings.embeddingModelIdentifier
  embeddingModelRevision := settings.embeddingModelRevision
  embeddingDimension := settings.embeddingDimension
  preprocessingFingerprint := preprocessingFingerprint
  expectedChunkCount := processing.chunkCount
  callSiteCount := processing.callSiteCount
  exactEdgeCount := processing.exactEdgeCount
  ambiguousEdgeCount := processing.ambiguousEdgeCount
  unresolvedCallCount := processing.unresolvedCallCount
  graphWarningCount := processing.graphWarningCount
  graphFingerprint := some processing.graphFingerprint
  graphValidated := false

/-- The attributes that `prepare_build` rewrites on a row it reuses. -/
def reusedBuild (settings : Settings) (claimed : ClaimedJob) (commitSha : CommitSha)
    (processing : ProcessingResult) (preprocessingFingerprint : String)
    (build : RepositoryIndexBuild) : RepositoryIndexBuild :=
  { build with
    jobId := some claimed.id
    state := .building
    cleanupStatus := .pending
    commitSha := commitSha
    embeddingModelIdentifier := settings.embeddingModelIdentifier
    embeddingModelRevision := settings.embeddingModelRevision
    embeddingDimension := settings.embeddingDimension
    preprocessingFingerprint := preprocessingFingerprint
    expectedChunkCount := processing.chunkCount
    embeddedChunkCount := 0
    vectorCount := 0
    failedChunkCount := 0
    skippedChunkCount := 0
    callSiteCount := processing.callSiteCount
    exactEdgeCount := processing.exactEdgeCount
    ambiguousEdgeCount := processing.ambiguousEdgeCount
    unresolvedCallCount := processing.unresolvedCallCount
    graphWarningCount := processing.graphWarningCount
    graphFingerprint := some processing.graphFingerprint
    graphValidated := false
    activatedAt := none
    cleanupCompletedAt := none }

def preparedJobValues (settings : Settings) (commitSha : CommitSha) (discovery : DiscoveryResult)
    (processing : ProcessingResult) (preprocessingFingerprint : String) (job : IndexingJob) :
    IndexingJob :=
  { job with
    sourceCommitSha := some commitSha
    metrics := { job.metrics with
      discoveredFileCount := discovery.files.length
      discoveredTotalBytes := discovery.totalBytes
      skippedFilesJson := discovery.skipped
      parsedFileCount := processing.parsedFileCount
      partialFileCount := processing.partialFileCount
      parserSkippedFileCount := processing.skippedFileCount
      symbolCount := processing.symbolCount
      chunkCount := processing.chunkCount
      parserWarningsJson := processing.warningCounts
      embeddingModelIdentifier := some settings.embeddingModelIdentifier
      embeddingModelRevision := some settings.embeddingModelRevision
      embeddingDimension := some settings.embeddingDimension
      preprocessingFingerprint := some preprocessingFingerprint
      callSiteCount := processing.callSiteCount
      exactEdgeCount := processing.exactEdgeCount
      ambiguousEdgeCount := processing.ambiguousEdgeCount
      unresolvedCallCount := processing.unresolvedCallCount
      graphWarningCount := processing.graphWarningCount } }

/-- The build row belongs to another job. A row whose job is NULL may be taken. -/
def buildTakenByOther (claimed : ClaimedJob) (build : RepositoryIndexBuild) : Bool :=
  build.jobId.any fun owner => owner != claimed.id

def isBuild (repositoryId : RepositoryId) (indexVersion : Nat) (build : RepositoryIndexBuild) :
    Bool :=
  build.repositoryId == repositoryId && build.indexVersion == indexVersion

/-- The build table after `prepare_build` stored its row. -/
def storeBuild (settings : Settings) (db : Database) (claimed : ClaimedJob)
    (repositoryId : RepositoryId) (commitSha : CommitSha) (processing : ProcessingResult)
    (preprocessingFingerprint : String) : Database :=
  match db.build? repositoryId processing.indexVersion with
  | none =>
      { db with builds := db.builds ++
          [newBuild settings claimed repositoryId commitSha processing preprocessingFingerprint] }
  | some _ =>
      db.updateBuilds (isBuild repositoryId processing.indexVersion)
        (reusedBuild settings claimed commitSha processing preprocessingFingerprint)

/-- `uq_repository_index_builds_job`: no other row carries this job. -/
def jobBuildsElsewhere (db : Database) (claimed : ClaimedJob) (repositoryId : RepositoryId)
    (indexVersion : Nat) : Bool :=
  db.builds.any fun build =>
    !isBuild repositoryId indexVersion build && build.jobId == some claimed.id

/-- The rows of the analysis result, for the version being prepared. -/
def graphSymbols (platform : Platform) (repositoryId : RepositoryId)
    (processing : ProcessingResult) : List SymbolDefinition :=
  processing.symbols.map (symbolRow platform repositoryId processing.indexVersion)

def graphEdges (repositoryId : RepositoryId) (processing : ProcessingResult) : List CallEdge :=
  processing.callEdges.map (edgeRow repositoryId processing.indexVersion)

/-- The database with its build row stored and the version's old graph deleted. -/
def clearedForBuild (settings : Settings) (db : Database) (claimed : ClaimedJob)
    (repositoryId : RepositoryId) (commitSha : CommitSha) (processing : ProcessingResult)
    (preprocessingFingerprint : String) : Database :=
  (storeBuild settings db claimed repositoryId commitSha processing
    preprocessingFingerprint).deleteSymbols repositoryId processing.indexVersion

/-- The database that an accepted `prepare_build` commits. -/
def preparedDatabase (settings : Settings) (platform : Platform) (db : Database)
    (claimed : ClaimedJob) (repositoryId : RepositoryId) (commitSha : CommitSha)
    (discovery : DiscoveryResult) (processing : ProcessingResult)
    (preprocessingFingerprint : String) : Database :=
  let cleared := clearedForBuild settings db claimed repositoryId commitSha processing
    preprocessingFingerprint
  let inserted := { cleared with
    symbolDefinitions := cleared.symbolDefinitions ++ graphSymbols platform repositoryId processing
    callEdges := cleared.callEdges ++ graphEdges repositoryId processing }
  (inserted.updateJobs (·.id == claimed.id)
    (preparedJobValues settings commitSha discovery processing
      preprocessingFingerprint)).updateRepositories (·.id == repositoryId) fun row =>
        { row with
          currentRemoteSha := some commitSha
          sizeBytes := some discovery.totalBytes }

def prepareBuild (settings : Settings) (platform : Platform) (db : Database)
    (claimed : ClaimedJob) (workerId : WorkerId) (commitSha : CommitSha)
    (discovery : DiscoveryResult) (processing : ProcessingResult)
    (preprocessingFingerprint : String) : Except Failure Database :=
  if processing.repositoryId ≠ claimed.repositoryId ∨ processing.commitSha ≠ commitSha ∨
      processing.indexVersion < 1 then
    .error .internal -- RuntimeError("processing_result_mismatch")
  else
    match db.indexingJobs.find? (heldBy claimed workerId) with
    | none => .error activationRace
    | some job =>
        match db.repository? job.repositoryId with
        | none => .error activationRace
        | some repository =>
            if job.targetIndexVersion ≠ some processing.indexVersion ∨
                processing.indexVersion ≠ repository.indexVersion + 1 then
              .error activationRace
            else if (db.build? repository.id processing.indexVersion).any
                (buildTakenByOther claimed) then
              .error activationRace
            else if jobBuildsElsewhere db claimed repository.id processing.indexVersion ||
                !graphInsertAccepted
                  (clearedForBuild settings db claimed repository.id commitSha processing
                    preprocessingFingerprint)
                  (graphSymbols platform repository.id processing)
                  (graphEdges repository.id processing) then
              .error .internal -- IntegrityError at the flush
            else
              .ok (preparedDatabase settings platform db claimed repository.id commitSha
                discovery processing preprocessingFingerprint)

/-! ## Validation and readiness -/

/-- The inactive build this claim is writing. -/
def ownBuilding (claimed : ClaimedJob) (target : Nat) (build : RepositoryIndexBuild) : Bool :=
  isBuild claimed.repositoryId target build && build.jobId == some claimed.id &&
    build.state == .building

/-- The edges that `validate_graph` reads, in the order of its query. -/
def validatedEdges (platform : Platform) (db : Database) (repositoryId : RepositoryId)
    (target : Nat) (commitSha : CommitSha) : List CallEdge :=
  orderEdges platform <| (db.edgesAt repositoryId target).filter (·.commitSha == commitSha)

def validateGraph (platform : Platform) (db : Database) (claimed : ClaimedJob)
    (workerId : WorkerId) : Except Failure Database :=
  match db.indexingJobs.find? (heldBy claimed workerId) with
  | none => .error activationRace
  | some job =>
      match job.targetIndexVersion with
      | none => .error activationRace
      | some target =>
          match db.builds.find? (ownBuilding claimed target) with
          | none => .error graphValidationError
          | some build =>
              if build.graphFingerprint.all (· == "") then .error graphValidationError
              else
                if graphMatches platform build
                    (validatedEdges platform db claimed.repositoryId target build.commitSha) then
                  .ok (db.updateBuilds (ownBuilding claimed target) fun row =>
                    { row with graphValidated := true })
                else .error graphValidationError

def recordVectorCounts (db : Database) (claimed : ClaimedJob) (workerId : WorkerId)
    (embeddedChunkCount vectorCount reusedChunkCount : Nat)
    (reembeddedChunkCount : Option Nat) : Except Failure Database :=
  match db.indexingJobs.find? (heldBy claimed workerId) with
  | none => .error activationRace
  | some job =>
      match job.targetIndexVersion with
      | none => .error activationRace
      | some target =>
          if (db.builds.find? (ownBuilding claimed target)).isNone then .error activationRace
          else
            .ok ((db.updateJobs (heldBy claimed workerId) fun row =>
              { row with metrics := { row.metrics with
                  embeddedChunkCount := embeddedChunkCount
                  vectorCount := vectorCount
                  reusedChunkCount := reusedChunkCount
                  reembeddedChunkCount := reembeddedChunkCount.getD embeddedChunkCount } }).updateBuilds
              (ownBuilding claimed target) fun row =>
                { row with
                  embeddedChunkCount := embeddedChunkCount
                  vectorCount := vectorCount })

/-- The counts and the validated graph that a READY or activated build needs. -/
def countsComplete (build : RepositoryIndexBuild) : Bool :=
  build.expectedChunkCount == build.embeddedChunkCount &&
    build.expectedChunkCount == build.vectorCount && build.graphValidated &&
    build.graphFingerprint.isSome

def markBuildReady (db : Database) (claimed : ClaimedJob) (workerId : WorkerId) :
    Except Failure Database :=
  match db.indexingJobs.find? (heldBy claimed workerId) with
  | none => .error activationRace
  | some job =>
      match job.targetIndexVersion with
      | none => .error activationRace
      | some target =>
          let guard := fun build => ownBuilding claimed target build && countsComplete build
          if (db.builds.find? guard).isNone then .error vectorCountMismatch
          else .ok (db.updateBuilds guard fun row => { row with state := .ready })

/-! ## `activate` -/

def activatable (claimed : ClaimedJob) (repositoryId : RepositoryId) (target : Nat)
    (commitSha : CommitSha) (build : RepositoryIndexBuild) : Bool :=
  isBuild repositoryId target build && build.jobId == some claimed.id &&
    build.state == .ready && build.commitSha == commitSha && countsComplete build

def isActiveBuild (repositoryId : RepositoryId) (indexVersion : Nat)
    (build : RepositoryIndexBuild) : Bool :=
  isBuild repositoryId indexVersion build && build.state == .active

def supersededBuild (build : RepositoryIndexBuild) : RepositoryIndexBuild :=
  { build with state := .superseded, cleanupStatus := .pending }

/-- The previous active build gives way before the new one is written. -/
def supersedePrevious (db : Database) (repository : Repository) : Database :=
  if 0 < repository.indexVersion then
    db.updateBuilds (isActiveBuild repository.id repository.indexVersion) supersededBuild
  else db

def activeBuild (now : Timestamp) (build : RepositoryIndexBuild) : RepositoryIndexBuild :=
  { build with
    state := .active
    cleanupStatus := .notRequired
    activatedAt := some now }

def activatedRepository (now : Timestamp) (target : Nat) (commitSha : CommitSha)
    (vectorCount : Nat) (delivered : Bool) (repository : Repository) : Repository :=
  { repository with
    indexVersion := target
    lastIndexedCommitSha := some commitSha
    currentRemoteSha := some commitSha
    indexedBranch := some repository.defaultBranch
    lastIndexedAt := some now
    activeVectorCount := vectorCount
    indexingStatus := .complete
    indexingProgress := 100
    indexingStage := some "complete"
    indexingErrorCode := none
    indexingErrorMessage := none
    lastDeliveryStatus := if delivered then some .completed else repository.lastDeliveryStatus
    lastDeliveryAt := if delivered then some now else repository.lastDeliveryAt }

def completedJob (now : Timestamp) (commitSha : CommitSha) (job : IndexingJob) : IndexingJob :=
  { job with
    status := .complete
    progress := 100
    stage := some "complete"
    targetCommitSha := some commitSha
    heartbeatAt := some now
    completedAt := some now
    lockedBy := none }

/-- Compare-and-swap the active index. Authorization is not read here. -/
def activate (db : Database) (now : Timestamp) (claimed : ClaimedJob) (workerId : WorkerId)
    (commitSha : CommitSha) : Except Failure (Nat × Database) :=
  match db.indexingJobs.find? (heldBy claimed workerId) with
  | none => .error activationRace
  | some job =>
      match db.repository? job.repositoryId with
      | none => .error activationRace
      | some repository =>
          match job.targetIndexVersion with
          | none => .error activationRace
          | some target =>
              if repository.indexVersion + 1 ≠ target ∨ !fenceAllows job repository then
                .error activationRace
              else
                match db.builds.find? (activatable claimed repository.id target commitSha) with
                | none => .error activationRace
                | some build =>
                    let previousVersion := repository.indexVersion
                    let previous := db.builds.find? (isActiveBuild repository.id previousVersion)
                    if 0 < previousVersion ∧ previous.isNone ∧
                        repository.activeVectorCount ≠ 0 then
                      .error activationRace
                    else
                      let delivered := db.webhookDeliveries.any
                        (·.indexingJobId == some job.id)
                      .ok (previousVersion,
                        ((((supersedePrevious db repository).updateBuilds
                            (activatable claimed repository.id target commitSha)
                            (activeBuild now)).updateRepositories (·.id == repository.id)
                            (activatedRepository now target commitSha build.vectorCount
                              delivered)).updateJobs (·.id == job.id)
                            (completedJob now commitSha)).updateFirstDelivery job.id
                            fun delivery => { delivery with
                              status := .completed
                              safeErrorCode := none
                              processedAt := some now })

/-! ## Cleanup -/

def canCleanupInactive (db : Database) (repositoryId : RepositoryId) (indexVersion : Nat) : Bool :=
  (db.repository? repositoryId).any fun repository => repository.indexVersion != indexVersion

def discardedBuild (now : Timestamp) (cleanupComplete : Bool) (build : RepositoryIndexBuild) :
    RepositoryIndexBuild :=
  { build with
    state := .failed
    cleanupStatus := if cleanupComplete then .complete else .pending
    cleanupCompletedAt := if cleanupComplete then some now else none }

/-- The row keeps its `job_id`. -/
def recordFailedBuildCleanup (db : Database) (now : Timestamp) (repositoryId : RepositoryId)
    (indexVersion : Nat) (cleanupComplete : Bool) : Database :=
  let guard := fun (build : RepositoryIndexBuild) =>
    isBuild repositoryId indexVersion build && build.state != .active
  if (db.builds.find? guard).isNone then db
  else
    let discarded := db.updateBuilds guard (discardedBuild now cleanupComplete)
    if cleanupComplete then discarded.deleteSymbols repositoryId indexVersion else discarded

def completeSupersededCleanup (db : Database) (now : Timestamp) (repositoryId : RepositoryId)
    (indexVersion : Nat) : Except Failure Database :=
  match db.repository? repositoryId with
  | none => .error activationRace
  | some repository =>
      if repository.indexVersion = indexVersion then .error activationRace
      else
        .ok ((db.updateBuilds
          (fun build => isBuild repositoryId indexVersion build &&
            (build.state == .superseded || build.state == .failed))
          fun build => { build with
            cleanupStatus := .complete
            cleanupCompletedAt := some now }).deleteSymbols repositoryId indexVersion)

end Codenaut.Services
