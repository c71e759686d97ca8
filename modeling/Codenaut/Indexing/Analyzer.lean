import Codenaut.Indexing.CallGraphBuilder
import Codenaut.Indexing.Chunking

/-!
# Repository analysis

`RepositoryAnalyzer` (`app/indexing/analyzer.py`): discovered files are read,
parsed and chunked, and the call graph is built over all of them.
-/

set_option autoImplicit false

namespace Codenaut.Indexing

open Codenaut.Db Codenaut.Relational Codenaut.Text

structure ParserLimits where
  maxSymbolsPerFile : Nat
  maxSymbolBytes : Nat
  maxChunkBytes : Nat
  maxChunksPerFile : Nat
  maxTotalChunks : Nat
  maxTotalChunkBytes : Nat
  maxDocumentSectionBytes : Nat
  maxWarningsPerFile : Nat
  maxCallSitesPerFile : Nat
  maxTotalCallSites : Nat
  maxCallExpressionBytes : Nat
  deriving DecidableEq, Repr

def ParserLimits.pythonParser (limits : ParserLimits) : PythonStaticParser where
  maxSymbols := limits.maxSymbolsPerFile
  maxWarnings := limits.maxWarningsPerFile
  maxCallSites := limits.maxCallSitesPerFile
  maxCallExpressionBytes := limits.maxCallExpressionBytes

def ParserLimits.pythonChunker (limits : ParserLimits) : PythonChunker where
  maxSymbolBytes := limits.maxSymbolBytes
  maxChunkBytes := limits.maxChunkBytes
  maxChunksPerFile := limits.maxChunksPerFile
  maxWarnings := limits.maxWarningsPerFile

def ParserLimits.documentationChunker (limits : ParserLimits) : DocumentationChunker where
  maxChunkBytes := limits.maxChunkBytes
  maxSectionBytes := limits.maxDocumentSectionBytes
  maxChunksPerFile := limits.maxChunksPerFile
  maxWarnings := limits.maxWarningsPerFile

/-- What `_read_source` gives for a discovered file. -/
inductive ReadOutcome where
  | text (sourceText : List Char)
  | skipped (code : String)
  | failed (failure : Failure)

/-- The file system of the checkout, the parser library and the interpreter. -/
structure AnalysisTools where
  platform : Platform
  unicode : UnicodeTables
  treeSitter : List Char → Node
  readSource : DiscoveredFile → ReadOutcome

structure ScanResult where
  parsedFiles : List ParsedFile := []
  documentation : List (String × List Char) := []
  parsedCount : Nat := 0
  partialCount : Nat := 0
  skippedCount : Nat := 0
  warnings : List String := []

def isPythonPath (path : String) : Bool :=
  let suffix := lower (pathSuffix path)
  suffix = ".py" ∨ suffix = ".pyi"

/-- One file of `_scan_files` whose text was read. -/
def scanText (limits : ParserLimits) (tools : AnalysisTools) (commitSha : CommitSha)
    (scan : ScanResult) (path : String) (sourceText : List Char) : ScanResult :=
  if isPythonPath path then
    let parsed := parsePython limits.pythonParser tools.platform tools.treeSitter path
      sourceText commitSha
    let warned := { scan with warnings := scan.warnings ++ parsed.warnings }
    match parsed.parseStatus with
    | .complete => { warned with
        parsedCount := scan.parsedCount + 1
        parsedFiles := scan.parsedFiles ++ [parsed] }
    | .partialParse => { warned with
        partialCount := scan.partialCount + 1
        parsedFiles := scan.parsedFiles ++ [parsed] }
    | _ => { warned with skippedCount := scan.skippedCount + 1 }
  else if isMarkdown path || isPlainText path then
    { scan with
      documentation := scan.documentation ++ [(path, sourceText)]
      parsedCount := scan.parsedCount + 1 }
  else
    { scan with
      warnings := scan.warnings ++ ["unsupported_file"]
      skippedCount := scan.skippedCount + 1 }

/-- The loop of `_scan_files`. -/
def scanFiles (limits : ParserLimits) (tools : AnalysisTools) (commitSha : CommitSha)
    (scan : ScanResult) : List DiscoveredFile → Except Failure ScanResult
  | [] => .ok scan
  | discovered :: rest =>
      match tools.readSource discovered with
      | .failed failure => .error failure
      | .skipped code =>
          scanFiles limits tools commitSha
            { scan with
              warnings := scan.warnings ++ [code]
              skippedCount := scan.skippedCount + 1 } rest
      | .text sourceText =>
          scanFiles limits tools commitSha
            (scanText limits tools commitSha scan discovered.relativePath sourceText) rest

def symbolRecord (symbol : ParsedSymbol) : SymbolRecord where
  filePath := symbol.filePath
  language := symbol.language
  symbolType := symbol.symbolType
  symbolName := symbol.name
  qualifiedName := symbol.qualifiedName
  startLine := symbol.startLine
  endLine := symbol.endLine
  contentHash := symbol.contentHash
  commitSha := symbol.commitSha

/-- The records of a file's symbols; a symbol that is too large has none. -/
def fileRecords (limits : ParserLimits) (parsed : ParsedFile) : List SymbolRecord :=
  (parsed.symbols.filter (·.sourceText.utf8ByteSize ≤ limits.maxSymbolBytes)).map symbolRecord

/-- The symbols that are stored and that the graph builder sees. -/
def symbolRecords (limits : ParserLimits) (parsedFiles : List ParsedFile) : List SymbolRecord :=
  sortOn (fun symbol => toLex (symbol.filePath, toLex (symbol.startLine, toLex (symbol.endLine,
    toLex (symbol.qualifiedName, symbol.contentHash))))) (parsedFiles.flatMap (fileRecords limits))

/-- `_assert_total_chunks`. -/
def chunkCountExceeded : Failure := .indexing
  { code := "chunk_count_exceeded"
    safeMessage := "Repository exceeds the configured chunk-count limit"
    retryable := false }

/-- `_assert_total_chunk_bytes`. -/
def chunkBytesExceeded : Failure := .indexing
  { code := "chunk_bytes_exceeded"
    safeMessage := "Repository exceeds the configured chunk-content limit"
    retryable := false }

/-- The results of all files, in turn. -/
def fileResults (limits : ParserLimits) (platform : Platform) (scope : GraphScope)
    (scan : ScanResult) : List FileChunkResult :=
  let chunkScope : ChunkScope := ⟨scope.repositoryId, scope.indexVersion⟩
  scan.parsedFiles.map (chunkPython limits.pythonChunker platform chunkScope) ++
    scan.documentation.map fun (path, sourceText) =>
      chunkDocumentation limits.documentationChunker platform chunkScope path sourceText
        scope.commitSha

/-- `_build_chunks` on the chunks so far: the total is checked after each file. -/
def gatherChunks (limits : ParserLimits) (chunks : List ContentChunk) (warnings : List String) :
    List FileChunkResult → Except Failure (List ContentChunk × List String)
  | [] => .ok (chunks, warnings)
  | result :: rest =>
      if (chunks ++ result.chunks).length > limits.maxTotalChunks then .error chunkCountExceeded
      else gatherChunks limits (chunks ++ result.chunks) (warnings ++ result.warnings) rest

def sortChunks (chunks : List ContentChunk) : List ContentChunk :=
  numbered <| sortOn (fun chunk => toLex (chunk.filePath, toLex (chunk.startLine,
    toLex (chunk.endLine, toLex (chunk.chunkType.value,
      toLex (chunk.qualifiedName.getD "", chunk.contentHash)))))) chunks

/-- `dict(sorted(warnings.items()))`. -/
def warningCounts (warnings : List String) : List (String × Nat) :=
  (sortOn id warnings.dedup).map fun warning => (warning, warnings.count warning)

/-- Every edge of a built graph carries the scope's commit. -/
theorem buildTally_stamped {platform : Platform} {unicode : UnicodeTables} {scope : GraphScope}
    {parsedFiles : List ParsedFile} {symbols : List SymbolRecord} {sites : List ParsedCallSite}
    {tally : GraphTally} (stamped : ∀ edge ∈ tally.edges, edge.commitSha = scope.commitSha) :
    ∀ edge ∈ (sites.foldl (tallySite platform unicode scope parsedFiles symbols) tally).edges,
      edge.commitSha = scope.commitSha := by
  induction sites generalizing tally with
  | nil => exact stamped
  | cons site sites ih =>
      apply ih
      unfold tallySite
      split
      · intro edge member
        rcases List.mem_append.mp member with earlier | added
        · exact stamped edge earlier
        · rw [List.mem_singleton.mp added]
          rfl
      · exact stamped

theorem buildCallGraph_stamped {platform : Platform} {unicode : UnicodeTables}
    {maxTotalCallSites : Nat} {scope : GraphScope} {parsedFiles : List ParsedFile}
    {symbols : List SymbolRecord} {graph : CallGraph}
    (built : buildCallGraph platform unicode maxTotalCallSites scope parsedFiles symbols =
      .ok graph) : ∀ edge ∈ graph.edges, edge.commitSha = scope.commitSha := by
  unfold buildCallGraph at built
  split at built
  · cases built
  · cases built
    intro edge member
    exact @buildTally_stamped platform unicode scope parsedFiles symbols _ {} (by simp) edge
      (mem_sortOn.mp member)

/-- The result that `RepositoryAnalyzer.analyze` assembles. -/
def analysisResult (scope : GraphScope) (scan : ScanResult) (symbols : List SymbolRecord)
    (chunks : List ContentChunk) (warnings : List String) (graph : CallGraph)
    (stamped : ∀ edge ∈ graph.edges, edge.commitSha = scope.commitSha) : ProcessingResult where
  repositoryId := scope.repositoryId
  indexVersion := scope.indexVersion
  commitSha := scope.commitSha
  parsedFileCount := scan.parsedCount
  partialFileCount := scan.partialCount
  skippedFileCount := scan.skippedCount
  symbolCount := symbols.length
  chunkCount := chunks.length
  warningCounts := warningCounts
    (warnings ++ List.replicate graph.warningCount "call_graph_resolution_warning")
  symbols := symbols
  chunks := chunks
  callSiteCount := graph.callSiteCount
  exactEdgeCount := graph.exactEdgeCount
  ambiguousEdgeCount := graph.ambiguousEdgeCount
  unresolvedCallCount := graph.unresolvedCallCount
  graphWarningCount := graph.warningCount
  graphFingerprint := graph.fingerprint
  callEdges := graph.edges
  chunksCounted := rfl
  edgesStamped := stamped

/-- `RepositoryAnalyzer.analyze` after the scan. -/
def analyzeScan (limits : ParserLimits) (platform : Platform) (unicode : UnicodeTables)
    (scope : GraphScope) (scan : ScanResult) : Except Failure ProcessingResult :=
  match gatherChunks limits [] scan.warnings (fileResults limits platform scope scan) with
  | .error failure => .error failure
  | .ok (gathered, warnings) =>
      let chunks := sortChunks gathered
      if (chunks.map (·.content.utf8ByteSize)).sum > limits.maxTotalChunkBytes then
        .error chunkBytesExceeded
      else
        let symbols := symbolRecords limits scan.parsedFiles
        match built : buildCallGraph platform unicode limits.maxTotalCallSites scope
            scan.parsedFiles symbols with
        | .error failure => .error failure
        | .ok graph =>
            .ok (analysisResult scope scan symbols chunks warnings graph
              (buildCallGraph_stamped built))

/-- `RepositoryAnalyzer.analyze`. -/
def RepositoryAnalyzer.analyze (limits : ParserLimits) (tools : AnalysisTools)
    (discovery : DiscoveryResult) (scope : GraphScope) : Except Failure ProcessingResult :=
  match scanFiles limits tools scope.commitSha {} discovery.files with
  | .error failure => .error failure
  | .ok scan => analyzeScan limits tools.platform tools.unicode scope scan

theorem sortChunks_ordinals (chunks : List ContentChunk) :
    ((sortChunks chunks).map (·.ordinal)).Nodup := by
  rw [sortChunks, numbered_ordinals]
  exact List.nodup_range

/-- An analyzed repository has numbered chunks. -/
theorem RepositoryAnalyzer.analyze_ordinals {limits : ParserLimits} {tools : AnalysisTools}
    {discovery : DiscoveryResult} {scope : GraphScope} {processing : ProcessingResult}
    (analyzed : RepositoryAnalyzer.analyze limits tools discovery scope = .ok processing) :
    (processing.chunks.map (·.ordinal)).Nodup := by
  unfold RepositoryAnalyzer.analyze at analyzed
  split at analyzed
  · cases analyzed
  · unfold analyzeScan at analyzed
    split at analyzed
    · cases analyzed
    case h_2 gathered warnings _ =>
      dsimp only at analyzed
      split at analyzed
      · cases analyzed
      · split at analyzed
        · cases analyzed
        · cases analyzed
          exact sortChunks_ordinals gathered

end Codenaut.Indexing
