import Codenaut.Indexing.ReceiverCalls

/-!
# Analyzed sources

The Python files of a discovery with their trees, as far as they were parsed,
and the symbols and edges that the analysis of a discovery makes of them.
-/

set_option autoImplicit false

namespace Codenaut.Indexing

open Codenaut.Db Codenaut.Relational Codenaut.Text

/-- The source of a text that was read. -/
def readSourceOf (tools : AnalysisTools) (commitSha : CommitSha) (path : String)
    (sourceText : List Char) : ParsedSource :=
  let file := sourceFile path sourceText commitSha
  { file := file, root := tools.treeSitter file.source }

/-- A discovered Python file whose text was read, with its tree. -/
def pythonSource (tools : AnalysisTools) (commitSha : CommitSha) (discovered : DiscoveredFile) :
    Option ParsedSource :=
  match tools.readSource discovered with
  | .text sourceText =>
      if isPythonPath discovered.relativePath then
        some (readSourceOf tools commitSha discovered.relativePath sourceText)
      else none
  | _ => none

/-- A complete or partial parse is kept. -/
def keptParse (limits : ParserLimits) (platform : Platform) (source : ParsedSource) : Bool :=
  let status := (source.parsed limits.pythonParser platform).parseStatus
  status = .complete ∨ status = .partialParse

def analyzedSources (limits : ParserLimits) (tools : AnalysisTools) (commitSha : CommitSha)
    (files : List DiscoveredFile) : List ParsedSource :=
  (files.filterMap (pythonSource tools commitSha)).filter (keptParse limits tools.platform)

section Analysis

variable {limits : ParserLimits} {tools : AnalysisTools} {scope : GraphScope}

theorem analyzedSources_cons (commitSha : CommitSha) (discovered : DiscoveredFile)
    (rest : List DiscoveredFile) :
    analyzedSources limits tools commitSha (discovered :: rest) =
      (pythonSource tools commitSha discovered).toList.filter (keptParse limits tools.platform) ++
        analyzedSources limits tools commitSha rest := by
  unfold analyzedSources
  rw [← List.filter_append]
  congr 1
  rw [List.filterMap_cons]
  cases pythonSource tools commitSha discovered with
  | none => rfl
  | some source => rfl

theorem parsed_eq (commitSha : CommitSha) (path : String) (sourceText : List Char) :
    (readSourceOf tools commitSha path sourceText).parsed limits.pythonParser tools.platform =
      parsePython limits.pythonParser tools.platform tools.treeSitter path sourceText commitSha :=
  rfl

theorem keptParse_of_status {commitSha : CommitSha} {path : String} {sourceText : List Char}
    {status : ParseStatus}
    (parsed : (parsePython limits.pythonParser tools.platform tools.treeSitter path sourceText
      commitSha).parseStatus = status) :
    keptParse limits tools.platform (readSourceOf tools commitSha path sourceText) =
      decide (status = .complete ∨ status = .partialParse) := by
  unfold keptParse
  rw [parsed_eq, parsed]

/-- A file that was read adds its source to the parsed files, when it is kept. -/
theorem scanText_parsedFiles (commitSha : CommitSha) (scan : ScanResult)
    (discovered : DiscoveredFile) (sourceText : List Char)
    (read : tools.readSource discovered = .text sourceText) :
    (scanText limits tools commitSha scan discovered.relativePath sourceText).parsedFiles =
      scan.parsedFiles ++ parsedFilesOf limits tools.platform
        ((pythonSource tools commitSha discovered).toList.filter
          (keptParse limits tools.platform)) := by
  unfold scanText pythonSource
  rw [read]
  dsimp only
  split
  case isTrue python =>
    cases status : (parsePython limits.pythonParser tools.platform tools.treeSitter
        discovered.relativePath sourceText commitSha).parseStatus with
    | complete => simp [keptParse_of_status status, parsedFilesOf, parsed_eq]
    | partialParse => simp [keptParse_of_status status, parsedFilesOf, parsed_eq]
    | malformed => simp [keptParse_of_status status, parsedFilesOf]
    | skipped => simp [keptParse_of_status status, parsedFilesOf]
  case isFalse =>
    split
    · simp [parsedFilesOf]
    · simp [parsedFilesOf]

theorem scanFiles_parsedFiles {commitSha : CommitSha} {files : List DiscoveredFile}
    {scan scanned : ScanResult}
    (done : scanFiles limits tools commitSha scan files = .ok scanned) :
    scanned.parsedFiles = scan.parsedFiles ++ parsedFilesOf limits tools.platform
      (analyzedSources limits tools commitSha files) := by
  induction files generalizing scan with
  | nil =>
      cases done
      simp [parsedFilesOf, analyzedSources]
  | cons discovered rest ih =>
      rw [analyzedSources_cons]
      unfold scanFiles at done
      split at done
      · cases done
      case h_2 code skipped =>
        rw [ih done]
        simp [pythonSource, skipped]
      case h_3 sourceText read =>
        rw [ih done, scanText_parsedFiles commitSha scan discovered sourceText read,
          List.append_assoc]
        simp [parsedFilesOf]

theorem pythonSource_some {commitSha : CommitSha} {discovered : DiscoveredFile}
    {source : ParsedSource} (read : pythonSource tools commitSha discovered = some source) :
    source.file.filePath = discovered.relativePath ∧ source.file.commitSha = commitSha := by
  unfold pythonSource at read
  split at read
  · split at read
    · cases read
      exact ⟨rfl, rfl⟩
    · cases read
  · cases read

theorem analyzedSources_commitSha {commitSha : CommitSha} {files : List DiscoveredFile}
    {source : ParsedSource} (member : source ∈ analyzedSources limits tools commitSha files) :
    source.file.commitSha = commitSha := by
  obtain ⟨discovered, -, read⟩ := List.mem_filterMap.mp (List.mem_filter.mp member).1
  exact (pythonSource_some read).2

/-- A discovery without repeated paths gives sources without repeated paths. -/
theorem analyzedSources_paths (commitSha : CommitSha) {files : List DiscoveredFile}
    (paths : (files.map (·.relativePath)).Nodup) :
    ((analyzedSources limits tools commitSha files).map (·.file.filePath)).Nodup := by
  have apart : files.Pairwise fun first second =>
      first.relativePath ≠ second.relativePath := List.pairwise_map.mp paths
  refine List.Nodup.sublist (List.filter_sublist.map _) (List.pairwise_map.mpr ?_)
  refine apart.filterMap _ fun first second differ source read other readOther same => differ ?_
  rw [← (pythonSource_some read).1, ← (pythonSource_some readOther).1]
  exact same

/-- The symbols and edges of a result are those of the analyzed sources. -/
structure AnalysisOf (limits : ParserLimits) (tools : AnalysisTools) (scope : GraphScope)
    (sources : List ParsedSource) (processing : ProcessingResult) : Prop where
  indexVersion : processing.indexVersion = scope.indexVersion
  symbols : processing.symbols = recordsOf limits tools.platform sources
  graph : ∃ graph, buildCallGraph tools.platform tools.unicode limits.maxTotalCallSites scope
      (parsedFilesOf limits tools.platform sources) (recordsOf limits tools.platform sources) =
        .ok graph ∧ processing.callEdges = graph.edges

theorem analyze_sources {discovery : DiscoveryResult} {processing : ProcessingResult}
    (analyzed : RepositoryAnalyzer.analyze limits tools discovery scope = .ok processing) :
    AnalysisOf limits tools scope
      (analyzedSources limits tools scope.commitSha discovery.files) processing := by
  unfold RepositoryAnalyzer.analyze at analyzed
  split at analyzed
  · cases analyzed
  case h_2 scan done =>
    have files := scanFiles_parsedFiles done
    rw [show ({} : ScanResult).parsedFiles = [] from rfl, List.nil_append] at files
    unfold analyzeScan at analyzed
    split at analyzed
    · cases analyzed
    · dsimp only at analyzed
      split at analyzed
      · cases analyzed
      · split at analyzed
        · cases analyzed
        case h_2 graph built =>
          cases analyzed
          rw [files] at built
          refine ⟨rfl, ?_, graph, built, rfl⟩
          simp only [analysisResult, files]
          rfl

end Analysis

end Codenaut.Indexing
