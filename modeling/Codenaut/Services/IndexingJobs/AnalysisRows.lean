import Codenaut.Indexing.AnalyzedSources
import Codenaut.Indexing.CallerFiles
import Codenaut.Services.IndexingJobs.Builds

/-!
# Rows of an analysis

The analysis bounds bytes and counts, the columns bound characters. Its rows fit
their tables exactly when the names, paths and call expressions of the sources
do; the order of lines is kept by every well-formed tree.
-/

set_option autoImplicit false

namespace Codenaut.Services

open Codenaut.Db Codenaut.Indexing Codenaut.Relational Codenaut.Text

section Rows

variable (limits : ParserLimits) (platform : Platform) (unicode : UnicodeTables)
  (sources : List ParsedSource)

/-- The rows of the result satisfy the columns and checks of their tables, and
no two symbols share file, qualified name and first line. -/
structure RowsFit (repositoryId : RepositoryId) (processing : ProcessingResult) : Prop where
  symbols : ∀ row ∈ graphSymbols platform repositoryId processing, symbolFits row = true
  edges : ∀ row ∈ graphEdges repositoryId processing, edgeFits row = true
  distinct : (processing.symbols.map fun symbol =>
    (symbol.filePath, symbol.qualifiedName, symbol.startLine)).Nodup

def DefinitionTextsFit (source : ParsedSource) (definition : ScopedDefinition) : Prop :=
  textFits 1024 source.file.filePath = true ∧ textFits 512 definition.symbol.name = true ∧
    textFits 1024 definition.symbol.qualifiedName = true

/-- The stored definitions have paths and names that fit, and those of one file
differ in qualified name or first line. -/
structure DefinitionsFit : Prop where
  texts : ∀ source ∈ sources, ∀ definition ∈ source.recorded limits platform,
    DefinitionTextsFit source definition
  distinct : ∀ source ∈ sources, ((source.recorded limits platform).map fun definition =>
    (definition.symbol.qualifiedName, definition.symbol.startLine)).Nodup

/-- The path and the expression of a call fit, which for an unresolved call is
also its callee name. -/
def CallTextsFit (site : ParsedCallSite) (callee : Option SymbolRecord) : Prop :=
  textFits 1024 site.filePath = true ∧ textFits 2048 site.expression = true ∧
    (callee = none → textFits 1024 site.expression = true)

/-- The texts fit of every call whose caller is found. -/
def CallsFit : Prop :=
  ∀ site ∈ callSitesOf limits platform sources, ∀ caller resolution,
    Draws unicode (parsedFilesOf limits platform sources) (recordsOf limits platform sources)
      site caller resolution → CallTextsFit site resolution.callee

end Rows

section Proofs

variable {limits : ParserLimits} {platform : Platform} {unicode : UnicodeTables}
  {sources : List ParsedSource}

/-! ## Records of the definitions -/

theorem recorded_walked {source : ParsedSource} {definition : ScopedDefinition}
    (member : definition ∈ source.recorded limits platform) :
    definition.symbol ∈ walkedSymbols limits.pythonParser platform source.file source.root := by
  have symbols := @walkScopes_symbols limits.pythonParser platform source.file [] []
    source.root.namedChildren
  rw [walkedSymbols]
  have listed := List.mem_map_of_mem (f := fun scope : ScopedDefinition => scope.symbol)
    (recorded_mem member)
  rw [ParsedSource.scopes, definitionScopes, symbols] at listed
  exact listed

theorem fileRecords_perm (source : ParsedSource) :
    (fileRecords limits (source.parsed limits.pythonParser platform)).Perm
      ((source.recorded limits platform).map fun definition => symbolRecord definition.symbol) := by
  have symbols : (source.scopes limits.pythonParser platform).map (·.symbol) =
      walkDefinitions limits.pythonParser platform source.file [] [] source.root.namedChildren :=
    walkScopes_symbols [] [] source.root.namedChildren
  have lengths := congrArg List.length symbols
  rw [List.length_map] at lengths
  have limit : limits.pythonParser.maxSymbols = limits.maxSymbolsPerFile := rfl
  unfold fileRecords ParsedSource.parsed parseTree ParsedSource.recorded
  dsimp only
  rw [← lengths, limit]
  split
  · exact .nil
  · rw [← Function.comp_def symbolRecord, ← List.map_map, ← symbols]
    apply List.Perm.map
    refine ((sortOn_perm _ _).filter _).trans ?_
    rw [List.filter_map]
    exact .refl _

theorem recordsOf_perm : (recordsOf limits platform sources).Perm
    (sources.flatMap fun source =>
      (source.recorded limits platform).map fun definition => symbolRecord definition.symbol) := by
  rw [recordsOf, symbolRecords, parsedFilesOf, List.flatMap_map]
  refine (sortOn_perm _ _).trans ?_
  exact List.Perm.flatMap_left sources fun source _ => fileRecords_perm source

theorem recorded_filePath {source : ParsedSource} {definition : ScopedDefinition}
    (wellFormed : WellFormed source.file.source source.root)
    (member : definition ∈ source.recorded limits platform) :
    definition.symbol.filePath = source.file.filePath :=
  (walkedSymbols_placed wellFormed (recorded_walked member)).filePath

/-- Over files with distinct paths, the symbols differ when those of each file
do. -/
theorem recordsOf_distinct_iff (paths : (sources.map (·.file.filePath)).Nodup)
    (wellFormed : ∀ source ∈ sources, WellFormed source.file.source source.root) :
    ((recordsOf limits platform sources).map fun symbol =>
        (symbol.filePath, symbol.qualifiedName, symbol.startLine)).Nodup ↔
      ∀ source ∈ sources, ((source.recorded limits platform).map fun definition =>
        (definition.symbol.qualifiedName, definition.symbol.startLine)).Nodup := by
  have apart : sources.Pairwise fun first second =>
      first.file.filePath ≠ second.file.filePath := List.pairwise_map.mp paths
  rw [(recordsOf_perm.map _).nodup_iff, List.map_flatMap, List.nodup_flatMap]
  simp only [List.map_map]
  -- Places of different files differ in the path, those of one file do not.
  have within : ∀ source ∈ sources, ((source.recorded limits platform).map
      ((fun symbol => (symbol.filePath, symbol.qualifiedName, symbol.startLine)) ∘
        fun definition : ScopedDefinition => symbolRecord definition.symbol)) =
      ((source.recorded limits platform).map fun definition =>
        (definition.symbol.qualifiedName, definition.symbol.startLine)).map
          fun place => (source.file.filePath, place) := by
    intro source listed
    rw [List.map_map]
    refine List.map_congr_left fun definition member => ?_
    exact congrArg (·, _) (recorded_filePath (wellFormed source listed) member)
  constructor
  · rintro ⟨each, -⟩ source listed
    have places := each source listed
    rw [within source listed] at places
    exact places.of_map
  · intro each
    constructor
    · intro source listed
      rw [within source listed]
      exact (each source listed).map (Prod.mk_right_injective _)
    · refine apart.imp_of_mem fun {first second} firstListed secondListed differ => ?_
      intro place inFirst inSecond
      beta_reduce at inFirst inSecond
      rw [within first firstListed] at inFirst
      rw [within second secondListed] at inSecond
      obtain ⟨_, -, rfl⟩ := List.mem_map.mp inFirst
      obtain ⟨_, -, same⟩ := List.mem_map.mp inSecond
      exact differ (congrArg Prod.fst same).symm

/-! ## Single rows -/

/-- Of a definition's row only the path and the names can fail. -/
theorem symbolFits_iff {file : SourceFile} {symbol : ParsedSymbol} {indexVersion : Nat}
    (repositoryId : RepositoryId) (placed : Placed file symbol)
    (stamped : Stamped platform file symbol) (version : 1 ≤ indexVersion)
    (digests : ∀ text, textFits 64 (platform.sha256Hex text) = true)
    (commit : textFits 64 file.commitSha = true) :
    symbolFits (symbolRow platform repositoryId indexVersion (symbolRecord symbol)) = true ↔
      textFits 1024 file.filePath = true ∧ textFits 512 symbol.name = true ∧
        textFits 1024 symbol.qualifiedName = true := by
  have language : textFits 32 symbol.language = true := by
    rw [stamped.language]
    decide
  have hash : textFits 64 symbol.contentHash = true := stamped.contentHash ▸ digests _
  have sha : textFits 64 symbol.commitSha = true := stamped.commitSha ▸ commit
  simp only [symbolFits, Bool.and_eq_true, decide_eq_true_eq]
  simp only [symbolRow, symbolRecord, placed.filePath]
  constructor
  · rintro ⟨⟨⟨⟨⟨⟨-, path⟩, -⟩, name⟩, qualified⟩, -⟩, -⟩
    exact ⟨path, name, qualified⟩
  · rintro ⟨path, name, qualified⟩
    exact ⟨⟨⟨⟨⟨⟨⟨⟨version, placed.positive⟩, placed.ordered⟩, path⟩, language⟩, name⟩,
      qualified⟩, hash⟩, sha⟩

/-- A recorded call does not end before its first line. -/
theorem site_ordered {source : ParsedSource} {site : ParsedCallSite}
    (wellFormed : WellFormed source.file.source source.root)
    (recorded : site ∈ (source.parsed limits.pythonParser platform).callSites) :
    1 ≤ site.startLine ∧ site.startLine ≤ site.endLine := by
  obtain ⟨node, member, view⟩ := mem_callSites recorded
  have facts := siteOf_site view
  have laws := (wellFormed.below member).laws
  have rows := row_le_of_le laws.start laws.stop laws.ordered
  rw [facts.startLine, facts.endLine]
  omega

/-- Of a call's row only the path and the expression can fail. -/
theorem edgeFits_iff {scope : GraphScope} {site : ParsedCallSite} (repositoryId : RepositoryId)
    (caller : SymbolRecord) (resolution : Resolution)
    (lines : 1 ≤ site.startLine ∧ site.startLine ≤ site.endLine)
    (version : 1 ≤ scope.indexVersion)
    (digests : ∀ text, textFits 64 (platform.sha256Hex text) = true)
    (commit : textFits 64 scope.commitSha = true) :
    edgeFits (edgeRow repositoryId scope.indexVersion
        (edgeRecord platform scope site caller resolution)) = true ↔
      CallTextsFit site resolution.callee := by
  have fingerprint : textFits 64 (siteFingerprint platform site) = true := digests _
  cases callee : resolution.callee with
  | none =>
      simp [CallTextsFit, edgeFits, edgeRow, edgeRecord, callee, lines, version, fingerprint,
        commit]
      tauto
  | some symbol =>
      simp [CallTextsFit, edgeFits, edgeRow, edgeRecord, callee, lines, version, fingerprint,
        commit]

theorem textFits_of_le {smaller larger : Nat} {text : String} (le : smaller ≤ larger)
    (fits : textFits smaller text = true) : textFits larger text = true := by
  unfold textFits at *
  rw [Bool.and_eq_true, decide_eq_true_eq] at *
  exact ⟨fits.1.trans le, fits.2⟩

/-- Under a lower limit of call expressions their length is no obstacle. -/
theorem callsFit_of_bounded (bounded : limits.maxCallExpressionBytes ≤ 1024)
    (paths : ∀ source ∈ sources, textFits 1024 source.file.filePath = true)
    (plain : ∀ site ∈ callSitesOf limits platform sources,
      site.expression.toList.all (· != '\x00') = true) :
    CallsFit limits platform unicode sources := by
  intro site member caller resolution _
  obtain ⟨source, listed, recorded⟩ := mem_callSitesOf.mp member
  obtain ⟨node, -, view⟩ := mem_callSites recorded
  have facts := siteOf_site view
  have characters : site.expression.length ≤ 1024 :=
    (length_le_utf8ByteSize site.expression).trans (facts.bounded.trans bounded)
  have fits : textFits 1024 site.expression = true := by
    rw [textFits, plain site member, decide_eq_true characters]
    rfl
  exact ⟨facts.filePath ▸ paths source listed, textFits_of_le (by decide) fits, fun _ => fits⟩

/-! ## Rows of a result -/

section Result

variable {tools : AnalysisTools} {scope : GraphScope} {processing : ProcessingResult}

theorem symbols_fit_iff (repositoryId : RepositoryId)
    (result : AnalysisOf limits tools scope sources processing)
    (wellFormed : ∀ source ∈ sources, WellFormed source.file.source source.root)
    (commits : ∀ source ∈ sources, source.file.commitSha = scope.commitSha)
    (version : 1 ≤ scope.indexVersion)
    (digests : ∀ text, textFits 64 (tools.platform.sha256Hex text) = true)
    (commit : textFits 64 scope.commitSha = true) :
    (∀ row ∈ graphSymbols tools.platform repositoryId processing, symbolFits row = true) ↔
      ∀ source ∈ sources, ∀ definition ∈ source.recorded limits tools.platform,
        DefinitionTextsFit source definition := by
  have fits : ∀ source ∈ sources, ∀ definition ∈ source.recorded limits tools.platform,
      (symbolFits (symbolRow tools.platform repositoryId processing.indexVersion
        (symbolRecord definition.symbol)) = true ↔ DefinitionTextsFit source definition) := by
    intro source listed definition member
    have walked := recorded_walked member
    exact symbolFits_iff repositoryId (walkedSymbols_placed (wellFormed source listed) walked)
      (walkedSymbols_stamped (wellFormed source listed) walked) (result.indexVersion ▸ version)
      digests (commits source listed ▸ commit)
  simp only [graphSymbols, List.mem_map, result.symbols]
  constructor
  · intro rows source listed definition member
    refine (fits source listed definition member).mp (rows _ ⟨_, ?_, rfl⟩)
    exact mem_recordsOf.mpr ⟨source, listed, definition, member, rfl⟩
  · rintro texts _ ⟨record, recorded, rfl⟩
    obtain ⟨source, listed, definition, member, rfl⟩ := mem_recordsOf.mp recorded
    exact (fits source listed definition member).mpr (texts source listed definition member)

theorem edges_fit_iff (repositoryId : RepositoryId)
    (result : AnalysisOf limits tools scope sources processing)
    (wellFormed : ∀ source ∈ sources, WellFormed source.file.source source.root)
    (version : 1 ≤ scope.indexVersion)
    (digests : ∀ text, textFits 64 (tools.platform.sha256Hex text) = true)
    (commit : textFits 64 scope.commitSha = true) :
    (∀ row ∈ graphEdges repositoryId processing, edgeFits row = true) ↔
      CallsFit limits tools.platform tools.unicode sources := by
  obtain ⟨graph, built, edges⟩ := result.graph
  have fits : ∀ site ∈ callSitesOf limits tools.platform sources, ∀ caller resolution,
      (edgeFits (edgeRow repositoryId scope.indexVersion
        (edgeRecord tools.platform scope site caller resolution)) = true ↔
          CallTextsFit site resolution.callee) := by
    intro site member caller resolution
    obtain ⟨source, listed, recorded⟩ := mem_callSitesOf.mp member
    exact edgeFits_iff repositoryId caller resolution
      (site_ordered (wellFormed source listed) recorded) version digests commit
  simp only [graphEdges, List.mem_map, edges, result.indexVersion]
  constructor
  · intro rows site member caller resolution draws
    exact (fits site member caller resolution).mp (rows _ ⟨_, draws.mem built member, rfl⟩)
  · rintro calls _ ⟨edge, drawn, rfl⟩
    obtain ⟨site, member, caller, resolution, draws, rfl⟩ := (mem_graph_edges built edge).mp drawn
    exact (fits site member caller resolution).mpr (calls site member caller resolution draws)

/-- The rows of an analysis fit exactly when the stored definitions and the
drawn calls of its sources do. -/
theorem analysis_rows_fit_iff {discovery : DiscoveryResult} (repositoryId : RepositoryId)
    (analyzed : RepositoryAnalyzer.analyze limits tools discovery scope = .ok processing)
    (paths : (discovery.files.map (·.relativePath)).Nodup)
    (wellFormed : ∀ source ∈ analyzedSources limits tools scope.commitSha discovery.files,
      WellFormed source.file.source source.root)
    (version : 1 ≤ scope.indexVersion)
    (digests : ∀ text, textFits 64 (tools.platform.sha256Hex text) = true)
    (commit : textFits 64 scope.commitSha = true) :
    RowsFit tools.platform repositoryId processing ↔
      DefinitionsFit limits tools.platform
          (analyzedSources limits tools scope.commitSha discovery.files) ∧
        CallsFit limits tools.platform tools.unicode
          (analyzedSources limits tools scope.commitSha discovery.files) := by
  have result := analyze_sources analyzed
  have symbols := symbols_fit_iff repositoryId result wellFormed
    (fun source => analyzedSources_commitSha) version digests commit
  have edges := edges_fit_iff repositoryId result wellFormed version digests commit
  have distinct := @recordsOf_distinct_iff limits tools.platform _
    (analyzedSources_paths scope.commitSha paths) wellFormed
  rw [← result.symbols] at distinct
  constructor
  · rintro ⟨symbolRows, edgeRows, places⟩
    exact ⟨⟨symbols.mp symbolRows, distinct.mp places⟩, edges.mp edgeRows⟩
  · rintro ⟨definitions, calls⟩
    exact ⟨symbols.mpr definitions.texts, edges.mpr calls, distinct.mpr definitions.distinct⟩

end Result

end Proofs

/-! ## A long name -/

namespace RowSamples

open ReceiverSamples LargeSamples

/-- The limits of the default settings. -/
def defaultLimits : ParserLimits where
  maxSymbolsPerFile := 5000
  maxSymbolBytes := 512 * 1024
  maxChunkBytes := 32 * 1024
  maxChunksPerFile := 2000
  maxTotalChunks := 50000
  maxTotalChunkBytes := 64 * 1024 * 1024
  maxDocumentSectionBytes := 256 * 1024
  maxWarningsPerFile := 50
  maxCallSitesPerFile := 10000
  maxTotalCallSites := 100000
  maxCallExpressionBytes := 2048

/-- The text `def a…a(): g()` with a name of so many characters. -/
def namedText (size : Nat) : List Char :=
  "def ".toList ++ List.replicate size 'a' ++ "(): g()\n".toList

def namedRoot (size : Nat) : Node :=
  node "module" none (0, 12 + size) ⟨0, 0⟩ ⟨1, 0⟩ [
    node "function_definition" none (0, 11 + size) ⟨0, 0⟩ ⟨0, 11 + size⟩ [
      node "identifier" (some "name") (4, 4 + size) ⟨0, 4⟩ ⟨0, 4 + size⟩ [],
      node "parameters" (some "parameters") (4 + size, 6 + size) ⟨0, 4 + size⟩ ⟨0, 6 + size⟩ [],
      node "block" (some "body") (8 + size, 11 + size) ⟨0, 8 + size⟩ ⟨0, 11 + size⟩ [
        node "expression_statement" none (8 + size, 11 + size) ⟨0, 8 + size⟩ ⟨0, 11 + size⟩ [
          node "call" none (8 + size, 11 + size) ⟨0, 8 + size⟩ ⟨0, 11 + size⟩ [
            node "identifier" (some "function") (8 + size, 9 + size) ⟨0, 8 + size⟩
              ⟨0, 9 + size⟩ [],
            node "argument_list" (some "arguments") (9 + size, 11 + size) ⟨0, 9 + size⟩
              ⟨0, 11 + size⟩ []]]]]]

def namedTools (size : Nat) : AnalysisTools where
  platform := blankDigests
  unicode := unicode
  treeSitter := fun _ => namedRoot size
  readSource := fun _ => .text (namedText size)

def namedDiscovery (size : Nat) : DiscoveryResult :=
  { files := [⟨"m.py", 12 + size⟩], totalBytes := 12 + size }

def namedResult (size : Nat) : Except Failure ProcessingResult :=
  RepositoryAnalyzer.analyze defaultLimits (namedTools size) (namedDiscovery size) scope

def namedSources (size : Nat) : List ParsedSource :=
  analyzedSources defaultLimits (namedTools size) scope.commitSha (namedDiscovery size).files

end RowSamples

open ReceiverSamples LargeSamples RowSamples in
/-- A function name of 513 characters cannot be stored. -/
theorem long_name_unstorable : ∃ processing, namedResult 513 = .ok processing ∧
    ¬ RowsFit blankDigests 1 processing := by
  have named : ((namedResult 513).toOption.any fun processing =>
      (graphSymbols blankDigests 1 processing).any fun row =>
        row.symbolName == String.ofList (List.replicate 513 'a')) = true := by
    decide +kernel
  have long : textFits 512 (String.ofList (List.replicate 513 'a')) = false := by
    rw [textFits, String.length_ofList, List.length_replicate]
    rfl
  cases analyzed : namedResult 513 with
  | error failure =>
      rw [analyzed] at named
      cases named
  | ok processing =>
      rw [analyzed] at named
      obtain ⟨row, member, name⟩ := List.any_eq_true.mp named
      refine ⟨processing, rfl, fun rows => ?_⟩
      have fits := rows.symbols row member
      simp only [symbolFits, Bool.and_eq_true] at fits
      rw [beq_iff_eq.mp name, long] at fits
      cases fits.1.1.1.2

open ReceiverSamples LargeSamples RowSamples in
theorem short_name_rows_fit : ∃ processing, namedResult 1 = .ok processing ∧
    RowsFit blankDigests 1 processing := by
  have succeeds : (namedResult 1).isOk = true := by decide +kernel
  have lawfulTrees : (namedSources 1).all (fun source =>
      (visited [source.root]).all (lawful source.file.source)) = true := by
    decide +kernel
  have definitionTexts : (namedSources 1).all (fun source =>
      (source.recorded defaultLimits blankDigests).all fun definition =>
        textFits 1024 source.file.filePath && textFits 512 definition.symbol.name &&
          textFits 1024 definition.symbol.qualifiedName) = true := by
    decide +kernel
  have places : (namedSources 1).all (fun source =>
      decide ((source.recorded defaultLimits blankDigests).map fun definition =>
        (definition.symbol.qualifiedName, definition.symbol.startLine)).Nodup) = true := by
    decide +kernel
  have callTexts : (callSitesOf defaultLimits blankDigests (namedSources 1)).all (fun site =>
      textFits 1024 site.filePath && textFits 2048 site.expression &&
        textFits 1024 site.expression) = true := by
    decide +kernel
  simp only [List.all_eq_true, Bool.and_eq_true] at definitionTexts callTexts
  simp only [List.all_eq_true, decide_eq_true_eq] at places
  cases analyzed : namedResult 1 with
  | error failure =>
      rw [analyzed] at succeeds
      cases succeeds
  | ok processing =>
      refine ⟨processing, rfl, (analysis_rows_fit_iff 1 analyzed (by decide) ?_ (by decide)
        (fun _ => rfl) (by decide)).mpr ⟨⟨?_, places⟩, ?_⟩⟩
      · intro source member
        exact wellFormed_of_lawful (List.all_eq_true.mp lawfulTrees source member)
      · intro source member definition stored
        obtain ⟨⟨path, name⟩, qualified⟩ := definitionTexts source member definition stored
        exact ⟨path, name, qualified⟩
      · intro site member caller resolution _
        obtain ⟨⟨path, expression⟩, callee⟩ := callTexts site member
        exact ⟨path, expression, fun _ => callee⟩

end Codenaut.Services
