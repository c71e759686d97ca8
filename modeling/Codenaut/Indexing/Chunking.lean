import Codenaut.Indexing.ParsedModels
import Codenaut.Indexing.PythonParser

/-!
# Chunking

`PythonChunker` and `DocumentationChunker` (`app/indexing/chunking.py`): the
line ranges and contents of the chunks of one file.
-/

set_option autoImplicit false

namespace Codenaut.Indexing

open Codenaut.Db Codenaut.Relational Codenaut.Text

structure FileChunkResult where
  chunks : List ContentChunk
  warnings : List String
  deriving DecidableEq, Repr

/-- `"\n".join(lines)`. -/
def joinLines (lines : List (List Char)) : List Char :=
  [ '\n' ].intercalate lines

/-- `_line_slice`. Lines count from one. -/
def lineSlice (lines : List (List Char)) (startLine endLine : Nat) : String :=
  String.ofList (joinLines ((lines.take endLine).drop (startLine - 1)))

/-- The scope that a repository's chunks carry. -/
structure ChunkScope where
  repositoryId : RepositoryId
  indexVersion : Nat
  deriving DecidableEq, Repr

/-- `_with_ordinal` over a whole file. -/
def numbered (chunks : List ContentChunk) : List ContentChunk :=
  chunks.mapIdx fun ordinal chunk => { chunk with ordinal := ordinal }

theorem numbered_ordinals (chunks : List ContentChunk) :
    (numbered chunks).map (·.ordinal) = List.range (numbered chunks).length := by
  apply List.ext_getElem (by simp)
  intro place _ _
  simp [numbered]

/-! ## Python -/

structure PythonChunker where
  maxSymbolBytes : Nat
  maxChunkBytes : Nat
  maxChunksPerFile : Nat
  maxWarnings : Nat
  deriving DecidableEq, Repr

/-- `segment.node_type in DEFINITION_NODE_TYPES`. -/
def isDefinitionSegment (segment : SourceSegment) : Bool :=
  segment.nodeType = "function_definition" ∨ segment.nodeType = "class_definition" ∨
    segment.nodeType = "decorated_definition"

/-- `_contiguous_runs`: `current` is the run that is being filled. -/
def runsFrom (current : List SourceSegment) (lastEnd : Nat) :
    List SourceSegment → List (List SourceSegment)
  | [] => [current]
  | segment :: rest =>
      if segment.startLine > lastEnd + 1 then
        current :: runsFrom [segment] segment.endLine rest
      else runsFrom (current ++ [segment]) segment.endLine rest

def contiguousRuns : List SourceSegment → List (List SourceSegment)
  | [] => []
  | segment :: rest => runsFrom [segment] segment.endLine rest

def chunkTypeOf (symbol : ParsedSymbol) : ChunkType :=
  match symbol.symbolType with
  | .asyncFunction => .asyncFunction
  | .method => .method
  | _ => .function

/-- `_make_chunk`. -/
def makeChunk (chunker : PythonChunker) (platform : Platform) (scope : ChunkScope)
    (parsed : ParsedFile) (chunkType : ChunkType) (symbol : Option ParsedSymbol)
    (content : String) (startLine endLine : Nat) : Option ContentChunk :=
  if content = "" ∨ content.utf8ByteSize > chunker.maxChunkBytes then none
  else
    some
      { repositoryId := scope.repositoryId
        indexVersion := scope.indexVersion
        ordinal := 0
        filePath := parsed.filePath
        language := "python"
        chunkType := chunkType
        symbolName := symbol.map (·.name)
        qualifiedName := some (symbol.elim parsed.moduleName (·.qualifiedName))
        parentQualifiedName := symbol.bind (·.parentQualifiedName)
        imports := parsed.imports.map (·.sourceText)
        decorators := symbol.elim [] (·.decorators)
        signature := symbol.map (·.signature)
        docstring := symbol.elim parsed.moduleDocstring (·.docstring)
        startLine := startLine
        endLine := endLine
        commitSha := parsed.commitSha
        contentHash := platform.sha256Hex content
        content := content }

/-- The loop of `_segment_chunks`: the group from `groupStart` to `groupEnd` is
open. A group closes before a segment that would make it too large. -/
def segmentChunksFrom (chunker : PythonChunker) (platform : Platform) (scope : ChunkScope)
    (parsed : ParsedFile) (lines : List (List Char)) (chunkType : ChunkType)
    (symbol : Option ParsedSymbol) (groupStart groupEnd : Nat) :
    List SourceSegment → Option (List ContentChunk)
  | [] =>
      (makeChunk chunker platform scope parsed chunkType symbol
        (lineSlice lines groupStart groupEnd) groupStart groupEnd).map fun chunk => [chunk]
  | segment :: rest =>
      if (lineSlice lines groupStart segment.endLine).utf8ByteSize ≤ chunker.maxChunkBytes then
        segmentChunksFrom chunker platform scope parsed lines chunkType symbol groupStart
          segment.endLine rest
      else
        match makeChunk chunker platform scope parsed chunkType symbol
            (lineSlice lines groupStart groupEnd) groupStart groupEnd with
        | none => none
        | some chunk =>
            (segmentChunksFrom chunker platform scope parsed lines chunkType symbol
              segment.startLine segment.endLine rest).map fun chunks => chunk :: chunks

/-- `_segment_chunks`. -/
def segmentChunks (chunker : PythonChunker) (platform : Platform) (scope : ChunkScope)
    (parsed : ParsedFile) (lines : List (List Char)) (chunkType : ChunkType)
    (symbol : Option ParsedSymbol) : List SourceSegment → Option (List ContentChunk)
  | [] => some []
  | first :: rest =>
      segmentChunksFrom chunker platform scope parsed lines chunkType symbol first.startLine
        first.endLine rest

/-- The chunks of all runs, unless one run has none. -/
def runChunks (chunker : PythonChunker) (platform : Platform) (scope : ChunkScope)
    (parsed : ParsedFile) (lines : List (List Char)) (chunkType : ChunkType)
    (symbol : ParsedSymbol) : Option (List ContentChunk) :=
  ((contiguousRuns (symbol.bodySegments.filter (!isDefinitionSegment ·))).mapM
    (segmentChunks chunker platform scope parsed lines chunkType (some symbol))).map List.flatten

/-- `_symbol_chunks`. -/
def symbolChunks (chunker : PythonChunker) (platform : Platform) (scope : ChunkScope)
    (parsed : ParsedFile) (lines : List (List Char)) (symbol : ParsedSymbol) :
    Option (List ContentChunk) :=
  if symbol.symbolType = .classType then
    match makeChunk chunker platform scope parsed .classOverview (some symbol) symbol.headerText
        symbol.headerStartLine symbol.headerEndLine with
    | none => none
    | some header =>
        (runChunks chunker platform scope parsed lines .classOverview symbol).map
          fun overview => header :: overview
  else if symbol.sourceText.utf8ByteSize ≤ chunker.maxChunkBytes then
    (makeChunk chunker platform scope parsed (chunkTypeOf symbol) (some symbol) symbol.sourceText
      symbol.startLine symbol.endLine).map fun chunk => [chunk]
  else runChunks chunker platform scope parsed lines (chunkTypeOf symbol) symbol

/-- The loop over the symbols: chunks and warnings of each in turn. -/
def symbolResult (chunker : PythonChunker) (platform : Platform) (scope : ChunkScope)
    (parsed : ParsedFile) (lines : List (List Char)) (symbol : ParsedSymbol) :
    List ContentChunk × List String :=
  if symbol.sourceText.utf8ByteSize > chunker.maxSymbolBytes then ([], ["symbol_too_large"])
  else
    match symbolChunks chunker platform scope parsed lines symbol with
    | none => ([], ["symbol_too_large"])
    | some chunks => (chunks, [])

/-- The loop over the runs of module statements, which stops at the first run
that is too large. -/
def moduleResult (chunker : PythonChunker) (platform : Platform) (scope : ChunkScope)
    (parsed : ParsedFile) (lines : List (List Char)) :
    List (List SourceSegment) → List ContentChunk × List String
  | [] => ([], [])
  | run :: runs =>
      match segmentChunks chunker platform scope parsed lines .moduleChunk none run with
      | none => ([], ["module_code_too_large"])
      | some chunks =>
          let rest := moduleResult chunker platform scope parsed lines runs
          (chunks ++ rest.1, rest.2)

/-- The chunks of a file before they are sorted, counted and numbered. -/
def collectedChunks (chunker : PythonChunker) (platform : Platform) (scope : ChunkScope)
    (parsed : ParsedFile) : List ContentChunk × List String :=
  let lines := splitlines parsed.sourceText.toList
  let symbols := parsed.symbols.map (symbolResult chunker platform scope parsed lines)
  let module := moduleResult chunker platform scope parsed lines
    (contiguousRuns parsed.moduleSegments)
  (symbols.flatMap (·.1) ++ module.1, symbols.flatMap (·.2) ++ module.2)

/-- `PythonChunker.chunk`. -/
def chunkPython (chunker : PythonChunker) (platform : Platform) (scope : ChunkScope)
    (parsed : ParsedFile) : FileChunkResult :=
  let (chunks, warnings) := collectedChunks chunker platform scope parsed
  if chunks.length > chunker.maxChunksPerFile then
    { chunks := [], warnings := ["chunk_count_exceeded"] }
  else
    { chunks := numbered <| sortOn (fun chunk => toLex (chunk.startLine, toLex (chunk.endLine,
        toLex (chunk.chunkType.value, toLex (chunk.qualifiedName.getD "", chunk.contentHash)))))
        chunks
      warnings := warnings.take chunker.maxWarnings }

/-! ## Documentation -/

structure DocumentationChunker where
  maxChunkBytes : Nat
  maxSectionBytes : Nat
  maxChunksPerFile : Nat
  maxWarnings : Nat
  deriving DecidableEq, Repr

structure DocumentationSection where
  startLine : Nat
  endLine : Nat
  headingHierarchy : List String
  deriving DecidableEq, Repr

def isTabOrSpace (char : Char) : Bool :=
  char == ' ' || char == '\t'

/-- `FENCE_PATTERN.match(line)`: the character of the fence. -/
def fenceMarker (line : List Char) : Option Char :=
  match line.dropWhile isTabOrSpace with
  | '\x60' :: '\x60' :: '\x60' :: _ => some '\x60'
  | '~' :: '~' :: '~' :: _ => some '~'
  | _ => none

/-- The open fence after a line that matched with `marker`. -/
def toggleFence (fence : Option Char) (marker : Char) : Option Char :=
  if fence = some marker then none else fence.or (some marker)

/-- What trails a title: blanks, number signs and again blanks. -/
def titleText (rest : List Char) : List Char :=
  ((rest.rdropWhile isTabOrSpace).rdropWhile (· = '#')).rdropWhile isTabOrSpace

/-- `HEADING_PATTERN.match(line)`: the level and the stripped title. The title
is not empty, so one of number signs or blanks alone keeps its first character. -/
def heading (line : List Char) : Option (Nat × String) :=
  let level := (line.takeWhile (· = '#')).length
  let rest := line.drop level
  if level = 0 ∨ 6 < level then none
  else
    match rest.dropWhile isTabOrSpace with
    | [] => if rest.length < 2 then none else some (level, "")
    | first :: tail =>
        if !isTabOrSpace (rest.headD first) then none
        else
          match titleText (first :: tail) with
          | [] => some (level, String.ofList (strip [first]))
          | title => some (level, String.ofList (strip title))

/-- The state of the loop of `_markdown_sections`. -/
structure HeadingScan where
  starts : List (Nat × List String) := [(1, [])]
  hierarchy : List String := []
  fence : Option Char := none
  deriving DecidableEq, Repr

/-- One line of the loop, the line number first. -/
def scanLine (scan : HeadingScan) (index : Nat) (line : List Char) : HeadingScan :=
  match fenceMarker line with
  | some marker => { scan with fence := toggleFence scan.fence marker }
  | none =>
      if scan.fence.isSome then scan
      else
        match heading line with
        | none => scan
        | some (level, title) =>
            let hierarchy := scan.hierarchy.take (level - 1) ++ [title]
            { scan with
              hierarchy := hierarchy
              starts :=
                if index = 1 ∧ scan.starts = [(1, [])] then [(1, hierarchy)]
                else scan.starts ++ [(index, hierarchy)] }

def scanLines (scan : HeadingScan) (index : Nat) : List (List Char) → HeadingScan
  | [] => scan
  | line :: lines => scanLines (scanLine scan index line) (index + 1) lines

/-- The sections between the starts. -/
def sectionsFrom (lineCount : Nat) : List (Nat × List String) → List DocumentationSection
  | [] => []
  | (start, headings) :: rest =>
      let stop := match rest with
        | [] => lineCount
        | (next, _) :: _ => next - 1
      if start ≤ stop then ⟨start, stop, headings⟩ :: sectionsFrom lineCount rest
      else sectionsFrom lineCount rest

/-- `_markdown_sections`. -/
def markdownSections (lines : List (List Char)) : List DocumentationSection :=
  if lines = [] then [⟨1, 1, []⟩]
  else sectionsFrom lines.length (scanLines {} 1 lines).starts

/-- The loop of `_paragraph_ranges` over the line numbers that are left. -/
def paragraphsFrom (lines : List (List Char)) (endLine : Nat) (paragraphStart : Option Nat)
    (fence : Option Char) : List Nat → List (Nat × Nat)
  | [] => (paragraphStart.map fun start => (start, endLine)).toList
  | number :: rest =>
      let line := lines.getD (number - 1) []
      match fenceMarker line with
      | some marker =>
          paragraphsFrom lines endLine (some (paragraphStart.getD number))
            (toggleFence fence marker) rest
      | none =>
          if strip line = [] ∧ fence = none then
            (paragraphStart.map fun start => (start, number - 1)).toList ++
              paragraphsFrom lines endLine none fence rest
          else paragraphsFrom lines endLine (some (paragraphStart.getD number)) fence rest

/-- `_paragraph_ranges`. -/
def paragraphRanges (lines : List (List Char)) (startLine endLine : Nat) : List (Nat × Nat) :=
  paragraphsFrom lines endLine none none (List.range' startLine (endLine + 1 - startLine))

/-- The loop of `_split_lines` over the line numbers that are left. -/
def splitFrom (chunker : DocumentationChunker) (lines : List (List Char)) (start stop : Nat) :
    List Nat → Option (List (Nat × Nat))
  | [] => some [(start, stop)]
  | number :: rest =>
      if (lineSlice lines number number).utf8ByteSize > chunker.maxChunkBytes then none
      else if (lineSlice lines start number).utf8ByteSize > chunker.maxChunkBytes then
        (splitFrom chunker lines number number rest).map fun ranges => (start, stop) :: ranges
      else splitFrom chunker lines start number rest

/-- `_split_lines`. -/
def splitLineRange (chunker : DocumentationChunker) (lines : List (List Char))
    (startLine endLine : Nat) : Option (List (Nat × Nat)) :=
  splitFrom chunker lines startLine startLine
    (List.range' startLine (endLine + 1 - startLine))

/-- The ranges that a closed group of paragraphs becomes. -/
def closeRange (chunker : DocumentationChunker) (lines : List (List Char)) (start stop : Nat) :
    Option (List (Nat × Nat)) :=
  if (lineSlice lines start stop).utf8ByteSize > chunker.maxChunkBytes then
    splitLineRange chunker lines start stop
  else some [(start, stop)]

/-- The loop of `_pack_ranges`: the group from `start` to `stop` is open. -/
def packFrom (chunker : DocumentationChunker) (lines : List (List Char)) (start stop : Nat) :
    List (Nat × Nat) → Option (List (Nat × Nat))
  | [] => closeRange chunker lines start stop
  | candidate :: rest =>
      if (lineSlice lines start candidate.2).utf8ByteSize ≤ chunker.maxChunkBytes then
        packFrom chunker lines start candidate.2 rest
      else
        match closeRange chunker lines start stop with
        | none => none
        | some closed =>
            (packFrom chunker lines candidate.1 candidate.2 rest).map (closed ++ ·)

/-- `_pack_ranges`. -/
def packRanges (chunker : DocumentationChunker) (lines : List (List Char)) :
    List (Nat × Nat) → Option (List (Nat × Nat))
  | [] => some []
  | first :: rest => packFrom chunker lines first.1 first.2 rest

/-- `suffix in MARKDOWN_SUFFIXES`. -/
def isMarkdown (filePath : String) : Bool :=
  let suffix := lower (pathSuffix filePath)
  suffix = ".md" ∨ suffix = ".markdown"

/-- `suffix in DOCUMENTATION_SUFFIXES`. -/
def isPlainText (filePath : String) : Bool :=
  let suffix := lower (pathSuffix filePath)
  suffix = ".txt" ∨ suffix = ".rst"

def documentationChunk (platform : Platform) (scope : ChunkScope) (filePath : String)
    (commitSha : CommitSha) (lines : List (List Char)) (headings : List String)
    (range : Nat × Nat) : ContentChunk :=
  let content := lineSlice lines range.1 range.2
  { repositoryId := scope.repositoryId
    indexVersion := scope.indexVersion
    ordinal := 0
    filePath := filePath
    language := if isMarkdown filePath then "markdown" else "text"
    chunkType := if isMarkdown filePath then .markdown else .documentation
    headingHierarchy := headings
    startLine := range.1
    endLine := range.2
    commitSha := commitSha
    contentHash := platform.sha256Hex content
    content := content }

/-- The chunks of one section, or none when it is too large. -/
def sectionChunks (chunker : DocumentationChunker) (platform : Platform) (scope : ChunkScope)
    (filePath : String) (commitSha : CommitSha) (lines : List (List Char))
    (documented : DocumentationSection) : Option (List ContentChunk) :=
  if (lineSlice lines documented.startLine documented.endLine).utf8ByteSize >
      chunker.maxSectionBytes then none
  else
    (packRanges chunker lines
      (paragraphRanges lines documented.startLine documented.endLine)).map fun packed =>
        (packed.map (documentationChunk platform scope filePath commitSha lines
          documented.headingHierarchy)).filter (·.content ≠ "")

/-- `DocumentationChunker.chunk`. -/
def chunkDocumentation (chunker : DocumentationChunker) (platform : Platform)
    (scope : ChunkScope) (filePath : String) (sourceText : List Char) (commitSha : CommitSha) :
    FileChunkResult :=
  if !isMarkdown filePath && !isPlainText filePath then
    { chunks := [], warnings := ["unsupported_file"] }
  else
    let lines := splitlines (normalizeNewlines sourceText)
    let sections :=
      if isMarkdown filePath then markdownSections lines
      else [⟨1, max 1 lines.length, []⟩]
    let results := sections.map
      (sectionChunks chunker platform scope filePath commitSha lines)
    let chunks := results.flatMap (·.getD [])
    let warnings := results.flatMap fun result =>
      if result.isSome then [] else ["documentation_section_too_large"]
    if chunks.length > chunker.maxChunksPerFile then
      { chunks := [], warnings := ["chunk_count_exceeded"] }
    else
      { chunks := numbered <| sortOn (fun chunk => toLex (chunk.startLine,
          toLex (chunk.endLine, chunk.contentHash))) chunks
        warnings := warnings.take chunker.maxWarnings }

end Codenaut.Indexing
