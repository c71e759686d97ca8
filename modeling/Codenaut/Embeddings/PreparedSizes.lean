import Codenaut.Embeddings.Preprocessing
import Codenaut.Indexing.DocumentationCoverage
import Codenaut.Indexing.SymbolSplits

/-!
# Sizes of prepared chunks

The chunkers bound the content of a chunk, and the settings leave room for it in
a document. What preparation adds, the metadata above all, is not counted there:
a chunk is prepared when all of it fits, and refused otherwise.
-/

set_option autoImplicit false

namespace Codenaut.Embeddings

open Codenaut.Core Codenaut.Db Codenaut.Indexing Codenaut.Relational Codenaut.Text

/-! ## Emitted chunks -/

section Sizes

variable {chunker : PythonChunker} {platform : Platform} {scope : ChunkScope}
  {parsed : ParsedFile} {lines : List (List Char)} {chunkType : ChunkType}
  {owner : Option ParsedSymbol} {symbol : ParsedSymbol} {chunks : List ContentChunk}

def ChunkBounded (limit : Nat) (chunk : ContentChunk) : Prop :=
  chunk.content.utf8ByteSize ≤ limit

theorem segmentChunks_bounded {segments : List SourceSegment}
    (made : segmentChunks chunker platform scope parsed lines chunkType owner segments =
      some chunks) : ∀ chunk ∈ chunks, ChunkBounded chunker.maxChunkBytes chunk := by
  rw [segmentChunks_groups] at made
  exact mapM_some_forall (fun _ _ grouped => makeChunk_bounded grouped) made

theorem symbolChunks_bounded
    (made : symbolChunks chunker platform scope parsed lines symbol = some chunks) :
    ∀ chunk ∈ chunks, ChunkBounded chunker.maxChunkBytes chunk := by
  have body : ∀ {chunkType : ChunkType} {chunks : List ContentChunk},
      runChunks chunker platform scope parsed lines chunkType symbol = some chunks →
        ∀ chunk ∈ chunks, ChunkBounded chunker.maxChunkBytes chunk := by
    intro chunkType chunks made
    rw [runChunks_groups] at made
    exact mapM_some_forall (fun _ _ grouped => makeChunk_bounded grouped) made
  unfold symbolChunks at made
  split at made
  · split at made
    · cases made
    case h_2 header headerMade =>
      obtain ⟨overview, overviewMade, rfl⟩ := Option.map_eq_some_iff.mp made
      exact List.forall_mem_cons.mpr ⟨makeChunk_bounded headerMade, body overviewMade⟩
  · split at made
    · obtain ⟨whole, wholeMade, rfl⟩ := Option.map_eq_some_iff.mp made
      exact List.forall_mem_singleton.mpr (makeChunk_bounded wholeMade)
    · exact body made

theorem moduleResult_bounded (runs : List (List SourceSegment)) :
    ∀ chunk ∈ (moduleResult chunker platform scope parsed lines runs).1,
      ChunkBounded chunker.maxChunkBytes chunk := by
  induction runs with
  | nil => exact fun chunk member => nomatch member
  | cons run runs ih =>
      unfold moduleResult
      split
      · exact fun chunk member => nomatch member
      case h_2 chunks made => exact List.forall_mem_append.mpr ⟨segmentChunks_bounded made, ih⟩

/-- A chunk of a Python file is within the limit of chunks. -/
theorem chunkPython_bounded {chunk : ContentChunk}
    (member : chunk ∈ (chunkPython chunker platform scope parsed).chunks) :
    ChunkBounded chunker.maxChunkBytes chunk := by
  unfold chunkPython at member
  dsimp only at member
  split at member
  · cases member
  · obtain ⟨piece, sorted, same⟩ := numbered_among member
    have bounded : ChunkBounded chunker.maxChunkBytes piece := by
      rcases List.mem_append.mp (mem_sortOn.mp sorted) with ofSymbols | ofModule
      · obtain ⟨_, results, inside⟩ := List.mem_flatMap.mp ofSymbols
        obtain ⟨symbol, -, rfl⟩ := List.mem_map.mp results
        unfold symbolResult at inside
        split at inside
        · cases inside
        · split at inside
          · cases inside
          case h_2 chunks made => exact symbolChunks_bounded made piece inside
      · exact moduleResult_bounded _ piece ofModule
    rw [same]
    exact bounded

/-- So is a chunk of a documentation file. -/
theorem chunkDocumentation_bounded {documented : DocumentationChunker} {filePath : String}
    {sourceText : List Char} {commitSha : CommitSha} {chunk : ContentChunk}
    (member : chunk ∈ (chunkDocumentation documented platform scope filePath sourceText
      commitSha).chunks) : ChunkBounded documented.maxChunkBytes chunk := by
  unfold chunkDocumentation at member
  by_cases unsupported : (!isMarkdown filePath && !isPlainText filePath) = true
  · rw [if_pos unsupported] at member
    cases member
  · rw [if_neg unsupported] at member
    dsimp only at member
    rw [← documentSections] at member
    generalize divided : documentSections filePath
      (splitlines (normalizeNewlines sourceText)) = sections at member
    split at member
    · cases member
    · obtain ⟨piece, sorted, same⟩ := numbered_among member
      obtain ⟨result, results, inside⟩ := List.mem_flatMap.mp (mem_sortOn.mp sorted)
      obtain ⟨part, listed, rfl⟩ := List.mem_map.mp results
      have bounded : ChunkBounded documented.maxChunkBytes piece := by
        cases made : sectionChunks documented platform scope filePath commitSha
            (splitlines (normalizeNewlines sourceText)) part with
        | none =>
            rw [made] at inside
            cases inside
        | some chunks =>
            rw [made, Option.getD_some] at inside
            have bounds := section_bounds (divided ▸ listed)
            have cut := (sectionChunks_holding bounds.2.1 bounds.1 made).2 piece inside
            exact cut.bounded
      rw [same]
      exact bounded

end Sizes

/-- A chunk that a chunker emits under the settings. -/
inductive Emitted (settings : ParserSettings) (platform : Platform) : ContentChunk → Prop where
  | python {scope : ChunkScope} {parsed : ParsedFile} {chunk : ContentChunk} :
      chunk ∈ (chunkPython (ParserLimits.fromSettings settings).pythonChunker platform scope
        parsed).chunks → Emitted settings platform chunk
  | documentation {scope : ChunkScope} {filePath : String} {sourceText : List Char}
      {commitSha : CommitSha} {chunk : ContentChunk} :
      chunk ∈ (chunkDocumentation (ParserLimits.fromSettings settings).documentationChunker
        platform scope filePath sourceText commitSha).chunks → Emitted settings platform chunk

theorem Emitted.bounded {settings : ParserSettings} {platform : Platform} {chunk : ContentChunk}
    (emitted : Emitted settings platform chunk) :
    chunk.content.utf8ByteSize ≤ settings.parserMaxChunkBytes := by
  cases emitted with
  | python member => exact chunkPython_bounded member
  | documentation member => exact chunkDocumentation_bounded member

/-! ## Prepared texts -/

/-- The bytes that preparation adds to the content: the version of the policy,
the metadata, and the labels and line feeds between them. -/
def addedBytes (settings : Settings) (chunk : ContentChunk) : Nat :=
  settings.embeddingPreprocessingVersion.utf8ByteSize + (chunkMetadata chunk).utf8ByteSize + 78

theorem chunkText_size (settings : Settings) (chunk : ContentChunk) :
    (chunkText settings chunk).utf8ByteSize =
      chunk.content.utf8ByteSize + addedBytes settings chunk := by
  unfold chunkText addedBytes
  simp only [String.intercalate_cons_cons, String.intercalate_singleton,
    String.utf8ByteSize_append]
  have version : "repolume_preprocessing=".utf8ByteSize = 23 := by decide +kernel
  have metadata : "chunk_metadata=".utf8ByteSize = 15 := by decide +kernel
  have begins : "chunk_content_begin".utf8ByteSize = 19 := by decide +kernel
  have ends : "chunk_content_end".utf8ByteSize = 17 := by decide +kernel
  have feed : "\n".utf8ByteSize = 1 := by decide +kernel
  rw [version, metadata, begins, ends, feed]
  omega

/-- A chunk whose content fits is prepared just when what is added fits, too. -/
structure PreparedOutcome (settings : ParserSettings) (platform : Platform)
    (chunk : ContentChunk) : Prop where
  content : chunk.content.utf8ByteSize ≤ settings.embeddingMaxDocumentBytes
  accepted : (∃ prepared, prepareChunk settings.toSettings platform chunk = .ok prepared) ↔
    chunk.content.utf8ByteSize + addedBytes settings.toSettings chunk ≤
      settings.embeddingMaxDocumentBytes
  refused : settings.embeddingMaxDocumentBytes <
      chunk.content.utf8ByteSize + addedBytes settings.toSettings chunk →
    prepareChunk settings.toSettings platform chunk = .error documentTooLarge
  roomy : addedBytes settings.toSettings chunk ≤
      settings.embeddingMaxDocumentBytes - settings.parserMaxChunkBytes →
    ∃ prepared, prepareChunk settings.toSettings platform chunk = .ok prepared

theorem prepareChunk_accepts_iff (settings : Settings) (platform : Platform)
    (chunk : ContentChunk) : (∃ prepared, prepareChunk settings platform chunk = .ok prepared) ↔
      chunk.content.utf8ByteSize + addedBytes settings chunk ≤
        settings.embeddingMaxDocumentBytes := by
  rw [← chunkText_size]
  unfold prepareChunk
  dsimp only
  split
  case isTrue large => simpa using large
  case isFalse fits => simpa using fits

/-- What a chunker emits under validated settings is prepared when the metadata
fits beside its content, and refused as a whole otherwise. -/
theorem emitted_prepared (settings : ParserSettings) (platform : Platform) (chunk : ContentChunk)
    (emitted : Emitted settings platform chunk) : PreparedOutcome settings platform chunk where
  content := emitted.bounded.trans settings.chunkInDocument
  accepted := prepareChunk_accepts_iff settings.toSettings platform chunk
  refused := by
    intro large
    rw [← chunkText_size] at large
    exact if_pos large
  roomy := by
    intro room
    have bounded := emitted.bounded
    have inside := settings.chunkInDocument
    exact (prepareChunk_accepts_iff _ _ _).mpr (by omega)

namespace PreparedSamples

open ReceiverSamples CitationSamples DocumentSamples

/-- One line of notes. -/
def notesChunk (size : Nat) : List ContentChunk :=
  (chunkDocumentation (ParserLimits.fromSettings tightSettings).documentationChunker platform
    chunkScope "notes.txt" (List.replicate size 'a') "commit").chunks

def shortChunk : ContentChunk :=
  (notesChunk 10).head (by decide +kernel)

def longChunk : ContentChunk :=
  (notesChunk 700).head (by decide +kernel)

end PreparedSamples

open ReceiverSamples DocumentSamples PreparedSamples in
theorem short_notes_prepared : PreparedOutcome tightSettings platform shortChunk :=
  emitted_prepared tightSettings platform shortChunk (.documentation (List.head_mem _))

open ReceiverSamples DocumentSamples PreparedSamples in
/-- The settings pass their validation, and the chunk is refused. -/
theorem long_notes_refused : ¬ ∀ (settings : ParserSettings) (platform : Platform)
    (chunk : ContentChunk), Emitted settings platform chunk →
      ∃ prepared, prepareChunk settings.toSettings platform chunk = .ok prepared := by
  intro accepted
  have prepared := accepted tightSettings platform longChunk (.documentation (List.head_mem _))
  rw [prepareChunk_accepts_iff] at prepared
  revert prepared
  decide +kernel

end Codenaut.Embeddings
