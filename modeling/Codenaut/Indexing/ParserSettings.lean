import Codenaut.Core.Settings
import Codenaut.Indexing.Analyzer

/-!
# Parser settings

The settings of parsing and chunking (`app/core/config.py`), and the limits
that the analyzer reads from them.
-/

set_option autoImplicit false

namespace Codenaut.Indexing

open Codenaut.Core

/-- Settings that passed their fields and `validate_parser_limits`. -/
structure ParserSettings extends Settings where
  parserMaxSymbolsPerFile : Nat := 5000
  parserMaxSymbolBytes : Nat := 512 * 1024
  parserMaxChunkBytes : Nat := 32 * 1024
  parserMaxChunksPerFile : Nat := 2000
  parserMaxTotalChunks : Nat := 50000
  parserMaxTotalChunkBytes : Nat := 64 * 1024 * 1024
  parserMaxDocumentSectionBytes : Nat := 256 * 1024
  parserMaxWarningsPerFile : Nat := 50
  parserMaxCallSitesPerFile : Nat := 10000
  parserMaxTotalCallSites : Nat := 100000
  parserMaxCallExpressionBytes : Nat := 2048
  symbols : 1 ≤ parserMaxSymbolsPerFile ∧ parserMaxSymbolsPerFile ≤ 100000 := by decide
  symbolBytes : 1024 ≤ parserMaxSymbolBytes := by decide
  chunkBytes : 512 ≤ parserMaxChunkBytes := by decide
  chunks : 1 ≤ parserMaxChunksPerFile ∧ parserMaxChunksPerFile ≤ 100000 := by decide
  totalChunks : 1 ≤ parserMaxTotalChunks ∧ parserMaxTotalChunks ≤ 1000000 := by decide
  totalChunkBytes : 1024 ≤ parserMaxTotalChunkBytes := by decide
  documentSectionBytes : 1024 ≤ parserMaxDocumentSectionBytes := by decide
  warnings : 1 ≤ parserMaxWarningsPerFile ∧ parserMaxWarningsPerFile ≤ 1000 := by decide
  callSites : 1 ≤ parserMaxCallSitesPerFile ∧ parserMaxCallSitesPerFile ≤ 200000 := by decide
  totalCallSites : 1 ≤ parserMaxTotalCallSites ∧ parserMaxTotalCallSites ≤ 2000000 := by decide
  callExpressionBytes : 32 ≤ parserMaxCallExpressionBytes ∧
    parserMaxCallExpressionBytes ≤ 16384 := by decide
  embeddingDocumentBytes : 1024 ≤ embeddingMaxDocumentBytes := by decide
  chunkInSymbol : parserMaxChunkBytes ≤ parserMaxSymbolBytes := by decide
  callSitesInTotal : parserMaxCallSitesPerFile ≤ parserMaxTotalCallSites := by decide
  chunkInSection : parserMaxChunkBytes ≤ parserMaxDocumentSectionBytes := by decide
  chunkInDocument : parserMaxChunkBytes ≤ embeddingMaxDocumentBytes := by decide

/-- `ParserLimits.from_settings`. -/
def ParserLimits.fromSettings (settings : ParserSettings) : ParserLimits where
  maxSymbolsPerFile := settings.parserMaxSymbolsPerFile
  maxSymbolBytes := settings.parserMaxSymbolBytes
  maxChunkBytes := settings.parserMaxChunkBytes
  maxChunksPerFile := settings.parserMaxChunksPerFile
  maxTotalChunks := settings.parserMaxTotalChunks
  maxTotalChunkBytes := settings.parserMaxTotalChunkBytes
  maxDocumentSectionBytes := settings.parserMaxDocumentSectionBytes
  maxWarningsPerFile := settings.parserMaxWarningsPerFile
  maxCallSitesPerFile := settings.parserMaxCallSitesPerFile
  maxTotalCallSites := settings.parserMaxTotalCallSites
  maxCallExpressionBytes := settings.parserMaxCallExpressionBytes

end Codenaut.Indexing
