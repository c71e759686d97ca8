import Codenaut.Db.Models

/-!
# Transient indexing records

What analysis hands to the job store and the vector store
(`app/indexing/models.py`, `app/indexing/failures.py`,
`app/indexing/discovery.py`).
-/

set_option autoImplicit false

namespace Codenaut.Indexing

open Codenaut.Db

/-- A classified worker failure that is safe to persist. -/
structure IndexingError where
  code : String
  safeMessage : String
  retryable : Bool
  deriving DecidableEq, Repr

/-- How a call can raise: a classified error, or any other exception. -/
inductive Failure where
  | indexing (error : IndexingError)
  | internal
  deriving DecidableEq, Repr

inductive ChunkType where
  | function
  | asyncFunction
  | method
  | classOverview
  | moduleChunk
  | markdown
  | documentation
  deriving DecidableEq, Repr

def ChunkType.value : ChunkType → String
  | .function => "function"
  | .asyncFunction => "async_function"
  | .method => "method"
  | .classOverview => "class_overview"
  | .moduleChunk => "module"
  | .markdown => "markdown"
  | .documentation => "documentation"

structure ContentChunk where
  repositoryId : RepositoryId
  indexVersion : Nat
  ordinal : Nat
  filePath : String
  language : String
  chunkType : ChunkType
  symbolName : Option String := none
  qualifiedName : Option String := none
  parentQualifiedName : Option String := none
  headingHierarchy : List String := []
  imports : List String := []
  decorators : List String := []
  signature : Option String := none
  docstring : Option String := none
  startLine : Nat
  endLine : Nat
  commitSha : CommitSha
  contentHash : String
  content : String
  deriving DecidableEq, Repr

structure SymbolRecord where
  filePath : String
  language : String
  symbolType : SymbolType
  symbolName : String
  qualifiedName : String
  startLine : Nat
  endLine : Nat
  contentHash : String
  commitSha : CommitSha
  deriving DecidableEq, Repr

structure CallEdgeRecord where
  id : EdgeId
  callerSymbolId : SymbolId
  calleeSymbolId : Option SymbolId
  unresolvedCalleeName : Option String
  filePath : String
  callLine : Nat
  callEndLine : Nat
  callExpression : String
  callSiteFingerprint : String
  resolutionType : ResolutionType
  confidence : Confidence
  commitSha : CommitSha
  deriving DecidableEq, Repr

structure DiscoveredFile where
  relativePath : String
  sizeBytes : Nat
  deriving DecidableEq, Repr

structure DiscoveryResult where
  files : List DiscoveredFile := []
  totalBytes : Nat := 0
  skipped : List (String × Nat) := []
  deriving DecidableEq, Repr

/-- The analyzer's result. It counts its own chunks, and the graph builder
stamps every edge with the commit the analyzer puts in the result. -/
structure ProcessingResult where
  repositoryId : RepositoryId
  indexVersion : Nat
  commitSha : CommitSha
  parsedFileCount : Nat := 0
  partialFileCount : Nat := 0
  skippedFileCount : Nat := 0
  symbolCount : Nat := 0
  chunkCount : Nat := 0
  warningCounts : List (String × Nat) := []
  symbols : List SymbolRecord := []
  chunks : List ContentChunk := []
  callSiteCount : Nat := 0
  exactEdgeCount : Nat := 0
  ambiguousEdgeCount : Nat := 0
  unresolvedCallCount : Nat := 0
  graphWarningCount : Nat := 0
  graphFingerprint : String := ""
  callEdges : List CallEdgeRecord := []
  chunksCounted : chunkCount = chunks.length
  edgesStamped : ∀ edge ∈ callEdges, edge.commitSha = commitSha
  deriving DecidableEq

theorem no_edges_stamped (commitSha : CommitSha) :
    ∀ edge ∈ ([] : List CallEdgeRecord), edge.commitSha = commitSha := by
  simp

end Codenaut.Indexing
