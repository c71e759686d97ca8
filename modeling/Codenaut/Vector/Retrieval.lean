import Codenaut.Vector.QdrantProperties

/-!
# Scoped retrieval

The similarity search of the vector store: the parser of its hits, and the
scopes whose points a search may show. A score that is not finite is `none`.
-/

set_option autoImplicit false

namespace Codenaut.Vector

open Codenaut.Core Codenaut.Db Codenaut.Embeddings Codenaut.Indexing Codenaut.Relational

/-! ## Hits -/

structure RetrievalHit where
  score : Rat
  filePath : String
  language : String
  chunkType : String
  symbolName : Option String
  qualifiedSymbolName : Option String
  startLine : Nat
  endLine : Nat
  content : String
  stableChunkHash : String
  deriving DecidableEq, Repr

/-- What the similarity query returns for one stored record. -/
structure ScoredPoint where
  score : Option Rat
  payload : Payload
  deriving DecidableEq, Repr

/-- `SHA256_HEX_LENGTH`. -/
def sha256HexLength : Nat := 64

/-- `file_path.startswith("/") or ".." in file_path.split("/")`. -/
def escapesRoot (filePath : String) : Bool :=
  filePath.toList.head? == some '/' || (filePath.toList.splitOn '/').contains ['.', '.']

/-- The checks of the hit parser that do not read the scope. -/
def readableEvidence (payload : Payload) : Bool :=
  decide (1 ≤ payload.startLine) && decide (payload.startLine ≤ payload.endLine) &&
    payload.filePath != "" && payload.content != "" && payload.language != "" &&
    payload.chunkType.value != "" && !escapesRoot payload.filePath &&
    payload.stableChunkHash.length == sha256HexLength

def malformedHit : Failure :=
  vectorError "qdrant_malformed_search_result" "The vector store returned malformed evidence"

/-- `_parse_retrieval_hit`. -/
def parseRetrievalHit (scope : VectorScope) (commitSha : CommitSha)
    (modelFingerprint preprocessingFingerprint : String) (point : ScoredPoint) :
    Except Failure RetrievalHit :=
  let payload := point.payload
  match point.score with
  | none => .error malformedHit
  | some score =>
      if !payloadMatchesScope scope payload || payload.repositoryId != scope.repositoryId ||
          payload.indexVersion != scope.indexVersion || payload.commitSha != commitSha ||
          payload.embeddingModelFingerprint != modelFingerprint ||
          payload.preprocessingPolicyFingerprint != preprocessingFingerprint then
        .error malformedHit
      else if !readableEvidence payload then .error malformedHit
      else .ok
        { score := score
          filePath := payload.filePath
          language := payload.language
          chunkType := payload.chunkType.value
          symbolName := payload.symbolName
          qualifiedSymbolName := payload.qualifiedSymbolName
          startLine := payload.startLine
          endLine := payload.endLine
          content := payload.content
          stableChunkHash := payload.stableChunkHash }

/-- `search`. The provider answers with the points it ranked; one hit that the
parser refuses fails the whole search. -/
def search (settings : Settings) (scope : VectorScope) (queryVector : Embedding)
    (commitSha : CommitSha) (modelFingerprint preprocessingFingerprint : String)
    (answered : Except Failure (List ScoredPoint)) : Except Failure (List RetrievalHit) :=
  if !validVector settings queryVector then
    .error (vectorError "invalid_query_vector" "The query embedding failed validation")
  else
    match answered with
    | .error failure => .error failure
    | .ok points =>
        points.mapM (parseRetrievalHit scope commitSha modelFingerprint preprocessingFingerprint)

/-! ## Tenants -/

/-- The installation of a private scope, the GitHub repository of a public one. -/
def VectorScope.source (scope : VectorScope) : Option Nat :=
  match scope.accessMode with
  | .publicAccess => scope.githubRepositoryId
  | .githubInstallation => scope.installationId

/-- Two scopes that select one tenant's repository at one version. -/
structure VectorScope.Agrees (left right : VectorScope) : Prop where
  accessMode : left.accessMode = right.accessMode
  source : left.source = right.source
  repository : left.repositoryId = right.repositoryId
  version : left.indexVersion = right.indexVersion

instance (left right : VectorScope) : Decidable (left.Agrees right) :=
  decidable_of_iff
    (left.accessMode = right.accessMode ∧ left.source = right.source ∧
      left.repositoryId = right.repositoryId ∧ left.indexVersion = right.indexVersion)
    ⟨fun ⟨accessMode, source, repository, version⟩ => ⟨accessMode, source, repository, version⟩,
      fun agrees => ⟨agrees.accessMode, agrees.source, agrees.repository, agrees.version⟩⟩

end Codenaut.Vector
