import Codenaut.Embeddings.Preprocessing
import Codenaut.Relational.Table
import Mathlib.Algebra.Ring.Rat
import Mathlib.Data.List.AList

/-!
# Vector store

The Qdrant adapter (`app/vector/qdrant.py`) over one shared collection of
points. A point identifier is the tuple of fields that `uuid5` digests, so
distinct names have distinct identifiers. Components are exact numbers.
-/

set_option autoImplicit false

namespace Codenaut.Vector

open Codenaut.Core Codenaut.Db Codenaut.Embeddings Codenaut.Indexing Codenaut.Relational

abbrev Embedding : Type := List Rat

/-- A Python dictionary from item identifiers to vectors. -/
abbrev VectorMap : Type := AList fun _ : String => Embedding

/-! ## Scopes -/

/-- `__post_init__` on the source of a scope. -/
def sourceValid (accessMode : RepositoryAccessMode) (installationId : Option InstallationId)
    (githubRepositoryId : Option Nat) : Bool :=
  match accessMode with
  | .publicAccess => installationId.isNone && githubRepositoryId.any (· != 0)
  | .githubInstallation => installationId.isSome

structure VectorScope where
  installationId : Option InstallationId
  repositoryId : RepositoryId
  indexVersion : Nat
  accessMode : RepositoryAccessMode
  githubRepositoryId : Option Nat
  versioned : 1 ≤ indexVersion
  sourced : sourceValid accessMode installationId githubRepositoryId = true
  deriving DecidableEq, Repr

/-- The constructor; `none` is a raised `ValueError`. -/
def VectorScope.make? (installationId : Option InstallationId) (repositoryId : RepositoryId)
    (indexVersion : Nat) (accessMode : RepositoryAccessMode) (githubRepositoryId : Option Nat) :
    Option VectorScope :=
  if valid : 1 ≤ indexVersion ∧ sourceValid accessMode installationId githubRepositoryId = true then
    some ⟨installationId, repositoryId, indexVersion, accessMode, githubRepositoryId, valid.1,
      valid.2⟩
  else none

/-- The identifier whose text is `source_scope_id`. -/
def VectorScope.sourceScopeId (scope : VectorScope) : Nat :=
  match scope.accessMode with
  | .publicAccess => scope.githubRepositoryId.getD 0
  | .githubInstallation => scope.installationId.getD 0

/-- `vector_scope_for_repository`. -/
def vectorScopeForRepository (repository : Repository) (indexVersion : Nat) :
    Option VectorScope :=
  VectorScope.make? repository.installationId repository.id indexVersion repository.accessMode
    (if repository.accessMode = .publicAccess then some repository.githubRepositoryId else none)

/-! ## Records -/

structure PointId where
  accessMode : RepositoryAccessMode
  sourceScopeId : Nat
  repositoryId : RepositoryId
  indexVersion : Nat
  filePath : String
  contentHash : String
  chunkType : ChunkType
  ordinal : Nat
  deriving DecidableEq, Repr

structure Payload where
  tenantId : Nat
  installationId : Option InstallationId
  sourceScopeType : RepositoryAccessMode
  sourceScopeId : Nat
  githubRepositoryId : Option Nat
  repositoryId : RepositoryId
  indexVersion : Nat
  commitSha : CommitSha
  filePath : String
  language : String
  chunkType : ChunkType
  symbolName : Option String
  qualifiedSymbolName : Option String
  parentSymbol : Option String
  startLine : Nat
  endLine : Nat
  content : String
  stableChunkHash : String
  preprocessingFingerprint : String
  preprocessingPolicyFingerprint : String
  embeddingModelIdentifier : String
  embeddingModelRevision : String
  embeddingModelFingerprint : String
  deriving DecidableEq, Repr

/-- A point; its identifier and its payload name the same index version. -/
structure VectorRecord where
  pointId : PointId
  vector : Embedding
  payload : Payload
  placed : pointId.repositoryId = payload.repositoryId ∧
    pointId.indexVersion = payload.indexVersion
  deriving DecidableEq, Repr

def deterministicPointId (scope : VectorScope) (prepared : PreparedEmbedding) : PointId where
  accessMode := scope.accessMode
  sourceScopeId := scope.sourceScopeId
  repositoryId := scope.repositoryId
  indexVersion := scope.indexVersion
  filePath := prepared.chunk.filePath
  contentHash := prepared.chunk.contentHash
  chunkType := prepared.chunk.chunkType
  ordinal := prepared.chunk.ordinal

def embeddingModelFingerprint (settings : Settings) (platform : Platform)
    (policyFingerprint : String) : String :=
  platform.sha256Hex <| String.intercalate "\x1f"
    [settings.embeddingModelIdentifier, settings.embeddingModelRevision,
      toString settings.embeddingDimension, "l2_normalized", policyFingerprint]

def buildVectorRecord (settings : Settings) (platform : Platform) (scope : VectorScope)
    (prepared : PreparedEmbedding) (vector : Embedding) (policyFingerprint : String) :
    VectorRecord where
  pointId := deterministicPointId scope prepared
  vector := vector
  payload :=
    { tenantId := scope.sourceScopeId
      installationId := scope.installationId
      sourceScopeType := scope.accessMode
      sourceScopeId := scope.sourceScopeId
      githubRepositoryId := scope.githubRepositoryId
      repositoryId := scope.repositoryId
      indexVersion := scope.indexVersion
      commitSha := prepared.chunk.commitSha
      filePath := prepared.chunk.filePath
      language := prepared.chunk.language
      chunkType := prepared.chunk.chunkType
      symbolName := prepared.chunk.symbolName
      qualifiedSymbolName := prepared.chunk.qualifiedName
      parentSymbol := prepared.chunk.parentQualifiedName
      startLine := prepared.chunk.startLine
      endLine := prepared.chunk.endLine
      content := prepared.chunk.content
      stableChunkHash := prepared.chunk.contentHash
      preprocessingFingerprint := prepared.fingerprint
      preprocessingPolicyFingerprint := policyFingerprint
      embeddingModelIdentifier := settings.embeddingModelIdentifier
      embeddingModelRevision := settings.embeddingModelRevision
      embeddingModelFingerprint := embeddingModelFingerprint settings platform policyFingerprint }
  placed := ⟨rfl, rfl⟩

/-! ## Selection -/

/-- `_payload_matches_scope`. -/
def payloadMatchesScope (scope : VectorScope) (payload : Payload) : Bool :=
  match scope.accessMode with
  | .publicAccess =>
      payload.installationId.isNone && payload.sourceScopeType == .publicAccess &&
        payload.sourceScopeId == scope.sourceScopeId &&
        payload.githubRepositoryId == scope.githubRepositoryId
  | .githubInstallation => payload.installationId == scope.installationId

/-- `scope_filter`. -/
def scopeFilter (scope : VectorScope) (record : VectorRecord) : Bool :=
  let payload := record.payload
  (match scope.accessMode with
    | .publicAccess =>
        payload.sourceScopeType == .publicAccess &&
          payload.sourceScopeId == scope.sourceScopeId &&
          payload.githubRepositoryId == scope.githubRepositoryId
    | .githubInstallation => payload.installationId == scope.installationId) &&
    payload.repositoryId == scope.repositoryId && payload.indexVersion == scope.indexVersion

/-- The stored points of one scope. -/
def scopePoints (scope : VectorScope) (points : List VectorRecord) : List VectorRecord :=
  points.filter (scopeFilter scope)

def retrievalFilter (scope : VectorScope) (commitSha : CommitSha)
    (modelFingerprint preprocessingFingerprint : String) (record : VectorRecord) : Bool :=
  scopeFilter scope record && record.payload.commitSha == commitSha &&
    record.payload.embeddingModelFingerprint == modelFingerprint &&
    record.payload.preprocessingPolicyFingerprint == preprocessingFingerprint

/-! ## Validation -/

def vectorError (code safeMessage : String) : Failure :=
  .indexing { code, safeMessage, retryable := false }

/-- `_validate_record_scope`. -/
def recordInScope (scope : VectorScope) (record : VectorRecord) : Bool :=
  payloadMatchesScope scope record.payload &&
    record.payload.repositoryId == scope.repositoryId &&
    record.payload.indexVersion == scope.indexVersion

/-- The dimension, and a norm within 1e-4 of one, compared by squares. -/
def validVector (settings : Settings) (vector : Embedding) : Bool :=
  let square := (vector.map fun component => component * component).sum
  vector.length == settings.embeddingDimension &&
    decide ((9999 / 10000) * (9999 / 10000) ≤ square) &&
    decide (square ≤ (10000 / 9999) * (10000 / 9999))

def validateRecord (settings : Settings) (scope : VectorScope) (record : VectorRecord) :
    Except Failure Unit :=
  if !recordInScope scope record then
    .error (vectorError "vector_scope_mismatch"
      "A vector record did not match its trusted repository scope")
  else if !validVector settings record.vector then
    .error (vectorError "invalid_vector" "An embedding failed vector validation")
  else .ok ()

/-- The first record that `upsert` rejects decides the error. -/
def validateRecords (settings : Settings) (scope : VectorScope) (records : List VectorRecord) :
    Except Failure Unit :=
  records.forM (validateRecord settings scope)

/-! ## Calls -/

/-- How the provider treats one call. An interrupted call raises after its
first batches took effect. -/
inductive Delivery where
  | answered
  | refused (failure : Failure)
  | interrupted (batches : Nat) (failure : Failure)
  deriving DecidableEq, Repr

/-- Replace the point of the same identifier, or add it. -/
def putPoint (points : List VectorRecord) (record : VectorRecord) : List VectorRecord :=
  deleteWhere (·.pointId == record.pointId) points ++ [record]

def putPoints (points records : List VectorRecord) : List VectorRecord :=
  records.foldl putPoint points

def upsert (settings : Settings) (delivery : Delivery) (scope : VectorScope)
    (records points : List VectorRecord) : Except Failure Unit × List VectorRecord :=
  match validateRecords settings scope records with
  | .error failure => (.error failure, points)
  | .ok () =>
      match delivery with
      | .answered => (.ok (), putPoints points records)
      | .refused failure => (.error failure, points)
      | .interrupted batches failure =>
          (.error failure,
            putPoints points (records.take (batches * settings.qdrantUpsertBatchSize)))

def deleteScope (delivery : Delivery) (scope : VectorScope) (points : List VectorRecord) :
    Except Failure Unit × List VectorRecord :=
  match delivery with
  | .answered => (.ok (), deleteWhere (scopeFilter scope) points)
  | .refused failure => (.error failure, points)
  | .interrupted _ failure => (.error failure, deleteWhere (scopeFilter scope) points)

def validateScope (delivery : Delivery) (scope : VectorScope) (expectedCount : Nat)
    (commitSha : CommitSha) (modelFingerprint : String) (points : List VectorRecord) :
    Except Failure Unit :=
  match delivery with
  | .refused failure | .interrupted _ failure => .error failure
  | .answered =>
      let stored := scopePoints scope points
      if stored.length ≠ expectedCount then
        .error (vectorError "vector_count_mismatch"
          "The inactive vector index failed count validation")
      else if stored.all fun record => recordInScope scope record &&
          record.payload.commitSha == commitSha &&
          record.payload.embeddingModelFingerprint == modelFingerprint then
        .ok ()
      else
        .error (vectorError "vector_metadata_mismatch"
          "The inactive vector index failed metadata validation")

/-! ## Reuse -/

/-- The content identity under which an old vector may be reused. -/
structure ReuseKey where
  filePath : String
  chunkType : ChunkType
  contentHash : String
  startLine : Nat
  endLine : Nat
  qualifiedName : Option String
  fingerprint : String
  deriving DecidableEq, Repr

def wantedKey (document : PreparedEmbedding) : ReuseKey where
  filePath := document.chunk.filePath
  chunkType := document.chunk.chunkType
  contentHash := document.chunk.contentHash
  startLine := document.chunk.startLine
  endLine := document.chunk.endLine
  qualifiedName := document.chunk.qualifiedName
  fingerprint := document.fingerprint

def storedKey (payload : Payload) : ReuseKey where
  filePath := payload.filePath
  chunkType := payload.chunkType
  contentHash := payload.stableChunkHash
  startLine := payload.startLine
  endLine := payload.endLine
  qualifiedName := payload.qualifiedSymbolName
  fingerprint := payload.preprocessingFingerprint

/-- A later document with the same key takes the earlier one's place. -/
def wantedItems (prepared : List PreparedEmbedding) : AList fun _ : ReuseKey => String :=
  prepared.foldl (fun wanted document => wanted.insert (wantedKey document) document.itemId) ∅

/-- One scrolled record. -/
def reuseRecord (settings : Settings) (wanted : AList fun _ : ReuseKey => String)
    (result : VectorMap) (record : VectorRecord) : Except Failure VectorMap :=
  match wanted.lookup (storedKey record.payload) with
  | none => .ok result
  | some itemId =>
      if validVector settings record.vector then .ok (result.insert itemId record.vector)
      else .error (vectorError "qdrant_reuse_invalid" "A reusable vector failed validation")

def reusableVectors (settings : Settings) (delivery : Delivery) (scope : VectorScope)
    (prepared : List PreparedEmbedding) (commitSha : CommitSha)
    (modelFingerprint preprocessingFingerprint : String) (points : List VectorRecord) :
    Except Failure VectorMap :=
  match delivery with
  | .refused failure | .interrupted _ failure => .error failure
  | .answered =>
      (points.filter (retrievalFilter scope commitSha modelFingerprint
        preprocessingFingerprint)).foldlM (reuseRecord settings (wantedItems prepared)) ∅

end Codenaut.Vector
