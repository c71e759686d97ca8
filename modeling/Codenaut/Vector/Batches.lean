import Codenaut.Indexing.IdentifierText
import Codenaut.Relational.Pages
import Codenaut.Relational.Upsert
import Codenaut.Vector.Isolation

/-!
# Batches and pages

The calls of the vector store as the provider receives them: points under the
UUID of their joined identity, batches that are retried, and pages of points in
the order of their UUIDs.
-/

set_option autoImplicit false

namespace Codenaut.Vector

open Codenaut.Core Codenaut.Db Codenaut.Embeddings Codenaut.Indexing Codenaut.Relational

/-! ## Identities -/

/-- `POINT_NAMESPACE`. -/
def pointNamespace : Nat := 0xcedab252919754f69603b2f936a85e78

/-- `source_scope_id`: a number on GitHub, or the UUID of an installation. -/
def sourceScopeText (accessMode : RepositoryAccessMode) (source : Nat) : String :=
  match accessMode with
  | .publicAccess => toString source
  | .githubInstallation => uuidText source

/-- The joined identity of a point. -/
def PointId.identity (id : PointId) : String :=
  String.intercalate "\x1f"
    [id.accessMode.value, sourceScopeText id.accessMode id.sourceScopeId,
      uuidText id.repositoryId, toString id.indexVersion, id.filePath, id.contentHash,
      id.chunkType.value, toString id.ordinal]

/-- The identifier under which the provider stores a point. -/
def pointUuid (platform : Platform) (record : VectorRecord) : Nat :=
  platform.uuid5 pointNamespace record.pointId.identity

/-! ## Attempts -/

/-- How one attempt at a call ends. An attempt that fails may have written some
points of its batch, given by their positions. -/
inductive Reply where
  | answered
  | rejected (status : Nat) (written : List Nat)
  | lost (written : List Nat)
  deriving DecidableEq, Repr

/-- Statuses after which a call is tried again. -/
def retryableStatus (status : Nat) : Bool :=
  [408, 425, 429, 500, 502, 503, 504].contains status

def callError (code safeMessage : String) (retryable : Bool) : Failure :=
  .indexing { code, safeMessage, retryable }

/-- `_run` with the attempts that are left, on a call with one effect when it is
answered and another when it fails. Without a further reply the call stays
unanswered. -/
def runCall {State : Type} (code : String) (perform : State → State)
    (failed : List Nat → State → State) :
    Nat → List Reply → State → Except Failure Unit × State × List Reply
  | 0, replies, state => (.error .internal, state, replies)
  | _ + 1, [], state =>
      (.error (callError code "The vector store is temporarily unavailable" true), state, [])
  | _ + 1, .answered :: replies, state => (.ok (), perform state, replies)
  | attempts + 1, .rejected status written :: replies, state =>
      if status = 401 ∨ status = 403 then
        (.error (callError "qdrant_authentication_failed"
          "Qdrant rejected service authentication" false), failed written state, replies)
      else if !retryableStatus status || attempts = 0 then
        (.error (callError code "The vector store operation failed" (retryableStatus status)),
          failed written state, replies)
      else runCall code perform failed attempts replies (failed written state)
  | attempts + 1, .lost written :: replies, state =>
      if attempts = 0 then
        (.error (callError code "The vector store is temporarily unavailable" true),
          failed written state, replies)
      else runCall code perform failed attempts replies (failed written state)

/-! ## Upsert -/

/-- `records[offset : offset + size]` for each offset of `range(0, len(records), size)`. -/
def batches {α : Type} (size : Nat) (records : List α) : List (List α) :=
  (List.range ((records.length + size - 1) / size)).map fun index =>
    (records.drop (index * size)).take size

/-- The points of a batch at the given positions. -/
def written {α : Type} (batch : List α) (positions : List Nat) : List α :=
  positions.filterMap fun position => batch[position]?

def upsertBatch (settings : Settings) (platform : Platform) (batch : List VectorRecord)
    (replies : List Reply) (points : List VectorRecord) :
    Except Failure Unit × List VectorRecord × List Reply :=
  runCall "qdrant_upsert_failed" (putAll (pointUuid platform) · batch)
    (fun positions => (putAll (pointUuid platform) · (written batch positions)))
    settings.qdrantMaxAttempts replies points

/-- The batches in turn, up to the first that fails. -/
def upsertBatches (settings : Settings) (platform : Platform) :
    List (List VectorRecord) → List Reply → List VectorRecord →
      Except Failure Unit × List VectorRecord × List Reply
  | [], replies, points => (.ok (), points, replies)
  | batch :: rest, replies, points =>
      match upsertBatch settings platform batch replies points with
      | (.error failure, points, replies) => (.error failure, points, replies)
      | (.ok (), points, replies) => upsertBatches settings platform rest replies points

/-- `upsert`. -/
def upsertRecords (settings : Settings) (platform : Platform) (scope : VectorScope)
    (records : List VectorRecord) (replies : List Reply) (points : List VectorRecord) :
    Except Failure Unit × List VectorRecord × List Reply :=
  match validateRecords settings scope records with
  | .error failure => (.error failure, points, replies)
  | .ok () =>
      upsertBatches settings platform (batches settings.qdrantUpsertBatchSize records) replies
        points

/-- `delete_scope`. A failed attempt deleted the points of the scope or left them all. -/
def deleteScopePoints (settings : Settings) (scope : VectorScope) (replies : List Reply)
    (points : List VectorRecord) : Except Failure Unit × List VectorRecord × List Reply :=
  runCall "qdrant_cleanup_failed" (deleteWhere (scopeFilter scope))
    (fun positions stored =>
      if positions = [] then stored else deleteWhere (scopeFilter scope) stored)
    settings.qdrantMaxAttempts replies points

/-! ## Validation -/

/-- One page of the selected points, which the provider keeps in the order of
their UUIDs, and the point at which the next page starts. -/
def scroll (platform : Platform) (selects : VectorRecord → Bool) (limit : Nat)
    (offset : Option Nat) (points : List VectorRecord) : List VectorRecord × Option Nat :=
  page (pointUuid platform) limit offset (points.filter selects)

/-- A scanned point names the scope, the commit and the model of the build. -/
def recordCurrent (scope : VectorScope) (commitSha : CommitSha) (modelFingerprint : String)
    (record : VectorRecord) : Bool :=
  recordInScope scope record && record.payload.commitSha == commitSha &&
    record.payload.embeddingModelFingerprint == modelFingerprint

def countMismatch : Failure :=
  vectorError "vector_count_mismatch" "The inactive vector index failed count validation"

def metadataMismatch : Failure :=
  vectorError "vector_metadata_mismatch" "The inactive vector index failed metadata validation"

/-- The scan of `validate_scope` over the pages that are left; the number of points seen. -/
def scanPages (settings : Settings) (platform : Platform) (scope : VectorScope)
    (commitSha : CommitSha) (modelFingerprint : String) (points : List VectorRecord) :
    Nat → Option Nat → Nat → Except Failure Nat
  | 0, _, _ => .error .internal
  | pages + 1, offset, seen =>
      let (records, next) := scroll platform (scopeFilter scope)
        (min settings.qdrantUpsertBatchSize 256) offset points
      if records.all (recordCurrent scope commitSha modelFingerprint) then
        match next with
        | none => .ok (seen + records.length)
        | some start =>
            scanPages settings platform scope commitSha modelFingerprint points pages (some start)
              (seen + records.length)
      else .error metadataMismatch

/-- `validate_scope`. A scan of `n` points has at most `n + 1` pages. -/
def validateScopePages (settings : Settings) (platform : Platform) (scope : VectorScope)
    (expectedCount : Nat) (commitSha : CommitSha) (modelFingerprint : String)
    (points : List VectorRecord) : Except Failure Unit :=
  if (scopePoints scope points).length ≠ expectedCount then .error countMismatch
  else
    match scanPages settings platform scope commitSha modelFingerprint points
        (points.length + 1) none 0 with
    | .error failure => .error failure
    | .ok seen => if seen ≠ expectedCount then .error countMismatch else .ok ()

end Codenaut.Vector
