import Codenaut.Embeddings.Preprocessing
import Codenaut.Vector.Batches

/-!
# Embedding requests

The requests that `EmbeddingServiceClient` (`app/embeddings/client.py`) sends for
a list of documents, and the checks that the embedding service
(`embedding_service/app/application.py`, `schemas.py`) makes before it embeds
them. The service is authenticated to and ready, and reads the payload back from
the body.
-/

set_option autoImplicit false

namespace Codenaut.Embeddings

open Codenaut.Core Codenaut.Indexing Codenaut.Vector

/-! ## The client -/

/-- The backend's settings for the client, as they pass their fields. -/
structure ClientSettings extends Settings where
  embeddingBatchSize : Nat := 16
  batchSize : 1 ≤ embeddingBatchSize ∧ embeddingBatchSize ≤ 256 := by decide
  documentBytes : 1024 ≤ embeddingMaxDocumentBytes := by decide

inductive EmbeddingKind where
  | document
  | query
  deriving DecidableEq, Repr

def EmbeddingKind.value : EmbeddingKind → String
  | document => "document"
  | query => "query"

structure EmbeddingDocument where
  id : String
  text : String
  deriving DecidableEq, Repr

structure EmbeddingRequest where
  kind : EmbeddingKind
  documents : List EmbeddingDocument
  deriving DecidableEq, Repr

/-- The lengths that both sides demand of a document. -/
def EmbeddingDocument.measured (document : EmbeddingDocument) : Bool :=
  1 ≤ document.id.length ∧ document.id.length ≤ 128 ∧ 1 ≤ document.text.length

/-- `_invalid_response`. -/
def invalidResponse (category : String) : Failure := .indexing
  { code := category
    safeMessage := "The embedding service returned an invalid response"
    retryable := false }

/-- `_embed_batch` up to the request. -/
def batchRequest (kind : EmbeddingKind) (batch : List PreparedEmbedding) :
    Except Failure EmbeddingRequest :=
  let documents := batch.map fun prepared => ⟨prepared.itemId, prepared.text⟩
  if ¬(batch.map (·.itemId)).Nodup then .error (invalidResponse "duplicate_embedding_request_id")
  else if documents.all (·.measured) then .ok { kind, documents }
  else .error .internal

/-- `embed_documents`: the requests of the batches. -/
def documentRequests (settings : ClientSettings) (documents : List PreparedEmbedding) :
    List EmbeddingRequest :=
  (batches settings.embeddingBatchSize documents).filterMap fun batch =>
    (batchRequest .document batch).toOption

def documentJson (document : EmbeddingDocument) : String :=
  jsonObject [("id", jsonText document.id), ("text", jsonText document.text)]

/-- The body of a request, compact and with the mandatory escapes. -/
def requestBody (request : EmbeddingRequest) : String :=
  jsonObject
    [("kind", jsonText request.kind.value),
      ("documents", "[" ++ String.intercalate "," (request.documents.map documentJson) ++ "]")]

/-! ## The service -/

/-- Settings of the service that passed `validate_model_and_limits`. -/
structure ServiceSettings where
  batchSize : Nat := 16
  maxDocumentsPerRequest : Nat := 32
  maxTextBytesPerDocument : Nat := 48 * 1024
  maxTotalTextBytes : Nat := 1024 * 1024
  maxRequestBytes : Nat := 1200 * 1024
  batch : 1 ≤ batchSize ∧ batchSize ≤ 256 := by decide
  documents : 1 ≤ maxDocumentsPerRequest ∧ maxDocumentsPerRequest ≤ 256 := by decide
  documentBytes : 1024 ≤ maxTextBytesPerDocument := by decide
  totalBytes : 1024 ≤ maxTotalTextBytes := by decide
  requestBytes : 1024 ≤ maxRequestBytes := by decide
  batchInRequest : batchSize ≤ maxDocumentsPerRequest := by decide
  documentInTotal : maxTextBytesPerDocument ≤ maxTotalTextBytes := by decide
  totalInRequest : maxTotalTextBytes ≤ maxRequestBytes := by decide

/-- `_private_error`. -/
structure PrivateError where
  status : Nat
  code : String
  deriving DecidableEq, Repr

/-- `BodyLimitMiddleware`, on the declared length and on what is received. -/
def limitBody (settings : ServiceSettings) (body : String) : Except PrivateError Unit :=
  if body.utf8ByteSize > settings.maxRequestBytes then .error ⟨413, "request_too_large"⟩
  else .ok ()

/-- A character of `^[A-Za-z0-9._:-]+$`. -/
def isIdChar (char : Char) : Bool :=
  char.isAlphanum || ['.', '_', ':', '-'].contains char

/-- `EmbeddingRequest` of the service. -/
def validateRequest (request : EmbeddingRequest) : Except PrivateError Unit :=
  if request.documents ≠ [] ∧
      request.documents.all (fun document =>
        document.measured && document.id.toList.all isIdChar) then .ok ()
  else .error ⟨422, "invalid_request"⟩

/-- `embed` up to the model. -/
def checkRequest (settings : ServiceSettings) (request : EmbeddingRequest) :
    Except PrivateError Unit :=
  let textBytes := request.documents.map (·.text.utf8ByteSize)
  if request.documents.length > settings.maxDocumentsPerRequest then
    .error ⟨413, "too_many_documents"⟩
  else if request.kind = .query ∧ request.documents.length ≠ 1 then
    .error ⟨422, "invalid_query_batch"⟩
  else if ¬(request.documents.map (·.id)).Nodup then .error ⟨422, "duplicate_document_id"⟩
  else if textBytes.any (· > settings.maxTextBytesPerDocument) then
    .error ⟨413, "document_too_large"⟩
  else if textBytes.sum > settings.maxTotalTextBytes then
    .error ⟨413, "request_text_too_large"⟩
  else .ok ()

/-- What the service says of a request before it embeds the documents. -/
def receive (settings : ServiceSettings) (request : EmbeddingRequest) :
    Except PrivateError Unit := do
  limitBody settings (requestBody request)
  validateRequest request
  checkRequest settings request

end Codenaut.Embeddings
