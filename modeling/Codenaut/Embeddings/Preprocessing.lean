import Codenaut.Core.Settings
import Codenaut.Indexing.CallGraph

/-!
# Embedding preprocessing

`EmbeddingPreprocessor` (`app/embeddings/preprocessing.py`): the policy
fingerprint, and the text and fingerprint of one chunk.
-/

set_option autoImplicit false

namespace Codenaut.Embeddings

open Codenaut.Core Codenaut.Indexing

/-! ## Canonical JSON -/

/-- `json.dumps` with `ensure_ascii=False` escapes quotes, backslashes and control characters. -/
def escapeChar (char : Char) : List Char :=
  if char = '\x22' then ['\x5c', '\x22']
  else if char = '\x5c' then ['\x5c', '\x5c']
  else if char = '\n' then ['\x5c', 'n']
  else if char = '\r' then ['\x5c', 'r']
  else if char = '\t' then ['\x5c', 't']
  else if char = '\x08' then ['\x5c', 'b']
  else if char = '\x0c' then ['\x5c', 'f']
  else if char.toNat < 32 then ['\x5c', 'u'] ++ hexDigits 4 char.toNat
  else [char]

def jsonText (text : String) : String :=
  "\"" ++ String.ofList (text.toList.flatMap escapeChar) ++ "\""

def jsonOptional (text : Option String) : String :=
  (text.map jsonText).getD "null"

def jsonTexts (texts : List String) : String :=
  "[" ++ String.intercalate "," (texts.map jsonText) ++ "]"

/-- An object whose entries are given in key order, as `sort_keys` writes them. -/
def jsonObject (entries : List (String × String)) : String :=
  "\x7b" ++ String.intercalate "," (entries.map fun (key, value) => jsonText key ++ ":" ++ value) ++
    "\x7d"

/-! ## Chunks -/

/-- A bounded model input. The worker prepares chunks only. -/
structure PreparedEmbedding where
  itemId : String
  text : String
  fingerprint : String
  chunk : ContentChunk
  deriving DecidableEq, Repr

def policyFingerprint (settings : Settings) (platform : Platform) : String :=
  platform.sha256Hex <| jsonObject
    [("dimension", toString settings.embeddingDimension),
      ("max_document_bytes", toString settings.embeddingMaxDocumentBytes),
      ("model_identifier", jsonText settings.embeddingModelIdentifier),
      ("model_revision", jsonText settings.embeddingModelRevision),
      ("preprocessing_version", jsonText settings.embeddingPreprocessingVersion)]

def contentKind (chunk : ContentChunk) : String :=
  if chunk.chunkType = .markdown ∨ chunk.chunkType = .documentation then "documentation"
  else "code"

def chunkMetadata (chunk : ContentChunk) : String :=
  jsonObject
    [("chunk_type", jsonText chunk.chunkType.value),
      ("content_kind", jsonText (contentKind chunk)),
      ("decorators", jsonTexts chunk.decorators),
      ("end_line", toString chunk.endLine),
      ("file_path", jsonText chunk.filePath),
      ("heading_hierarchy", jsonTexts chunk.headingHierarchy),
      ("language", jsonText chunk.language),
      ("parent_symbol", jsonOptional chunk.parentQualifiedName),
      ("qualified_symbol", jsonOptional chunk.qualifiedName),
      ("signature", jsonOptional chunk.signature),
      ("start_line", toString chunk.startLine),
      ("symbol", jsonOptional chunk.symbolName)]

def chunkText (settings : Settings) (chunk : ContentChunk) : String :=
  String.intercalate "\n"
    ["repolume_preprocessing=" ++ settings.embeddingPreprocessingVersion,
      "chunk_metadata=" ++ chunkMetadata chunk, "chunk_content_begin", chunk.content,
      "chunk_content_end"]

/-- `_assert_size`. -/
def documentTooLarge : Failure := .indexing
  { code := "embedding_document_too_large"
    safeMessage := "A repository chunk exceeds the embedding input limit"
    retryable := false }

def prepareChunk (settings : Settings) (platform : Platform) (chunk : ContentChunk) :
    Except Failure PreparedEmbedding :=
  let text := chunkText settings chunk
  if settings.embeddingMaxDocumentBytes < text.utf8ByteSize then .error documentTooLarge
  else .ok
    { itemId := toString chunk.ordinal
      text := text
      fingerprint := platform.sha256Hex (policyFingerprint settings platform ++ "\n" ++ text)
      chunk := chunk }

end Codenaut.Embeddings
