import Codenaut.Core.Settings
import Codenaut.Embeddings.Preprocessing

/-!
# Prepared queries

`EmbeddingPreprocessor.prepare_query`, and the platform functions that the
question paths use: Unicode tables, the JSON text of a rounded score, and the
classification `is_unsupported` of question texts, which is left open.
-/

set_option autoImplicit false

namespace Codenaut.Rag

open Codenaut.Core Codenaut.Embeddings Codenaut.Indexing

structure QuestionPlatform extends Platform where
  casefold : String → String
  isDecimal : Char → Bool
  scoreText : Rat → String
  isUnsupported : String → Bool

structure PreparedQuery where
  text : String
  fingerprint : String
  deriving DecidableEq, Repr

def queryText (settings : Settings) (query : String) : String :=
  String.intercalate "\n"
    ["repolume_preprocessing=" ++ settings.embeddingPreprocessingVersion, "content_kind=query",
      "query_content_begin", query, "query_content_end"]

/-- `prepare_query`. -/
def prepareQuery (settings : Settings) (platform : Platform) (query : String) :
    Except Failure PreparedQuery :=
  let text := queryText settings query
  if settings.embeddingMaxDocumentBytes < text.utf8ByteSize then .error documentTooLarge
  else .ok
    { text := text
      fingerprint := platform.sha256Hex (policyFingerprint settings platform ++ "\n" ++ text) }

end Codenaut.Rag
