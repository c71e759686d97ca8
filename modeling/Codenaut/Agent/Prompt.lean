import Codenaut.Agent.Models
import Codenaut.Rag.Query

/-!
# Agent prompt

`AgentPromptBuilder` of `app/agent/prompt.py`: what a decision request carries
and how evidence is serialised. The fixed instruction text is left out.
-/

set_option autoImplicit false

namespace Codenaut.Agent

open Codenaut.Embeddings Codenaut.Rag

/-- What the provider is asked to decide on. -/
structure AgentPayload where
  question : String
  completedTools : List AgentToolName
  failedTools : List AgentToolName
  failedToolCodes : List String
  remainingToolCalls : Nat
  evidence : List AgentEvidence
  deriving DecidableEq, Repr

/-- `serialize_evidence`: the keys with the JSON text of their values, in the
order of the dictionary. -/
def serializeEvidence (platform : QuestionPlatform) : AgentEvidence → List (String × String)
  | .code item =>
      [("id", jsonText item.evidenceId),
        ("type", jsonText "code"),
        ("score", platform.scoreText item.score),
        ("file_path", jsonText item.filePath),
        ("language", jsonText item.language),
        ("chunk_type", jsonText item.chunkType),
        ("symbol_name", jsonOptional item.symbolName),
        ("qualified_symbol_name", jsonOptional item.qualifiedSymbolName),
        ("start_line", toString item.startLine),
        ("end_line", toString item.endLine),
        ("content", jsonText item.content)]
  | .commit item =>
      [("id", jsonText item.evidenceId),
        ("type", jsonText "commit"),
        ("commit_sha", jsonText item.commitSha),
        ("message", jsonText item.message),
        ("committed_at", jsonText item.committedAt),
        ("author_login", jsonOptional item.authorLogin),
        ("parent_shas", jsonTexts item.parentShas),
        ("changed_paths", jsonTexts item.changedPaths),
        ("patch_excerpt", jsonOptional item.patchExcerpt)]
  | .caller item =>
      [("id", jsonText item.evidenceId),
        ("type", jsonText "caller"),
        ("target_symbol_name", jsonText item.targetSymbolName),
        ("target_qualified_name", jsonText item.targetQualifiedName),
        ("target_file_path", jsonText item.targetFilePath),
        ("caller_symbol_name", jsonText item.callerSymbolName),
        ("caller_qualified_name", jsonText item.callerQualifiedName),
        ("caller_file_path", jsonText item.callerFilePath),
        ("caller_start_line", toString item.callerStartLine),
        ("caller_end_line", toString item.callerEndLine),
        ("call_line", toString item.callLine),
        ("call_end_line", toString item.callEndLine),
        ("call_expression", jsonText item.callExpression),
        ("resolution_type", jsonText item.resolutionType),
        ("confidence", jsonText item.confidence),
        ("commit_sha", jsonText item.commitSha),
        ("index_version", toString item.indexVersion),
        ("limitation", jsonText item.limitation)]
  | .pullRequest item =>
      [("id", jsonText item.evidenceId),
        ("type", jsonText "pull_request"),
        ("number", toString item.number),
        ("title", jsonText item.title),
        ("state", jsonText item.state),
        ("author_login", jsonOptional item.authorLogin),
        ("merged_at", jsonOptional item.mergedAt),
        ("merge_commit_sha", jsonOptional item.mergeCommitSha),
        ("changed_paths", jsonTexts item.changedPaths),
        ("body_excerpt", jsonOptional item.bodyExcerpt)]

/-- `len(json.dumps([...], ensure_ascii=False, separators=(",", ":")).encode())`. -/
def encodedSize (platform : QuestionPlatform) (result : List AgentEvidence) : Nat :=
  ("[" ++ String.intercalate "," (result.map fun item =>
    jsonObject (serializeEvidence platform item)) ++ "]").utf8ByteSize

end Codenaut.Agent
