import Codenaut.Db.Models

/-!
# Questions, evidence and answers

The records of `app/rag/models.py`. Scores are finite.
-/

set_option autoImplicit false

namespace Codenaut.Rag

open Codenaut.Db

inductive Answerability where
  | answered
  | partiallyAnswered
  | insufficientEvidence
  | unsupportedQuestion
  | temporarilyUnavailable
  deriving DecidableEq, Repr

inductive AnswerUncertainty where
  | low
  | medium
  | high
  | notApplicable
  deriving DecidableEq, Repr

structure NormalizedQuestion where
  text : String
  fingerprint : String
  estimatedTokens : Nat
  deriving DecidableEq, Repr

structure Evidence where
  evidenceId : String
  score : Rat
  filePath : String
  language : String
  chunkType : String
  symbolName : Option String
  qualifiedSymbolName : Option String
  startLine : Nat
  endLine : Nat
  stableChunkHash : String
  content : String
  deriving DecidableEq, Repr

structure Citation where
  evidenceId : String
  filePath : String
  startLine : Nat
  endLine : Nat
  symbolName : Option String
  qualifiedSymbolName : Option String
  chunkType : String
  commitSha : CommitSha
  supportingExcerpt : String
  deriving DecidableEq, Repr

structure GroundedAnswer where
  repositoryId : RepositoryId
  answer : String
  answerability : Answerability
  uncertainty : AnswerUncertainty
  citations : List Citation
  commitSha : Option CommitSha
  indexVersion : Nat
  retrievedEvidenceCount : Nat
  deriving DecidableEq, Repr

end Codenaut.Rag
