import Codenaut.Rag.Models
import Codenaut.Rag.Query
import Codenaut.Relational.Sorting
import Codenaut.Vector.Retrieval
import Mathlib.Algebra.Order.Ring.Unbundled.Rat
import Mathlib.Data.String.Basic

/-!
# Evidence selection and citations

`EvidenceSelector` and `CitationValidator` of `app/rag/evidence.py`, with the
drafts of `app/llm/client.py` that the validator reads.
-/

set_option autoImplicit false

namespace Codenaut.Rag

open Codenaut.Core Codenaut.Db Codenaut.Relational Codenaut.Vector

/-! ## Selection -/

def overlapsSelected (candidate : RetrievalHit) (selected : List RetrievalHit) : Bool :=
  selected.any fun item =>
    candidate.filePath == item.filePath && decide (candidate.startLine ≤ item.endLine) &&
      decide (item.startLine ≤ candidate.endLine)

/-- The hit is passed over. The hashes, the counts by file and the bytes so far
are those of the selected hits. -/
def passedOver (settings : Settings) (selected : List RetrievalHit) (hit : RetrievalHit) : Bool :=
  (selected.map (·.stableChunkHash)).contains hit.stableChunkHash ||
    decide (settings.ragMaxEvidenceItemBytes < hit.content.utf8ByteSize) ||
    decide (settings.ragMaxEvidencePerFile ≤ selected.countP (·.filePath == hit.filePath)) ||
    decide (settings.ragMaxEvidenceBytes <
      (selected.map (·.content.utf8ByteSize)).sum + hit.content.utf8ByteSize) ||
    overlapsSelected hit selected

/-- The loop of `select`, which stops at the limit. -/
def selectFrom (settings : Settings) : List RetrievalHit → List RetrievalHit → List RetrievalHit
  | [], selected => selected
  | hit :: rest, selected =>
      if passedOver settings selected hit then selectFrom settings rest selected
      else
        let extended := selected ++ [hit]
        if extended.length == settings.ragRetrievalTopK then extended
        else selectFrom settings rest extended

def hitEvidence (evidenceId : String) (hit : RetrievalHit) : Evidence where
  evidenceId := evidenceId
  score := hit.score
  filePath := hit.filePath
  language := hit.language
  chunkType := hit.chunkType
  symbolName := hit.symbolName
  qualifiedSymbolName := hit.qualifiedSymbolName
  startLine := hit.startLine
  endLine := hit.endLine
  stableChunkHash := hit.stableChunkHash
  content := hit.content

/-- `select`: the best hits first, within the evidence bounds. -/
def select (settings : Settings) (hits : List RetrievalHit) : List Evidence :=
  let ordered := sortOn (fun hit => toLex (-hit.score, toLex (hit.filePath,
    toLex (hit.startLine, toLex (hit.endLine, hit.stableChunkHash))))) hits
  (selectFrom settings ordered []).zipIdx.map fun (hit, index) =>
    hitEvidence ("E" ++ toString (index + 1)) hit

/-! ## Citations -/

inductive DraftAnswerability where
  | answered
  | insufficientEvidence
  | unsupportedQuestion
  deriving DecidableEq, Repr

/-- `Answerability(draft.answerability.value)`. -/
def DraftAnswerability.answerability : DraftAnswerability → Answerability
  | .answered => .answered
  | .insufficientEvidence => .insufficientEvidence
  | .unsupportedQuestion => .unsupportedQuestion

inductive DraftUncertainty where
  | low
  | medium
  | high
  deriving DecidableEq, Repr

/-- `AnswerUncertainty(draft.uncertainty.value)`. -/
def DraftUncertainty.uncertainty : DraftUncertainty → AnswerUncertainty
  | .low => .low
  | .medium => .medium
  | .high => .high

structure GroundedAnswerDraft where
  answer : String
  answerability : DraftAnswerability
  uncertainty : DraftUncertainty
  evidenceIds : List String
  deriving DecidableEq, Repr

/-- `\[(E\d+)\]`: the names in brackets, in order. -/
def inlineIds (isDecimal : Char → Bool) : List Char → List String
  | [] => []
  | '[' :: 'E' :: rest =>
      let digits := rest.takeWhile isDecimal
      if !digits.isEmpty && (rest.drop digits.length).head? == some ']' then
        String.ofList ('E' :: digits) :: inlineIds isDecimal rest
      else inlineIds isDecimal rest
  | _ :: rest => inlineIds isDecimal rest

/-- `{item.evidence_id: item for item in evidence}`: a later item wins. -/
def byId (evidence : List Evidence) (evidenceId : String) : Option Evidence :=
  evidence.reverse.find? (·.evidenceId == evidenceId)

def citation (commitSha : CommitSha) (item : Evidence) : Citation where
  evidenceId := item.evidenceId
  filePath := item.filePath
  startLine := item.startLine
  endLine := item.endLine
  symbolName := item.symbolName
  qualifiedSymbolName := item.qualifiedSymbolName
  chunkType := item.chunkType
  commitSha := commitSha
  supportingExcerpt := item.content

/-- `validate`. -/
def validateCitations (platform : QuestionPlatform) (draft : GroundedAnswerDraft)
    (evidence : List Evidence) (commitSha : CommitSha) : Answerability × List Citation :=
  let uniqueIds := draft.evidenceIds.eraseDups
  let inline := inlineIds platform.isDecimal draft.answer.toList
  if uniqueIds.any (fun id => (byId evidence id).isNone) ||
      inline.any (fun id => (byId evidence id).isNone) ||
      inline.any (fun id => !uniqueIds.contains id) then
    (.insufficientEvidence, [])
  else if draft.answerability = .answered ∧ uniqueIds = [] then (.insufficientEvidence, [])
  else if draft.answerability ≠ .answered then (draft.answerability.answerability, [])
  else (.answered, (uniqueIds.filterMap (byId evidence)).map (citation commitSha))

end Codenaut.Rag
