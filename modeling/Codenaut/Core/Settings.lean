import Mathlib.Algebra.GroupWithZero.Nat

/-!
# Settings

The validated settings (`app/core/config.py`) read by the job store, the
worker, the question path and the vector store.
-/

set_option autoImplicit false

namespace Codenaut.Core

structure Settings where
  installationMembershipTtlSeconds : Nat := 28800
  publicRepositoryLimitPerUser : Nat := 20
  publicImportActiveLimitPerUser : Nat := 2
  workerAbandonedAfterSeconds : Nat := 30
  workerMaxAttempts : Nat := 3
  workerRetryBaseSeconds : Nat := 2
  workerRetryMaxSeconds : Nat := 60
  freshnessMaxChangedFiles : Nat := 300
  freshnessMaxChangedBytes : Nat := 64 * 1024 * 1024
  embeddingModelIdentifier : String
  embeddingModelRevision : String
  embeddingDimension : Nat
  embeddingPreprocessingVersion : String := "repolume-embedding-v1"
  embeddingMaxDocumentBytes : Nat := 48 * 1024
  qdrantUpsertBatchSize : Nat := 128
  qdrantMaxAttempts : Nat := 3
  ragRetrievalTopK : Nat := 6
  ragMaxEvidencePerFile : Nat := 3
  ragMaxEvidenceBytes : Nat := 32 * 1024
  ragMaxEvidenceItemBytes : Nat := 12 * 1024
  agentMaxToolCalls : Nat := 4
  agentMaxToolResultBytes : Nat := 32 * 1024
  agentMaxTotalEvidenceBytes : Nat := 64 * 1024
  agentHistoryMaxMessageBytes : Nat := 2048
  agentHistoryMaxPatchBytes : Nat := 8192
  agentHistoryMaxPaths : Nat := 20
  agentCallerResultLimit : Nat := 20
  deriving DecidableEq, Repr

namespace Settings

/-- `timedelta(seconds=…)` on the millisecond clock. -/
def membershipTtl (settings : Settings) : Nat :=
  1000 * settings.installationMembershipTtlSeconds

def abandonedAfter (settings : Settings) : Nat :=
  1000 * settings.workerAbandonedAfterSeconds

/-- `_retry_delay`: exponential backoff with the drawn jitter. -/
def retryDelay (settings : Settings) (attempt jitter : Nat) : Nat :=
  let base := min settings.workerRetryMaxSeconds
    (settings.workerRetryBaseSeconds * 2 ^ (attempt - 1))
  1000 * base + jitter % (base * 500 + 1)

end Settings

/-- The settings that only the question paths hand to their backends. Timeouts
are left to the environment. -/
structure QuestionSettings extends Settings where
  ragRetrievalOverfetch : Nat := 12
  ragRetrievalScoreThreshold : Rat := 1 / 4
  agentHistoryCommitLimit : Nat := 3
  llmPromptVersion : String := "repolume-grounded-v1"
  deriving DecidableEq, Repr

end Codenaut.Core
