/-!
# Enumerations stored in the database

The string enumerations of `app/db/models/enums.py` that the indexing pipeline
and its callers read or write.
-/

set_option autoImplicit false

namespace Codenaut.Db

inductive RepositoryAccessMode where
  | publicAccess
  | githubInstallation
  deriving DecidableEq, Repr

/-- The persisted text of an access mode, also used as a vector payload value. -/
def RepositoryAccessMode.value : RepositoryAccessMode → String
  | .publicAccess => "public"
  | .githubInstallation => "github_installation"

inductive GitHubAccountType where
  | user
  | organization
  deriving DecidableEq, Repr

inductive InstallationStatus where
  | active
  | suspended
  | deleted
  deriving DecidableEq, Repr

inductive RepositorySelection where
  | all
  | selected
  deriving DecidableEq, Repr

inductive InstallationMemberRole where
  | owner
  | member
  deriving DecidableEq, Repr

inductive RepositoryIndexingStatus where
  | notIndexed
  | queued
  | cloning
  | discovering
  | parsing
  | embedding
  | buildingGraph
  | finalizing
  | complete
  | failed
  | deleting
  | accessRevoked
  deriving DecidableEq, Repr

inductive IndexingJobType where
  | initialIndex
  | manualReindex
  | incrementalReindex
  | fullRebuild
  | deleteRepository
  deriving DecidableEq, Repr

inductive IndexingJobStatus where
  | queued
  | running
  | retrying
  | complete
  | failed
  | cancelled
  deriving DecidableEq, Repr

/-- Statuses that no job leaves. -/
def IndexingJobStatus.terminal : IndexingJobStatus → Bool
  | .complete | .failed | .cancelled => true
  | .queued | .running | .retrying => false

inductive IndexBuildState where
  | building
  | ready
  | active
  | failed
  | superseded
  deriving DecidableEq, Repr

inductive IndexCleanupStatus where
  | notRequired
  | pending
  | complete
  deriving DecidableEq, Repr

inductive Confidence where
  | high
  | medium
  | low
  deriving DecidableEq, Repr

def Confidence.value : Confidence → String
  | .high => "high"
  | .medium => "medium"
  | .low => "low"

inductive SymbolType where
  | function
  | asyncFunction
  | classType
  | method
  | moduleType
  deriving DecidableEq, Repr

inductive ResolutionType where
  | exactSameFile
  | exactDirectImport
  | qualifiedModule
  | probableMethod
  | ambiguous
  | unresolved
  deriving DecidableEq, Repr

def ResolutionType.value : ResolutionType → String
  | .exactSameFile => "exact_same_file"
  | .exactDirectImport => "exact_direct_import"
  | .qualifiedModule => "qualified_module"
  | .probableMethod => "probable_method"
  | .ambiguous => "ambiguous"
  | .unresolved => "unresolved"

inductive WebhookDeliveryStatus where
  | received
  | queued
  | processing
  | processed
  | completed
  | stale
  | superseded
  | unauthorized
  | retryable
  | ignored
  | failed
  deriving DecidableEq, Repr

/-- Statuses of a delivery that waits for nothing any more. -/
def WebhookDeliveryStatus.terminal : WebhookDeliveryStatus → Bool
  | .processed | .completed | .stale | .superseded | .unauthorized | .ignored | .failed => true
  | .received | .queued | .processing | .retryable => false

inductive IndexingMode where
  | incremental
  | full
  deriving DecidableEq, Repr

end Codenaut.Db
