import Codenaut.Embeddings.Preprocessing

/-!
# Loading the active index

`_load_active_index` of the question path (`app/agent/service.py`).
-/

set_option autoImplicit false

namespace Codenaut.Agent

open Codenaut.Core Codenaut.Db Codenaut.Embeddings Codenaut.Indexing

structure ActiveIndex where
  indexVersion : Nat
  commitSha : CommitSha
  preprocessingFingerprint : String
  deriving DecidableEq, Repr

/-- The statuses under which nothing is loaded. -/
def unloadable (status : RepositoryIndexingStatus) : Bool :=
  status == .notIndexed || status == .accessRevoked || status == .deleting

/-- The query on `repository_index_builds`. -/
def loadableBuild (settings : Settings) (platform : Platform) (repository : Repository)
    (build : RepositoryIndexBuild) : Bool :=
  build.repositoryId == repository.id && build.indexVersion == repository.indexVersion &&
    build.state == .active && some build.commitSha == repository.lastIndexedCommitSha &&
    build.embeddingModelIdentifier == settings.embeddingModelIdentifier &&
    build.embeddingModelRevision == settings.embeddingModelRevision &&
    build.embeddingDimension == settings.embeddingDimension &&
    build.preprocessingFingerprint == policyFingerprint settings platform &&
    build.vectorCount == repository.activeVectorCount

def loadActiveIndex (settings : Settings) (platform : Platform) (db : Database)
    (repository : Repository) : Option ActiveIndex :=
  if unloadable repository.indexingStatus || decide (repository.indexVersion < 1) ||
      repository.lastIndexedCommitSha.isNone || decide (repository.activeVectorCount < 1) then none
  else
    (db.builds.find? (loadableBuild settings platform repository)).map fun build =>
      ⟨build.indexVersion, build.commitSha, build.preprocessingFingerprint⟩

end Codenaut.Agent
