import Codenaut.ActiveIndex.Properties
import Codenaut.Agent.ActiveIndexProperties

/-!
# Searchable repositories

When the question path loads an index, in the columns that decide it. The commit
and the vector count of the active build agree with those of its repository at
every reachable state, so they decide nothing.
-/

set_option autoImplicit false

namespace Codenaut.ActiveIndex

open Codenaut.Agent Codenaut.Core Codenaut.Db Codenaut.Db.Database Codenaut.Embeddings
open Codenaut.Indexing Codenaut.Relational Codenaut.Services

/-- The build was embedded as these settings embed a question. -/
structure PresentPolicy (settings : Settings) (platform : Platform)
    (build : RepositoryIndexBuild) : Prop where
  model : build.embeddingModelIdentifier = settings.embeddingModelIdentifier
  revision : build.embeddingModelRevision = settings.embeddingModelRevision
  dimension : build.embeddingDimension = settings.embeddingDimension
  preprocessing : build.preprocessingFingerprint = policyFingerprint settings platform

/-- The status, version and vectors of a repository with an index to load, made
under the present policy. -/
structure Searchable (settings : Settings) (platform : Platform) (db : Database)
    (row : Repository) : Prop where
  status : unloadable row.indexingStatus = false
  version : 1 ≤ row.indexVersion
  vectors : 1 ≤ row.activeVectorCount
  policy : ∃ build ∈ db.builds, build.repositoryId = row.id ∧ build.state = .active ∧
    PresentPolicy settings platform build

theorem loadableBuild_iff {settings : Settings} {platform : Platform} {row : Repository}
    {build : RepositoryIndexBuild} : loadableBuild settings platform row build = true ↔
      (build.repositoryId = row.id ∧ build.indexVersion = row.indexVersion ∧
        build.state = .active) ∧ row.lastIndexedCommitSha = some build.commitSha ∧
      PresentPolicy settings platform build ∧ build.vectorCount = row.activeVectorCount := by
  simp only [loadableBuild, Bool.and_eq_true, beq_iff_eq]
  constructor
  · rintro ⟨⟨⟨⟨⟨⟨⟨⟨place, version⟩, active⟩, commit⟩, model⟩, revision⟩, dimension⟩, policy⟩,
      vectors⟩
    exact ⟨⟨place, version, active⟩, commit.symm, ⟨model, revision, dimension, policy⟩, vectors⟩
  · rintro ⟨⟨place, version, active⟩, commit, policy, vectors⟩
    exact ⟨⟨⟨⟨⟨⟨⟨⟨place, version⟩, active⟩, commit.symm⟩, policy.model⟩, policy.revision⟩,
      policy.dimension⟩, policy.preprocessing⟩, vectors⟩

/-- At every reachable state, whatever the settings are by then. -/
theorem loads_iff_searchable {settings present : Settings} {platform : Platform}
    {journal : Journal} (reachable : Journal.Reachable settings platform journal)
    {row : Repository} (member : row ∈ journal.database.repositories) :
    (loadActiveIndex present platform journal.database row).isSome = true ↔
      Searchable present platform journal.database row := by
  have sound := reachable_sound reachable
  have keys := sound.table.keys
  constructor
  · intro loads
    obtain ⟨index, loaded⟩ := Option.isSome_iff_exists.mp loads
    have found := (loadActiveIndex_iff keys).mp loaded
    obtain ⟨build, located, matched, -⟩ := found.build
    obtain ⟨⟨place, -, active⟩, -, policy, -⟩ := loadableBuild_iff.mp matched
    exact ⟨found.status, found.version, found.vectors, build, (build?_mem located).1, place,
      active, policy⟩
  · intro searchable
    obtain ⟨build, stored, place, active, policy⟩ := searchable.policy
    obtain ⟨described, columns⟩ := (activeBuild_unique reachable member).2 searchable.version
    have same : build = described :=
      (activeBuild_unique reachable member).1 build stored described columns.stored place
        columns.repository active columns.active
    subst same
    have located : journal.database.build? row.id row.indexVersion = some build := by
      rw [← place, ← columns.version]
      exact build?_eq_some keys stored
    have matched : loadableBuild present platform row build = true :=
      loadableBuild_iff.mpr ⟨⟨place, columns.version, active⟩, columns.commit, policy,
        columns.vectors⟩
    have commit : row.lastIndexedCommitSha.isSome = true := by
      rw [columns.commit]
      rfl
    rw [(loadActiveIndex_iff keys).mpr ⟨searchable.status, searchable.version, commit,
      searchable.vectors, build, located, matched, rfl⟩]
    rfl

/-- The question path loads an index of this repository. -/
def LoadsFor (settings : Settings) (platform : Platform) (db : Database)
    (repositoryId : RepositoryId) : Prop :=
  ∃ row ∈ db.repositories, row.id = repositoryId ∧
    (loadActiveIndex settings platform db row).isSome = true

theorem loadsFor_iff_searchable {settings present : Settings} {platform : Platform}
    {journal : Journal} {repositoryId : RepositoryId}
    (reachable : Journal.Reachable settings platform journal) :
    LoadsFor present platform journal.database repositoryId ↔
      ∃ row ∈ journal.database.repositories, row.id = repositoryId ∧
        Searchable present platform journal.database row := by
  refine exists_congr fun row => and_congr_right fun member => and_congr_right fun _ => ?_
  exact loads_iff_searchable reachable member

/-- A load reads no table but the builds, and no column but these. -/
theorem loadActiveIndex_congr {settings : Settings} {platform : Platform} {db stored : Database}
    {row next : Repository} (builds : stored.builds = db.builds) (index : SameIndex row next)
    (status : next.indexingStatus = row.indexingStatus) :
    loadActiveIndex settings platform stored next = loadActiveIndex settings platform db row := by
  have matching : loadableBuild settings platform next = loadableBuild settings platform row := by
    funext build
    simp only [loadableBuild, index.id, index.indexVersion, index.commit, index.vectorCount]
  unfold loadActiveIndex
  rw [builds, matching, status, index.indexVersion, index.commit, index.vectorCount]

end Codenaut.ActiveIndex
