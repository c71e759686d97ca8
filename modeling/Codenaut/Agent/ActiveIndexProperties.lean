import Codenaut.ActiveIndex.Invariant
import Codenaut.Agent.ActiveIndex

/-!
# What the active index is loaded from

A load reads the status and the index columns of the repository and the active
build of its version. Nothing else changes what is loaded.
-/

set_option autoImplicit false

namespace Codenaut.Agent

open Codenaut.ActiveIndex Codenaut.Core Codenaut.Db Codenaut.Db.Database Codenaut.Embeddings
open Codenaut.Indexing Codenaut.Relational Codenaut.Services

/-- The row and the build that a load found. -/
structure Loaded (settings : Settings) (platform : Platform) (db : Database) (row : Repository)
    (index : ActiveIndex) : Prop where
  status : unloadable row.indexingStatus = false
  version : 1 ≤ row.indexVersion
  commit : row.lastIndexedCommitSha.isSome = true
  vectors : 1 ≤ row.activeVectorCount
  build : ∃ build, db.build? row.id row.indexVersion = some build ∧
    loadableBuild settings platform row build = true ∧
    index = ⟨build.indexVersion, build.commitSha, build.preprocessingFingerprint⟩

section Load

variable {settings : Settings} {platform : Platform} {db stored : Database} {row next : Repository}
  {index : ActiveIndex}

theorem loadableBuild_key {build : RepositoryIndexBuild}
    (matched : loadableBuild settings platform row build = true) :
    build.repositoryId = row.id ∧ build.indexVersion = row.indexVersion ∧
      build.state = .active := by
  simp only [loadableBuild, Bool.and_eq_true, beq_iff_eq] at matched
  exact ⟨matched.1.1.1.1.1.1.1.1, matched.1.1.1.1.1.1.1.2, matched.1.1.1.1.1.1.2⟩

theorem loadActiveIndex_iff (keys : UniqueKey buildKey db.builds) :
    loadActiveIndex settings platform db row = some index ↔
      Loaded settings platform db row index := by
  constructor
  · intro loads
    unfold loadActiveIndex at loads
    split at loads
    case isTrue => cases loads
    case isFalse served =>
        obtain ⟨build, found, rfl⟩ := Option.map_eq_some_iff.mp loads
        have matched := List.find?_some found
        obtain ⟨place, version, _⟩ := loadableBuild_key matched
        have read := build?_eq_some keys (List.mem_of_find?_eq_some found)
        rw [place, version] at read
        simp only [Bool.or_eq_true, decide_eq_true_eq, not_or, Nat.not_lt, Bool.not_eq_true,
          Option.isNone_eq_false_iff] at served
        obtain ⟨⟨⟨status, positive⟩, commit⟩, vectors⟩ := served
        exact ⟨status, positive, commit, vectors, build, read, matched, rfl⟩
  · intro loaded
    obtain ⟨build, found, matched, rfl⟩ := loaded.build
    have selected : db.builds.find? (loadableBuild settings platform row) = some build := by
      refine find?_eq_some_of_unique keys (build?_mem found).1 matched fun other also => ?_
      obtain ⟨place, version, _⟩ := loadableBuild_key matched
      obtain ⟨otherPlace, otherVersion, _⟩ := loadableBuild_key also
      simp only [buildKey, place, version, otherPlace, otherVersion]
    have served : (unloadable row.indexingStatus || decide (row.indexVersion < 1) ||
        row.lastIndexedCommitSha.isNone || decide (row.activeVectorCount < 1)) = false := by
      have commit := loaded.commit
      simp only [Bool.or_eq_false_iff, decide_eq_false_iff_not, Nat.not_lt]
      exact ⟨⟨⟨loaded.status, loaded.version⟩, by simpa using commit⟩, loaded.vectors⟩
    unfold loadActiveIndex
    rw [served, selected]
    rfl

/-- A load survives whatever keeps the index columns, the active build and a loadable status. -/
theorem Loaded.kept (loaded : Loaded settings platform db row index) (same : SameIndex row next)
    (status : unloadable next.indexingStatus = false)
    (builds : ∀ build, db.build? row.id row.indexVersion = some build → build.state = .active →
      stored.build? row.id row.indexVersion = some build) :
    Loaded settings platform stored next index where
  status := status
  version := by rw [same.indexVersion]; exact loaded.version
  commit := by rw [same.commit]; exact loaded.commit
  vectors := by rw [same.vectorCount]; exact loaded.vectors
  build := by
    obtain ⟨build, found, matched, contents⟩ := loaded.build
    refine ⟨build, ?_, ?_, contents⟩
    · rw [same.id, same.indexVersion]
      exact builds build found (loadableBuild_key matched).2.2
    · simpa only [loadableBuild, same.id, same.indexVersion, same.commit, same.vectorCount]
        using matched

end Load

end Codenaut.Agent
