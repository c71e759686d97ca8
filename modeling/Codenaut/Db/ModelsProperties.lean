import Codenaut.Db.Models

/-!
# Laws of the build and graph tables

A build is read by its repository and version, and the graph of a version by
filtering. The laws say which versions a statement reaches.
-/

set_option autoImplicit false

namespace Codenaut.Db

open Codenaut.Relational

namespace Database

/-! ## Builds -/

/-- The key of `uq_repository_index_builds_repository_version`. -/
def buildKey (build : RepositoryIndexBuild) : RepositoryId × Nat :=
  (build.repositoryId, build.indexVersion)

theorem build?_mem {db : Database} {repositoryId : RepositoryId} {version : Nat}
    {build : RepositoryIndexBuild} (found : db.build? repositoryId version = some build) :
    build ∈ db.builds ∧ build.repositoryId = repositoryId ∧ build.indexVersion = version := by
  refine ⟨List.mem_of_find?_eq_some found, ?_⟩
  simpa using List.find?_some found

theorem build?_eq_some {db : Database} (unique : UniqueKey buildKey db.builds)
    {build : RepositoryIndexBuild} (member : build ∈ db.builds) :
    db.build? build.repositoryId build.indexVersion = some build := by
  refine find?_eq_some_of_unique unique member (by simp) fun other matched => ?_
  simpa [buildKey] using matched

/-- An update that keeps the key acts on the row read by that key. -/
theorem build?_updateBuilds (db : Database) (guard : RepositoryIndexBuild → Bool)
    {change : RepositoryIndexBuild → RepositoryIndexBuild}
    (preserved : ∀ build, buildKey (change build) = buildKey build)
    (repositoryId : RepositoryId) (version : Nat) :
    (db.updateBuilds guard change).build? repositoryId version =
      (db.build? repositoryId version).map fun build =>
        if guard build then change build else build := by
  simp only [build?, updateBuilds, updateWhere, List.find?_map]
  congr 2
  funext build
  have same : (change build).repositoryId = build.repositoryId ∧
      (change build).indexVersion = build.indexVersion := by
    simpa [buildKey] using preserved build
  by_cases matched : guard build <;> simp [matched, same]

/-! ## Graph rows -/

@[simp] theorem symbolsAt_deleteSymbols_self (db : Database) (repositoryId : RepositoryId)
    (version : Nat) :
    (db.deleteSymbols repositoryId version).symbolsAt repositoryId version = [] := by
  simp [symbolsAt, deleteSymbols, deleteWhere, List.filter_filter]

theorem symbolsAt_deleteSymbols (db : Database) {repositoryId other : RepositoryId}
    {version otherVersion : Nat} (elsewhere : other ≠ repositoryId ∨ otherVersion ≠ version) :
    (db.deleteSymbols repositoryId version).symbolsAt other otherVersion =
      db.symbolsAt other otherVersion := by
  simp only [symbolsAt, deleteSymbols, deleteWhere, List.filter_filter]
  apply List.filter_congr
  intro row _
  rcases elsewhere with different | different <;> grind

theorem edgesAt_deleteSymbols (db : Database) {repositoryId other : RepositoryId}
    {version otherVersion : Nat} (elsewhere : other ≠ repositoryId ∨ otherVersion ≠ version) :
    (db.deleteSymbols repositoryId version).edgesAt other otherVersion =
      db.edgesAt other otherVersion := by
  simp only [edgesAt, deleteSymbols, deleteWhere, List.filter_filter]
  apply List.filter_congr
  intro edge _
  rw [Bool.and_eq_left_iff_imp]
  intro here
  simp only [Bool.and_eq_true, beq_iff_eq] at here
  simp only [Bool.not_eq_true', List.any_eq_false, symbolsAt, List.mem_filter]
  intro symbol member
  grind

/-- Every edge belongs to the version of a stored caller symbol. -/
def EdgesOwned (db : Database) : Prop :=
  ∀ edge ∈ db.callEdges, ∃ symbol ∈ db.symbolDefinitions, symbol.id = edge.callerSymbolId ∧
    symbol.repositoryId = edge.repositoryId ∧ symbol.indexVersion = edge.indexVersion

/-- The cascade leaves no edge of the deleted version. -/
theorem edgesAt_deleteSymbols_self {db : Database} (owned : db.EdgesOwned)
    (repositoryId : RepositoryId) (version : Nat) :
    (db.deleteSymbols repositoryId version).edgesAt repositoryId version = [] := by
  simp only [edgesAt, deleteSymbols, deleteWhere, List.filter_filter, List.filter_eq_nil_iff]
  intro edge member
  obtain ⟨symbol, symbolMember, caller, repository, index⟩ := owned edge member
  simp only [Bool.and_eq_true, Bool.not_eq_true', List.any_eq_false, not_and]
  intro here kept
  have there := kept symbol
  simp only [symbolsAt, List.mem_filter] at there
  grind

theorem EdgesOwned.deleteSymbols {db : Database} (owned : db.EdgesOwned)
    (repositoryId : RepositoryId) (version : Nat) :
    (db.deleteSymbols repositoryId version).EdgesOwned := by
  intro edge member
  simp only [Database.deleteSymbols, mem_deleteWhere, List.any_eq_false] at member ⊢
  obtain ⟨stored, kept⟩ := member
  obtain ⟨symbol, symbolMember, caller, repository, index⟩ := owned edge stored
  refine ⟨symbol, ⟨symbolMember, ?_⟩, caller, repository, index⟩
  have there := kept symbol
  simp only [symbolsAt, List.mem_filter] at there
  grind

end Database

end Codenaut.Db
