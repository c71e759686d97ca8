import Codenaut.Services.Consistency
import Codenaut.Versioning.Slots

/-!
# The index of a repository as staged versions

A repository row and its builds, symbols and call edges read as one versioned
store, with the discipline that builds follow.
-/

set_option autoImplicit false

namespace Codenaut.ActiveIndex

open Codenaut.Db Codenaut.Db.Database Codenaut.Indexing Codenaut.Services Codenaut.Versioning

/-- What is stored under one index version, beside what `prepare_build` stored. -/
structure StoredGraph where
  symbols : List SymbolDefinition
  edges : List CallEdge
  preparation : Option Preparation

/-- The columns of a repository that describe its active index. -/
structure IndexLabel where
  commit : Option CommitSha
  vectorCount : Nat

def buildPhase (build : RepositoryIndexBuild) : Phase :=
  match build.state with
  | .building => .building
  | .ready => .ready
  | .active => .active
  | .failed | .superseded => .retired

/-- The edges of a version that `validate_graph` recomputes a build from. -/
def recomputedEdges (platform : Platform) (build : RepositoryIndexBuild)
    (edges : List CallEdge) : List CallEdge :=
  orderEdges platform (edges.filter (·.commitSha == build.commitSha))

/-- The stored graph is the last prepared one, carries the build's commit, and
matches the build once that is marked validated. -/
structure GraphSound (platform : Platform) (build : RepositoryIndexBuild) (graph : StoredGraph) :
    Prop where
  prepared : ∃ preparation, graph.preparation = some preparation ∧
    graph.symbols = preparation.symbols ∧ graph.edges = preparation.edges
  stamped : ∀ edge ∈ graph.edges, edge.commitSha = build.commitSha
  validated : build.graphValidated = true →
    graphMatches platform build (recomputedEdges platform build graph.edges) = true

/-- The repository's columns repeat the active build. -/
structure Describes (label : IndexLabel) (build : RepositoryIndexBuild) : Prop where
  commit : label.commit = some build.commitSha
  expected : build.expectedChunkCount = label.vectorCount
  embedded : build.embeddedChunkCount = label.vectorCount
  vectors : build.vectorCount = label.vectorCount
  graph : build.graphValidated = true

def indexDiscipline (platform : Platform) :
    Discipline RepositoryIndexBuild StoredGraph IndexLabel where
  phase := buildPhase
  Sound := GraphSound platform
  Labels := Describes

/-- The versioned store of one repository row. -/
def indexSlots (journal : Journal) (row : Repository) :
    Slots RepositoryIndexBuild StoredGraph IndexLabel where
  version := row.indexVersion
  label := ⟨row.lastIndexedCommitSha, row.activeVectorCount⟩
  record := journal.database.build? row.id
  content := fun version =>
    { symbols := journal.database.symbolsAt row.id version
      edges := journal.database.edgesAt row.id version
      preparation := journal.history.lastPreparation row.id version }

theorem buildPhase_active {build : RepositoryIndexBuild} :
    buildPhase build = .active ↔ build.state = .active := by
  unfold buildPhase
  cases build.state <;> simp

theorem buildPhase_ready {build : RepositoryIndexBuild} :
    buildPhase build = .ready ↔ build.state = .ready := by
  unfold buildPhase
  cases build.state <;> simp

theorem buildPhase_building {build : RepositoryIndexBuild} :
    buildPhase build = .building ↔ build.state = .building := by
  unfold buildPhase
  cases build.state <;> simp

/-- Counts and fingerprint are the only columns that the comparison reads. -/
theorem graphMatches_congr {platform : Platform} {build other : RepositoryIndexBuild}
    {edges : List CallEdge} (sites : other.callSiteCount = build.callSiteCount)
    (exact : other.exactEdgeCount = build.exactEdgeCount)
    (ambiguous : other.ambiguousEdgeCount = build.ambiguousEdgeCount)
    (unresolved : other.unresolvedCallCount = build.unresolvedCallCount)
    (fingerprint : other.graphFingerprint = build.graphFingerprint) :
    graphMatches platform other edges = graphMatches platform build edges := by
  simp [graphMatches, sites, exact, ambiguous, unresolved, fingerprint]

/-- The columns of a build that its graph is checked against. -/
structure SameGraphColumns (build other : RepositoryIndexBuild) : Prop where
  commit : other.commitSha = build.commitSha
  sites : other.callSiteCount = build.callSiteCount
  exact : other.exactEdgeCount = build.exactEdgeCount
  ambiguous : other.ambiguousEdgeCount = build.ambiguousEdgeCount
  unresolved : other.unresolvedCallCount = build.unresolvedCallCount
  fingerprint : other.graphFingerprint = build.graphFingerprint

theorem GraphSound.revised {platform : Platform} {build other : RepositoryIndexBuild}
    {graph : StoredGraph} (sound : GraphSound platform build graph)
    (columns : SameGraphColumns build other)
    (validated : other.graphValidated = true → build.graphValidated = true ∨
      graphMatches platform build (recomputedEdges platform build graph.edges) = true) :
    GraphSound platform other graph where
  prepared := sound.prepared
  stamped := by
    rw [columns.commit]
    exact sound.stamped
  validated := by
    intro marked
    have sameEdges : recomputedEdges platform other graph.edges =
        recomputedEdges platform build graph.edges := by
      simp [recomputedEdges, columns.commit]
    rw [sameEdges, graphMatches_congr columns.sites columns.exact columns.ambiguous
      columns.unresolved columns.fingerprint]
    rcases validated marked with before | matching
    · exact sound.validated before
    · exact matching

end Codenaut.ActiveIndex
