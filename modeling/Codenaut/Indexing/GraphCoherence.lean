import Codenaut.Indexing.GraphEdges
import Codenaut.Indexing.GraphValidation
import Codenaut.Indexing.ReceiverCalls

/-!
# Coherence of the built graph

Whatever files and symbols are given: the graph refers to given symbols only,
its edges are labelled coherently, and its counters count them.
-/

set_option autoImplicit false

namespace Codenaut.Indexing

open Codenaut.Db Codenaut.Relational Codenaut.Text

/-- The label of an edge with its callee and its confidence. -/
structure EdgeCoherent (scope : GraphScope) (platform : Platform) (symbols : List SymbolRecord)
    (edge : CallEdgeRecord) : Prop where
  caller : ∃ symbol ∈ symbols, edge.callerSymbolId =
    deterministicSymbolId platform scope.repositoryId scope.indexVersion symbol
  callee : ∀ id, edge.calleeSymbolId = some id → ∃ symbol ∈ symbols,
    id = deterministicSymbolId platform scope.repositoryId scope.indexVersion symbol
  present : edge.calleeSymbolId.isSome = true ↔
    isExactKind edge.resolutionType = true ∨ edge.resolutionType = .probableMethod
  high : edge.confidence = .high ↔ isExactKind edge.resolutionType = true
  medium : edge.confidence = .medium ↔ edge.resolutionType = .probableMethod
  low : edge.confidence = .low ↔
    edge.resolutionType = .ambiguous ∨ edge.resolutionType = .unresolved

/-- The graph of the sites of some files, `skipped` of which gave no edge. -/
structure GraphCoherent (scope : GraphScope) (platform : Platform) (sites skipped : Nat)
    (symbols : List SymbolRecord) (graph : CallGraph) : Prop where
  edges : ∀ edge ∈ graph.edges, EdgeCoherent scope platform symbols edge
  exact : graph.exactEdgeCount = graph.edges.countP (isExactKind ·.resolutionType)
  ambiguous : graph.ambiguousEdgeCount = graph.edges.countP (·.resolutionType = .ambiguous)
  unresolved : graph.unresolvedCallCount = graph.edges.countP (·.resolutionType = .unresolved)
  partitioned : graph.exactEdgeCount + graph.edges.countP (·.resolutionType = .probableMethod) +
    graph.ambiguousEdgeCount + graph.unresolvedCallCount = graph.edges.length
  counted : graph.callSiteCount = graph.edges.length
  complete : graph.edges.length + skipped = sites
  warnings : graph.warningCount = graph.ambiguousEdgeCount + skipped

section Graphs

variable {platform : Platform} {unicode : UnicodeTables} {scope : GraphScope}
  {parsedFiles : List ParsedFile} {symbols : List SymbolRecord}

theorem edgeCoherent_record {site : ParsedCallSite} {caller : SymbolRecord}
    {resolution : Resolution} (known : caller ∈ symbols) (coherent : Coherent symbols resolution) :
    EdgeCoherent scope platform symbols (edgeRecord platform scope site caller resolution) where
  caller := ⟨caller, known, rfl⟩
  callee := by
    intro id same
    obtain ⟨callee, resolved, rfl⟩ := Option.map_eq_some_iff.mp same
    exact ⟨callee, coherent.known callee resolved, rfl⟩
  present := by simpa [edgeRecord] using coherent.present
  high := coherent.high
  medium := coherent.medium
  low := coherent.low

theorem edgeCoherent_siteEdge {site : ParsedCallSite} {edge : CallEdgeRecord}
    (drawn : siteEdge platform unicode scope parsedFiles symbols site = some edge) :
    EdgeCoherent scope platform symbols edge := by
  obtain ⟨caller, parsed, found, -, rfl⟩ := siteEdge_some.mp drawn
  have listed : caller ∈ withQualifiedName symbols site.callerQualifiedName := by
    rw [one_mem found]
    exact .head _
  exact edgeCoherent_record (withQualifiedName_subset _ listed) (coherent_resolve _)

/-- A kind is exact, probable, ambiguous or unresolved, and only one of these. -/
theorem kind_counted (kind : ResolutionType) :
    (if isExactKind kind = true then 1 else 0) +
        (if decide (kind = .probableMethod) = true then 1 else 0) +
        (if decide (kind = .ambiguous) = true then 1 else 0) +
        (if decide (kind = .unresolved) = true then 1 else 0) = 1 := by
  cases kind <;> rfl

theorem kinds_partition (edges : List CallEdgeRecord) :
    edges.countP (isExactKind ·.resolutionType) +
        edges.countP (·.resolutionType = .probableMethod) +
        edges.countP (·.resolutionType = .ambiguous) +
        edges.countP (·.resolutionType = .unresolved) = edges.length := by
  induction edges with
  | nil => rfl
  | cons edge edges ih =>
      have once := kind_counted edge.resolutionType
      simp only [List.countP_cons, List.length_cons]
      omega

/-- The graph is coherent, for every list of files and every list of symbols. -/
theorem graph_coherent (maxTotalCallSites : Nat) {graph : CallGraph}
    (built : buildCallGraph platform unicode maxTotalCallSites scope parsedFiles symbols =
      .ok graph) :
    GraphCoherent scope platform (parsedFiles.flatMap (·.callSites)).length
      ((parsedFiles.flatMap (·.callSites)).countP fun site =>
        (siteEdge platform unicode scope parsedFiles symbols site).isNone) symbols graph := by
  have counted := buildCallGraph_counted built
  have drawn := buildCallGraph_graphOf built
  have edges : ∀ edge ∈ graph.edges, EdgeCoherent scope platform symbols edge := by
    intro edge member
    rw [drawn.edges] at member
    obtain ⟨site, -, given⟩ := List.mem_filterMap.mp (mem_sortOn.mp member)
    exact edgeCoherent_siteEdge given
  have exact : graph.exactEdgeCount = graph.edges.countP (isExactKind ·.resolutionType) := by
    rw [counted.exact]
    apply List.countP_congr
    intro edge member
    have coherent := edges edge member
    unfold isExactRecord
    rw [Bool.and_eq_true, coherent.present, decide_eq_true_eq]
    cases edge.resolutionType <;> simp [isExactKind]
  refine ⟨edges, exact, counted.ambiguous, counted.unresolved, ?_, counted.sites, ?_,
    drawn.warnings⟩
  · rw [exact, counted.ambiguous, counted.unresolved]
    exact kinds_partition graph.edges
  · have sites := @List.length_eq_countP_add_countP ParsedCallSite
      (fun site => (siteEdge platform unicode scope parsedFiles symbols site).isSome)
      (parsedFiles.flatMap (·.callSites))
    rw [drawn.edges, sortRecords, sortOn_length, List.length_filterMap_eq_countP, sites]
    congr 1
    apply List.countP_congr
    intro site member
    cases siteEdge platform unicode scope parsedFiles symbols site <;> simp

end Graphs

open ReceiverSamples in
theorem methodCall_graph_coherent : ∃ graph, graphOf [methods] = .ok graph ∧
    GraphCoherent scope platform 1 0 (recordsOf limits platform [methods]) graph := by
  have counted : (graphOf [methods]).isOk = true := by decide +kernel
  have sites : (callSitesOf limits platform [methods]).length = 1 := by decide +kernel
  have drawn : (callSitesOf limits platform [methods]).countP (fun site =>
      (siteEdge platform unicode scope (parsedFilesOf limits platform [methods])
        (recordsOf limits platform [methods]) site).isNone) = 0 := by decide +kernel
  cases built : graphOf [methods] with
  | error failure =>
      rw [built] at counted
      cases counted
  | ok graph =>
      refine ⟨graph, rfl, ?_⟩
      have coherent := graph_coherent limits.maxTotalCallSites built
      unfold callSitesOf at sites drawn
      rwa [sites, drawn] at coherent

end Codenaut.Indexing
