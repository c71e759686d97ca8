import Codenaut.Indexing.GraphOrder
import Codenaut.Indexing.SyntaxTrees

/-!
# Identity of edges

The fields that identify a call site separate every two calls of the files, so
the edges of a graph differ in their identifiers and in their fingerprints.
-/

set_option autoImplicit false

namespace Codenaut.Indexing

open Codenaut.Db Codenaut.Relational Codenaut.Text

/-- The fields of a call site that its fingerprint digests. -/
def siteFields (site : ParsedCallSite) : String × String × String × Nat × Nat × Nat :=
  (site.filePath, site.callerQualifiedName, site.expression, site.startLine, site.endLine,
    site.startColumn)

section Sites

variable {parser : PythonStaticParser} {platform : Platform} {file : SourceFile}
  {symbols : List ParsedSymbol}

theorem siteFields_ne {first second : Node} {site other : ParsedCallSite}
    (apart : CallsApart file.source first second) (siteOf : SiteOf parser file symbols first site)
    (otherOf : SiteOf parser file symbols second other) : siteFields site ≠ siteFields other := by
  intro same
  obtain ⟨function, called, expression⟩ := siteOf.function
  obtain ⟨callee, otherCalled, otherExpression⟩ := otherOf.function
  simp only [siteFields, Prod.mk.injEq] at same
  obtain ⟨-, -, sameExpression, sameLine, -, sameColumn⟩ := same
  rw [expression, otherExpression] at sameExpression
  rw [siteOf.startLine, otherOf.startLine] at sameLine
  rw [siteOf.startColumn, otherOf.startColumn] at sameColumn
  refine apart siteOf.call otherOf.call function callee called otherCalled ?_ sameExpression
  cases startPoint : first.info.startPoint with
  | mk row column =>
      cases otherPoint : second.info.startPoint with
      | mk otherRow otherColumn =>
          rw [startPoint, otherPoint] at sameLine sameColumn
          simp only [Point.mk.injEq]
          exact ⟨Nat.succ.inj sameLine, sameColumn⟩

theorem viewedSite_some {view : SiteView} {site : ParsedCallSite}
    (viewed : viewedSite view = some site) : view = .site site := by
  cases view with
  | none => cases viewed
  | site other =>
      cases viewed
      rfl
  | tooLarge => cases viewed

theorem sitesOf_nodup {root : Node} (wellFormed : WellFormed file.source root) :
    ((sitesOf parser file symbols (visited [root])).map siteFields).Nodup := by
  have apart : (visited [root]).Pairwise (CallsApart file.source) := by
    apply visited_apart
    · intro node member
      rwa [List.mem_singleton.mp member]
    · exact List.pairwise_singleton _ _
  rw [List.Nodup, List.pairwise_map, sitesOf, List.pairwise_filterMap]
  refine apart.imp ?_
  intro first second separate site viewed other otherViewed
  exact siteFields_ne separate (siteOf_site (viewedSite_some viewed))
    (siteOf_site (viewedSite_some otherViewed))

/-- The sites that a file records differ in their fields. -/
theorem parseTree_nodup {root : Node} (wellFormed : WellFormed file.source root) :
    ((parseTree parser platform file root).callSites.map siteFields).Nodup := by
  rcases @parseTree_callSites parser platform file root with none | perm
  · rw [none]
    exact List.nodup_nil
  · rw [(perm.map siteFields).nodup_iff]
    exact sitesOf_nodup wellFormed

end Sites

/-- The sites of files with distinct paths differ in their fields. -/
theorem callSitesOf_nodup {limits : ParserLimits} {platform : Platform}
    {sources : List ParsedSource} (paths : (sources.map (·.file.filePath)).Nodup)
    (wellFormed : ∀ source ∈ sources, WellFormed source.file.source source.root) :
    ((callSitesOf limits platform sources).map siteFields).Nodup := by
  rw [callSitesOf, parsedFilesOf, List.flatMap_map, List.map_flatMap, List.nodup_flatMap]
  constructor
  · intro source member
    exact parseTree_nodup (wellFormed source member)
  · rw [List.Nodup, List.pairwise_map] at paths
    refine paths.imp ?_
    intro source other different fields member otherMember
    obtain ⟨site, recorded, rfl⟩ := List.mem_map.mp member
    obtain ⟨otherSite, otherRecorded, same⟩ := List.mem_map.mp otherMember
    apply different
    have here := callSites_filePath recorded
    have there := callSites_filePath otherRecorded
    simp only [siteFields, Prod.mk.injEq] at same
    exact here.symm.trans (same.1.symm.trans there)

/-- On the given sites and edges the digests collide for no two field tuples. -/
structure DigestsSeparate (platform : Platform) (sites : List ParsedCallSite)
    (edges : List CallEdgeRecord) : Prop where
  fingerprints : ∀ first ∈ sites, ∀ second ∈ sites,
    siteFingerprint platform first = siteFingerprint platform second →
      siteFields first = siteFields second
  identifiers : ∀ first ∈ edges, ∀ second ∈ edges, first.id = second.id →
    first.callerSymbolId = second.callerSymbolId ∧
      first.callSiteFingerprint = second.callSiteFingerprint

theorem siteEdge_fingerprint {platform : Platform} {unicode : UnicodeTables} {scope : GraphScope}
    {parsedFiles : List ParsedFile} {symbols : List SymbolRecord} {site : ParsedCallSite}
    {edge : CallEdgeRecord}
    (drawn : siteEdge platform unicode scope parsedFiles symbols site = some edge) :
    edge.callSiteFingerprint = siteFingerprint platform site := by
  obtain ⟨caller, parsed, -, -, rfl⟩ := siteEdge_some.mp drawn
  rfl

/-- Every site that is not skipped gives one edge, and no two edges share their
identifier or their fingerprint. -/
theorem edges_identified {limits : ParserLimits} {platform : Platform} {unicode : UnicodeTables}
    {scope : GraphScope} {sources : List ParsedSource} {symbols : List SymbolRecord}
    {maxTotalCallSites : Nat} {graph : CallGraph}
    (paths : (sources.map (·.file.filePath)).Nodup)
    (wellFormed : ∀ source ∈ sources, WellFormed source.file.source source.root)
    (separate : DigestsSeparate platform (callSitesOf limits platform sources) graph.edges)
    (built : buildCallGraph platform unicode maxTotalCallSites scope
      (parsedFilesOf limits platform sources) symbols = .ok graph) :
    graph.edges.Perm ((callSitesOf limits platform sources).filterMap
        (siteEdge platform unicode scope (parsedFilesOf limits platform sources) symbols)) ∧
      (graph.edges.map (·.id)).Nodup ∧ (graph.edges.map (·.callSiteFingerprint)).Nodup := by
  have perm : graph.edges.Perm ((callSitesOf limits platform sources).filterMap
      (siteEdge platform unicode scope (parsedFilesOf limits platform sources) symbols)) := by
    rw [(buildCallGraph_graphOf built).edges]
    exact sortOn_perm _ _
  have fingerprints : (graph.edges.map (·.callSiteFingerprint)).Nodup := by
    rw [(perm.map _).nodup_iff, List.Nodup, List.pairwise_map, List.pairwise_filterMap]
    have distinct := @callSitesOf_nodup limits platform sources paths wellFormed
    rw [List.Nodup, List.pairwise_map] at distinct
    refine List.Pairwise.imp_of_mem ?_ distinct
    intro first second firstMember secondMember different edge drawn other otherDrawn same
    rw [siteEdge_fingerprint drawn, siteEdge_fingerprint otherDrawn] at same
    exact different (separate.fingerprints first firstMember second secondMember same)
  refine ⟨perm, ?_, fingerprints⟩
  rw [List.Nodup, List.pairwise_map] at fingerprints ⊢
  refine List.Pairwise.imp_of_mem ?_ fingerprints
  intro first second firstMember secondMember different same
  exact different (separate.identifiers first firstMember second secondMember same).2

/-! ## A chained call -/

namespace ChainSamples

open ReceiverSamples

def innerCall : Node :=
  node "call" (some "function") (10, 13) ⟨1, 1⟩ ⟨1, 4⟩ [
    node "identifier" (some "function") (10, 11) ⟨1, 1⟩ ⟨1, 2⟩ [],
    node "argument_list" (some "arguments") (11, 13) ⟨1, 2⟩ ⟨1, 4⟩ []]

def outerCall : Node :=
  node "call" none (10, 15) ⟨1, 1⟩ ⟨1, 6⟩ [
    innerCall,
    node "argument_list" (some "arguments") (13, 15) ⟨1, 4⟩ ⟨1, 6⟩ []]

/-- A function that calls what a call returns. -/
def chained : ParsedSource where
  file := sourceFile "m.py" "def f():\n a()()\n".toList "commit"
  root := node "module" none (0, 16) ⟨0, 0⟩ ⟨2, 0⟩ [
    node "function_definition" none (0, 15) ⟨0, 0⟩ ⟨1, 6⟩ [
      node "identifier" (some "name") (4, 5) ⟨0, 4⟩ ⟨0, 5⟩ [],
      node "block" (some "body") (10, 15) ⟨1, 1⟩ ⟨1, 6⟩ [outerCall]]]

end ChainSamples

open ReceiverSamples ChainSamples in
theorem chained_edges_identified : ∃ graph, graphOf [chained] = .ok graph ∧
    graph.edges.Perm ((callSitesOf limits platform [chained]).filterMap
        (siteEdge platform unicode scope (parsedFilesOf limits platform [chained])
          (recordsOf limits platform [chained]))) ∧
      (graph.edges.map (·.id)).Nodup ∧ (graph.edges.map (·.callSiteFingerprint)).Nodup := by
  have wellFormed : ∀ source ∈ [chained], WellFormed source.file.source source.root := by
    intro source member
    rw [List.mem_singleton.mp member]
    exact wellFormed_of_lawful (by decide +kernel)
  have fingerprints : (callSitesOf limits platform [chained]).all (fun first =>
      (callSitesOf limits platform [chained]).all fun second =>
        siteFingerprint platform first != siteFingerprint platform second ||
          siteFields first == siteFields second) = true := by
    decide +kernel
  have identifiers : ((graphOf [chained]).toOption.any fun graph =>
      graph.edges.all fun first => graph.edges.all fun second =>
        first.id != second.id || first.callerSymbolId == second.callerSymbolId &&
          first.callSiteFingerprint == second.callSiteFingerprint) = true := by
    decide +kernel
  cases built : graphOf [chained] with
  | error failure =>
      rw [built] at identifiers
      cases identifiers
  | ok graph =>
      rw [built] at identifiers
      simp only [Except.toOption, Option.any_some, List.all_eq_true, Bool.or_eq_true,
        Bool.and_eq_true, bne_iff_ne, beq_iff_eq] at identifiers fingerprints
      refine ⟨graph, rfl, edges_identified (by decide) wellFormed ⟨?_, ?_⟩ built⟩
      · intro first firstMember second secondMember same
        exact (fingerprints first firstMember second secondMember).resolve_left (· same)
      · intro first firstMember second secondMember same
        exact (identifiers first firstMember second secondMember).resolve_left (· same)

end Codenaut.Indexing
