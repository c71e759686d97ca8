import Codenaut.Indexing.CallGraphBuilder

/-!
# Edges of the built graph

A call site gives one edge or is skipped, whatever the other sites give. Every
resolution names a given symbol, with the label and confidence of its kind.
-/

set_option autoImplicit false

namespace Codenaut.Indexing

open Codenaut.Db Codenaut.Relational Codenaut.Text

/-! ## One edge or none for a site -/

/-- The edge of a site, unless it is skipped. -/
def siteEdge (platform : Platform) (unicode : UnicodeTables) (scope : GraphScope)
    (parsedFiles : List ParsedFile) (symbols : List SymbolRecord) (site : ParsedCallSite) :
    Option CallEdgeRecord :=
  match one (withQualifiedName symbols site.callerQualifiedName),
      fileAt parsedFiles site.filePath with
  | some caller, some parsed =>
      some (edgeRecord platform scope site caller
        (resolve unicode symbols site.expression caller parsed))
  | _, _ => none

section Sites

variable {platform : Platform} {unicode : UnicodeTables} {scope : GraphScope}
  {parsedFiles : List ParsedFile} {symbols : List SymbolRecord}

theorem tallySite_edge (tally : GraphTally) (site : ParsedCallSite) :
    (tallySite platform unicode scope parsedFiles symbols tally site).edges =
        tally.edges ++ (siteEdge platform unicode scope parsedFiles symbols site).toList ∧
      (tallySite platform unicode scope parsedFiles symbols tally site).skipped =
        tally.skipped +
          (siteEdge platform unicode scope parsedFiles symbols site).isNone.toNat := by
  unfold tallySite siteEdge
  cases one (withQualifiedName symbols site.callerQualifiedName) with
  | none => simp
  | some caller =>
      cases fileAt parsedFiles site.filePath with
      | none => simp
      | some parsed => simp

theorem foldl_tallySite_edges (sites : List ParsedCallSite) (tally : GraphTally) :
    (sites.foldl (tallySite platform unicode scope parsedFiles symbols) tally).edges =
        tally.edges ++ sites.filterMap (siteEdge platform unicode scope parsedFiles symbols) ∧
      (sites.foldl (tallySite platform unicode scope parsedFiles symbols) tally).skipped =
        tally.skipped + sites.countP fun site =>
          (siteEdge platform unicode scope parsedFiles symbols site).isNone := by
  induction sites generalizing tally with
  | nil => simp
  | cons site sites ih =>
      obtain ⟨edges, skipped⟩ := ih (tallySite platform unicode scope parsedFiles symbols tally site)
      obtain ⟨added, missed⟩ := @tallySite_edge platform unicode scope parsedFiles symbols tally site
      rw [List.foldl_cons, edges, added, skipped, missed, List.countP_cons, List.append_assoc,
        Nat.add_assoc]
      cases drawn : siteEdge platform unicode scope parsedFiles symbols site with
      | none =>
          rw [List.filterMap_cons_none drawn]
          simp [Nat.add_comm]
      | some edge =>
          rw [List.filterMap_cons_some drawn]
          simp

theorem siteEdge_some {site : ParsedCallSite} {edge : CallEdgeRecord} :
    siteEdge platform unicode scope parsedFiles symbols site = some edge ↔
      ∃ caller parsed, one (withQualifiedName symbols site.callerQualifiedName) = some caller ∧
        fileAt parsedFiles site.filePath = some parsed ∧
        edge = edgeRecord platform scope site caller
          (resolve unicode symbols site.expression caller parsed) := by
  unfold siteEdge
  split
  case h_1 caller parsed found located =>
    simp only [Option.some.injEq, found, located]
    constructor
    · rintro rfl
      exact ⟨caller, parsed, rfl, rfl, rfl⟩
    · rintro ⟨_, _, rfl, rfl, same⟩
      exact same.symm
  case h_2 missing =>
    constructor
    · intro impossible
      cases impossible
    · rintro ⟨caller, parsed, found, located, -⟩
      exact (missing caller parsed found located).elim

/-- A graph is the sorted edges of its sites, with the sites that were skipped. -/
structure GraphOf (platform : Platform) (unicode : UnicodeTables) (scope : GraphScope)
    (parsedFiles : List ParsedFile) (symbols : List SymbolRecord) (graph : CallGraph) : Prop where
  edges : graph.edges = sortRecords ((parsedFiles.flatMap (·.callSites)).filterMap
    (siteEdge platform unicode scope parsedFiles symbols))
  warnings : graph.warningCount = graph.ambiguousEdgeCount +
    (parsedFiles.flatMap (·.callSites)).countP fun site =>
      (siteEdge platform unicode scope parsedFiles symbols site).isNone

theorem buildCallGraph_graphOf {maxTotalCallSites : Nat} {graph : CallGraph}
    (built : buildCallGraph platform unicode maxTotalCallSites scope parsedFiles symbols =
      .ok graph) : GraphOf platform unicode scope parsedFiles symbols graph := by
  unfold buildCallGraph at built
  split at built
  · cases built
  · cases built
    obtain ⟨edges, skipped⟩ := @foldl_tallySite_edges platform unicode scope parsedFiles symbols
      (parsedFiles.flatMap (·.callSites)) {}
    constructor
    · simp only [buildTally, edges, List.nil_append]
    · simp only [buildTally, skipped, Nat.zero_add]

end Sites

/-! ## Resolutions -/

/-- `EXACT_SAME_FILE`, `EXACT_DIRECT_IMPORT` and `QUALIFIED_MODULE`. -/
def isExactKind (kind : ResolutionType) : Bool :=
  kind = .exactSameFile ∨ kind = .exactDirectImport ∨ kind = .qualifiedModule

/-- The callee is a given symbol, and callee, label and confidence agree. -/
structure Coherent (symbols : List SymbolRecord) (resolution : Resolution) : Prop where
  known : ∀ callee, resolution.callee = some callee → callee ∈ symbols
  present : resolution.callee.isSome = true ↔
    isExactKind resolution.kind = true ∨ resolution.kind = .probableMethod
  high : resolution.confidence = .high ↔ isExactKind resolution.kind = true
  medium : resolution.confidence = .medium ↔ resolution.kind = .probableMethod
  low : resolution.confidence = .low ↔
    resolution.kind = .ambiguous ∨ resolution.kind = .unresolved

section Resolutions

variable {unicode : UnicodeTables} {symbols : List SymbolRecord} {caller : SymbolRecord}
  {parsed : ParsedFile}

theorem firstUnique_mem {candidates : List String} {found : List SymbolRecord}
    (first : firstUnique symbols candidates = some found) :
    ∃ candidate ∈ candidates, found = withQualifiedName symbols candidate := by
  induction candidates with
  | nil => cases first
  | cons candidate rest ih =>
      unfold firstUnique at first
      split at first
      · obtain ⟨later, member, same⟩ := ih first
        exact ⟨later, .tail _ member, same⟩
      · exact ⟨candidate, .head _, (Option.some.inj first).symm⟩

theorem withQualifiedName_subset (name : String) : withQualifiedName symbols name ⊆ symbols :=
  List.filter_subset_self symbols

theorem firstUnique_subset {candidates : List String} {found : List SymbolRecord}
    (first : firstUnique symbols candidates = some found) : found ⊆ symbols := by
  obtain ⟨candidate, _, rfl⟩ := firstUnique_mem first
  exact withQualifiedName_subset candidate

theorem coherent_ambiguous : Coherent symbols ⟨none, .ambiguous, .low⟩ := by
  constructor <;> simp [isExactKind]

theorem coherent_unresolved : Coherent symbols unresolvedCall := by
  constructor <;> simp [isExactKind, unresolvedCall]

theorem coherent_exactOrAmbiguous {found : List SymbolRecord} {kind : ResolutionType}
    (given : found ⊆ symbols) (exact : isExactKind kind = true) :
    Coherent symbols (exactOrAmbiguous found kind) := by
  unfold exactOrAmbiguous
  split
  case h_1 symbol =>
    have member : symbol ∈ symbols := given (.head _)
    cases kind <;> first
      | exact absurd exact (by decide)
      | (constructor <;> simp [isExactKind, member])
  · exact coherent_unresolved
  · exact coherent_ambiguous

theorem coherent_resolveIdentifier (name : String) :
    Coherent symbols (resolveIdentifier symbols caller parsed name) := by
  unfold resolveIdentifier
  split
  case h_1 found first => exact coherent_exactOrAmbiguous (firstUnique_subset first) rfl
  case h_2 =>
    split
    case h_1 found first => exact coherent_exactOrAmbiguous (firstUnique_subset first) rfl
    case h_2 => exact coherent_unresolved

theorem coherent_resolveAttribute (head : String) (tail : List String) :
    Coherent symbols (resolveAttribute symbols caller parsed head tail) := by
  simp only [resolveAttribute]
  split
  · exact coherent_exactOrAmbiguous (withQualifiedName_subset _) rfl
  · split
    case h_1 found first => exact coherent_exactOrAmbiguous (firstUnique_subset first) rfl
    case h_2 =>
      split
      · split
        · exact coherent_unresolved
        case h_2 symbol methods =>
          have listed : symbol ∈ methodsNamed symbols (tail.getLastD head) := by
            rw [methods]
            exact .head _
          have member : symbol ∈ symbols :=
            List.mem_of_mem_filter (List.mem_of_mem_filter listed)
          constructor <;> simp [isExactKind, member]
        · exact coherent_ambiguous
      · exact coherent_exactOrAmbiguous (withQualifiedName_subset _) rfl

/-- Every exit of the resolver is coherent. -/
theorem coherent_resolve (expression : String) :
    Coherent symbols (resolve unicode symbols expression caller parsed) := by
  unfold resolve
  split
  · exact coherent_resolveIdentifier expression
  · split
    · split
      · exact coherent_resolveAttribute _ _
      · exact coherent_unresolved
    · exact coherent_unresolved

theorem one_mem {found : List SymbolRecord} {symbol : SymbolRecord}
    (single : one found = some symbol) : found = [symbol] := by
  unfold one at single
  split at single
  · cases single
    rfl
  · cases single

end Resolutions

end Codenaut.Indexing
