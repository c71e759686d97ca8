import Codenaut.Indexing.PythonParser

/-!
# Recorded call sites

The nodes that the parser visits in search of calls, and the sites that a
parsed file records: those of its visited calls, or none at all.
-/

set_option autoImplicit false

namespace Codenaut.Indexing

open Codenaut.Db Codenaut.Relational Codenaut.Text

/-- The nodes that the loop of `_extract_call_sites` pops, in turn. -/
def visited : List Node → List Node
  | [] => []
  | node :: pending => node :: visited (node.namedChildren ++ pending)
termination_by nodes => sizeOf nodes
decreasing_by
  have := node.sizeOf_namedChildren
  have := sizeOf_append_le node.namedChildren pending
  simp only [List.cons.sizeOf_spec]
  omega

def viewedSite : SiteView → Option ParsedCallSite
  | .site site => some site
  | _ => none

/-- The sites of the nodes, as far as they are recorded. -/
def sitesOf (parser : PythonStaticParser) (file : SourceFile) (symbols : List ParsedSymbol)
    (nodes : List Node) : List ParsedCallSite :=
  nodes.filterMap fun node => viewedSite (siteOf parser file symbols node)

section Sites

variable {parser : PythonStaticParser} {platform : Platform} {file : SourceFile}
  {symbols : List ParsedSymbol}

theorem sitesOf_cons (node : Node) (rest : List Node) :
    sitesOf parser file symbols (node :: rest) =
      (viewedSite (siteOf parser file symbols node)).toList ++
        sitesOf parser file symbols rest := by
  unfold sitesOf
  rw [List.filterMap_cons]
  cases viewedSite (siteOf parser file symbols node) with
  | none => rfl
  | some site => rfl

theorem collectCallSites_some {result sites : List ParsedCallSite} {warnings later : List String}
    {nodes : List Node} (collected : collectCallSites parser file symbols result warnings nodes =
      some (sites, later)) : sites = result ++ sitesOf parser file symbols (visited nodes) := by
  induction result, warnings, nodes using collectCallSites.induct parser file symbols with
  | case1 result warnings =>
      rw [collectCallSites] at collected
      cases collected
      simp [visited, sitesOf]
  | case2 result warnings node pending next full =>
      rw [collectCallSites] at collected
      simp only [next] at full
      rw [if_pos full] at collected
      cases collected
  | case3 result warnings node pending next room ih =>
      rw [collectCallSites] at collected
      simp only [next] at room ih
      rw [if_neg room] at collected
      rw [ih collected, visited]
      cases view : siteOf parser file symbols node with
      | none => simp [sitesOf, viewedSite, view]
      | site site => simp [sitesOf, viewedSite, view]
      | tooLarge => simp [sitesOf, viewedSite, view]

/-- A file records the sites of its visited calls, unless they are too many. -/
theorem extractCallSites_perm (root : Node) :
    (extractCallSites parser file symbols root).1 = [] ∨
      (extractCallSites parser file symbols root).1.Perm
        (sitesOf parser file symbols (visited [root])) := by
  unfold extractCallSites
  split
  · exact .inl rfl
  case h_2 result warnings collected =>
    have gathered := collectCallSites_some collected
    rw [List.nil_append] at gathered
    rw [← gathered]
    exact .inr (sortOn_perm _ _)

/-- The symbols that call sites are attributed to. -/
def walkedSymbols (parser : PythonStaticParser) (platform : Platform) (file : SourceFile)
    (root : Node) : List ParsedSymbol :=
  walkDefinitions parser platform file [] [] root.namedChildren

theorem parseTree_callSites (root : Node) :
    (parseTree parser platform file root).callSites = [] ∨
      (parseTree parser platform file root).callSites.Perm
        (sitesOf parser file (walkedSymbols parser platform file root) (visited [root])) := by
  unfold parseTree
  dsimp only
  split
  · exact .inl rfl
  · exact extractCallSites_perm root

theorem mem_sitesOf {nodes : List Node} {site : ParsedCallSite} :
    site ∈ sitesOf parser file symbols nodes ↔
      ∃ node ∈ nodes, siteOf parser file symbols node = .site site := by
  simp only [sitesOf, List.mem_filterMap]
  apply exists_congr
  intro node
  cases siteOf parser file symbols node <;> simp [viewedSite]

theorem mem_callSites {root : Node} {site : ParsedCallSite}
    (recorded : site ∈ (parseTree parser platform file root).callSites) :
    ∃ node ∈ visited [root],
      siteOf parser file (walkedSymbols parser platform file root) node = .site site := by
  rcases @parseTree_callSites parser platform file root with none | perm
  · rw [none] at recorded
    cases recorded
  · exact mem_sitesOf.mp (perm.mem_iff.mp recorded)

theorem parseTree_filePath (root : Node) :
    (parseTree parser platform file root).filePath = file.filePath := by
  unfold parseTree
  dsimp only
  split
  · rfl
  · rfl

/-- What a recorded site says of its node and its caller. -/
structure SiteOf (parser : PythonStaticParser) (file : SourceFile) (symbols : List ParsedSymbol)
    (node : Node) (site : ParsedCallSite) : Prop where
  call : node.type = "call"
  function : ∃ function, node.childByFieldName "function" = some function ∧
    site.expression = nodeText function file.source
  caller : ∃ caller, callerAt symbols (node.info.startPoint.row + 1) = some caller ∧
    site.callerQualifiedName = caller.qualifiedName
  filePath : site.filePath = file.filePath
  moduleName : site.moduleName = file.moduleName
  startLine : site.startLine = node.info.startPoint.row + 1
  endLine : site.endLine = node.info.endPoint.row + 1
  startColumn : site.startColumn = node.info.startPoint.column
  bounded : site.expression.utf8ByteSize ≤ parser.maxCallExpressionBytes

theorem siteOf_site {node : Node} {site : ParsedCallSite}
    (view : siteOf parser file symbols node = .site site) :
    SiteOf parser file symbols node site := by
  unfold siteOf at view
  split at view
  case isTrue call =>
    dsimp only at view
    split at view
    case h_1 function caller isFunction isCaller =>
      split at view
      case isTrue bounded =>
        cases view
        exact ⟨call, ⟨function, isFunction, rfl⟩, ⟨caller, isCaller, rfl⟩, rfl, rfl, rfl, rfl,
          rfl, bounded⟩
      · cases view
    · cases view
  · cases view

theorem callSites_filePath {root : Node} {site : ParsedCallSite}
    (recorded : site ∈ (parseTree parser platform file root).callSites) :
    site.filePath = file.filePath := by
  obtain ⟨node, -, view⟩ := mem_callSites recorded
  exact (siteOf_site view).filePath

end Sites

end Codenaut.Indexing
