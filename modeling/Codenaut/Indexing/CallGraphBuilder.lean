import Codenaut.Indexing.CallGraph
import Codenaut.Indexing.ParsedModels
import Codenaut.Relational.Sorting
import Codenaut.Text.Python

/-!
# Call-graph construction

`PythonCallGraphBuilder` (`app/indexing/call_graph.py`): the resolution of a
call site from the names of the parsed files, and the loop over all sites.
-/

set_option autoImplicit false

namespace Codenaut.Indexing

open Codenaut.Db Codenaut.Relational Codenaut.Text

structure CallGraph where
  edges : List CallEdgeRecord
  callSiteCount : Nat
  exactEdgeCount : Nat
  ambiguousEdgeCount : Nat
  unresolvedCallCount : Nat
  warningCount : Nat
  fingerprint : String
  deriving DecidableEq, Repr

structure Resolution where
  callee : Option SymbolRecord
  kind : ResolutionType
  confidence : Confidence
  deriving DecidableEq, Repr

/-- `_EDGE_NAMESPACE`. -/
def edgeNamespace : Nat := 0x14f608ecd9dc4dd8a1827a9cd7b3f5c7

/-! ## Names -/

/-- `by_qualified.get(name, ())`. -/
def withQualifiedName (symbols : List SymbolRecord) (name : String) : List SymbolRecord :=
  symbols.filter (·.qualifiedName = name)

/-- `by_name.get(name, ())`. -/
def withSymbolName (symbols : List SymbolRecord) (name : String) : List SymbolRecord :=
  symbols.filter (·.symbolName = name)

/-- `_one`. -/
def one : List SymbolRecord → Option SymbolRecord
  | [symbol] => some symbol
  | _ => none

/-- `_first_unique`. -/
def firstUnique (symbols : List SymbolRecord) : List String → Option (List SymbolRecord)
  | [] => none
  | candidate :: rest =>
      match withQualifiedName symbols candidate with
      | [] => firstUnique symbols rest
      | found => some found

/-- `_exact_or_ambiguous`. -/
def exactOrAmbiguous (found : List SymbolRecord) (kind : ResolutionType) : Resolution :=
  match found with
  | [symbol] => ⟨some symbol, kind, .high⟩
  | [] => ⟨none, .unresolved, .low⟩
  | _ => ⟨none, .ambiguous, .low⟩

def unresolvedCall : Resolution :=
  ⟨none, .unresolved, .low⟩

/-- The loop of `_local_candidates`. Every turn but the last drops the last
component of `parent`, so the number of its characters bounds the turns. -/
def localCandidatesFrom (moduleName target : String) : Nat → String → List String
  | 0, _ => []
  | turns + 1, parent =>
      if parent ≠ "" ∧ (parent = moduleName ∨ startsWith parent (moduleName ++ ".")) then
        (parent ++ "." ++ target) ::
          if parent = moduleName then []
          else localCandidatesFrom moduleName target turns (rpartitionHead '.' parent)
      else []

/-- `_local_candidates`. -/
def localCandidates (caller : SymbolRecord) (moduleName target : String) : List String :=
  localCandidatesFrom moduleName target (caller.qualifiedName.length + 1) caller.qualifiedName

/-- `".".join(filter(None, parts))`. -/
def dottedName (parts : List String) : String :=
  joinText '.' (parts.filter (· ≠ ""))

/-- `_absolute_module`. -/
def absoluteModule (parsed : ParsedFile) (imported : ParsedImport) : String :=
  if imported.relativeLevel = 0 then imported.module.getD ""
  else
    let package :=
      if pathStem parsed.filePath = "__init__" then parsed.moduleName
      else rpartitionHead '.' parsed.moduleName
    let parts := if package = "" then [] else splitText '.' package
    let ascend := imported.relativeLevel - 1
    -- With `ascend = 0` nothing is dropped; beyond the length all is.
    let kept := parts.take (parts.length - ascend)
    stripDots (joinText '.' (kept ++ splitText '.' (imported.module.getD "")))

/-- A plain `import`, without `from`. -/
def ParsedImport.isPlain (imported : ParsedImport) : Bool :=
  imported.module.isNone && imported.relativeLevel == 0

/-- The name binds `target` and is no wildcard. -/
def ImportAlias.binds (imported : ImportAlias) (target : String) : Bool :=
  imported.name ≠ "*" && (imported.aliasName.filter (· ≠ "")).getD imported.name == target

/-- `_direct_import_candidates`. -/
def directImportCandidates (parsed : ParsedFile) (target : String) : List String :=
  parsed.imports.flatMap fun item =>
    if item.isPlain then []
    else
      (item.names.filter (·.binds target)).map fun imported =>
        dottedName [absoluteModule parsed item, imported.name]

/-- `_qualified_import_candidates`. -/
def qualifiedImportCandidates (parsed : ParsedFile) (head : String) (tail : List String) :
    List String :=
  parsed.imports.flatMap fun item =>
    if item.isPlain then
      item.names.filterMap fun imported =>
        let aliasName := imported.aliasName.filter (· ≠ "")
        let binding := aliasName.getD ((splitText '.' imported.name).headD "")
        if binding = head then
          some (joinText '.' ((if aliasName.isSome then imported.name else head) :: tail))
        else none
    else
      (item.names.filter (·.binds head)).map fun imported =>
        dottedName (absoluteModule parsed item :: imported.name :: tail)

/-! ## Resolution -/

/-- `_resolve_identifier`. -/
def resolveIdentifier (symbols : List SymbolRecord) (caller : SymbolRecord) (parsed : ParsedFile)
    (expression : String) : Resolution :=
  match firstUnique symbols (localCandidates caller parsed.moduleName expression) with
  | some found => exactOrAmbiguous found .exactSameFile
  | none =>
      match firstUnique symbols (directImportCandidates parsed expression) with
      | some found => exactOrAmbiguous found .exactDirectImport
      | none => unresolvedCall

/-- The name that `_resolve_attribute` looks up for a receiver `self` or `cls`. -/
def receiverTarget (caller : SymbolRecord) (member : String) : String :=
  rpartitionHead '.' caller.qualifiedName ++ "." ++ member

/-- The methods of that name, wherever they are. -/
def methodsNamed (symbols : List SymbolRecord) (name : String) : List SymbolRecord :=
  (withSymbolName symbols name).filter (·.symbolType = .method)

/-- `_resolve_attribute`, on the parts `head` and `tail`. -/
def resolveAttribute (symbols : List SymbolRecord) (caller : SymbolRecord) (parsed : ParsedFile)
    (head : String) (tail : List String) : Resolution :=
  let last := tail.getLastD head
  if head = "self" ∨ head = "cls" then
    exactOrAmbiguous (withQualifiedName symbols (receiverTarget caller last)) .exactSameFile
  else
    match firstUnique symbols (qualifiedImportCandidates parsed head tail) with
    | some found => exactOrAmbiguous found .qualifiedModule
    | none =>
        match withQualifiedName symbols
            (parsed.moduleName ++ "." ++ joinText '.' (head :: tail)) with
        | [] =>
            match methodsNamed symbols last with
            | [] => unresolvedCall
            | [symbol] => ⟨some symbol, .probableMethod, .medium⟩
            | _ => ⟨none, .ambiguous, .low⟩
        | found => exactOrAmbiguous found .exactSameFile

/-- `_resolve`. -/
def resolve (unicode : UnicodeTables) (symbols : List SymbolRecord) (expression : String)
    (caller : SymbolRecord) (parsed : ParsedFile) : Resolution :=
  if isIdentifier unicode expression then resolveIdentifier symbols caller parsed expression
  else
    match splitText '.' expression with
    | head :: next :: tail =>
        if (head :: next :: tail).all (isIdentifier unicode) then
          resolveAttribute symbols caller parsed head (next :: tail)
        else unresolvedCall
    | _ => unresolvedCall

/-! ## Edges -/

/-- The analyzed repository, as the edges record it. -/
structure GraphScope where
  repositoryId : RepositoryId
  indexVersion : Nat
  commitSha : CommitSha
  deriving DecidableEq, Repr

def siteFingerprint (platform : Platform) (site : ParsedCallSite) : String :=
  platform.sha256Hex <| joinText '\x1f'
    [site.filePath, site.callerQualifiedName, site.expression, toString site.startLine,
      toString site.endLine, toString site.startColumn]

def edgeRecord (platform : Platform) (scope : GraphScope) (site : ParsedCallSite)
    (caller : SymbolRecord) (resolution : Resolution) : CallEdgeRecord :=
  let calleeId := resolution.callee.map
    (deterministicSymbolId platform scope.repositoryId scope.indexVersion)
  let callerId := deterministicSymbolId platform scope.repositoryId scope.indexVersion caller
  let fingerprint := siteFingerprint platform site
  { id := platform.uuid5 edgeNamespace <| joinText '\x1f'
      [uuidText scope.repositoryId, toString scope.indexVersion, uuidText callerId, fingerprint]
    callerSymbolId := callerId
    calleeSymbolId := calleeId
    unresolvedCalleeName := if calleeId.isSome then none else some site.expression
    filePath := site.filePath
    callLine := site.startLine
    callEndLine := site.endLine
    callExpression := site.expression
    callSiteFingerprint := fingerprint
    resolutionType := resolution.kind
    confidence := resolution.confidence
    commitSha := scope.commitSha }

/-- The accumulators of the loop over the call sites. -/
structure GraphTally where
  edges : List CallEdgeRecord := []
  ambiguous : Nat := 0
  unresolved : Nat := 0
  exact : Nat := 0
  skipped : Nat := 0
  deriving DecidableEq, Repr

/-- `files[path]`: a later file replaces an earlier one of the same path. -/
def fileAt (parsedFiles : List ParsedFile) (path : String) : Option ParsedFile :=
  parsedFiles.reverse.find? (·.filePath = path)

/-- One turn of the loop. -/
def tallySite (platform : Platform) (unicode : UnicodeTables) (scope : GraphScope)
    (parsedFiles : List ParsedFile) (symbols : List SymbolRecord) (tally : GraphTally)
    (site : ParsedCallSite) : GraphTally :=
  match one (withQualifiedName symbols site.callerQualifiedName),
      fileAt parsedFiles site.filePath with
  | some caller, some parsed =>
      let resolution := resolve unicode symbols site.expression caller parsed
      { tally with
        ambiguous := tally.ambiguous + (decide (resolution.kind = .ambiguous)).toNat
        unresolved := tally.unresolved + (decide (resolution.kind = .unresolved)).toNat
        exact := tally.exact +
          (resolution.callee.isSome && resolution.kind ≠ .probableMethod).toNat
        edges := tally.edges ++ [edgeRecord platform scope site caller resolution] }
  | _, _ => { tally with skipped := tally.skipped + 1 }

/-- The sort key of the builder: a tuple whose texts compare by code points. -/
def codePointKey (edge : CallEdgeRecord) :
    String ×ₗ Nat ×ₗ Nat ×ₗ String ×ₗ String ×ₗ String :=
  toLex (edge.filePath, toLex (edge.callLine, toLex (edge.callEndLine,
    toLex (uuidText edge.callerSymbolId, toLex (edge.callExpression,
      edge.callSiteFingerprint)))))

/-- `sorted(edges, key=...)`. -/
def sortRecords (edges : List CallEdgeRecord) : List CallEdgeRecord :=
  sortOn codePointKey edges

def recordLine (edge : CallEdgeRecord) : String :=
  joinText '\x1f'
    [uuidText edge.id, uuidText edge.callerSymbolId,
      (edge.calleeSymbolId.map uuidText).getD "", edge.callSiteFingerprint,
      edge.resolutionType.value, edge.confidence.value]

def recordsFingerprint (platform : Platform) (edges : List CallEdgeRecord) : String :=
  platform.sha256Hex (joinText '\n' (edges.map recordLine))

def callSiteCountExceeded : Failure := .indexing
  { code := "call_site_count_exceeded"
    safeMessage := "Repository exceeds the configured static call-site limit"
    retryable := false }

def buildTally (platform : Platform) (unicode : UnicodeTables) (scope : GraphScope)
    (parsedFiles : List ParsedFile) (symbols : List SymbolRecord) : GraphTally :=
  (parsedFiles.flatMap (·.callSites)).foldl
    (tallySite platform unicode scope parsedFiles symbols) {}

/-- `PythonCallGraphBuilder.build`. -/
def buildCallGraph (platform : Platform) (unicode : UnicodeTables) (maxTotalCallSites : Nat)
    (scope : GraphScope) (parsedFiles : List ParsedFile) (symbols : List SymbolRecord) :
    Except Failure CallGraph :=
  if (parsedFiles.flatMap (·.callSites)).length > maxTotalCallSites then
    .error callSiteCountExceeded
  else
    let tally := buildTally platform unicode scope parsedFiles symbols
    let ordered := sortRecords tally.edges
    .ok
      { edges := ordered
        callSiteCount := ordered.length
        exactEdgeCount := tally.exact
        ambiguousEdgeCount := tally.ambiguous
        unresolvedCallCount := tally.unresolved
        warningCount := tally.ambiguous + tally.skipped
        fingerprint := recordsFingerprint platform ordered }

end Codenaut.Indexing
