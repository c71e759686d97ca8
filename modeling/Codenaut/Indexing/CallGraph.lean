import Codenaut.Core.Settings
import Codenaut.Indexing.Models
import Mathlib.Data.List.Sort

/-!
# Persisted call graph

Identifiers and the fingerprint of the stored call graph
(`app/indexing/call_graph.py`), with the recomputation that `validate_graph`
makes from the stored rows.
-/

set_option autoImplicit false

namespace Codenaut.Indexing

open Codenaut.Db

/-- What the process and the database server supply: the digest functions of
the standard library and the collation of the database's text columns. -/
structure Platform where
  sha256Hex : String → String
  uuid5 : Nat → String → Nat
  textLe : String → String → Bool

def hexDigit (value : Nat) : Char :=
  "0123456789abcdef".toList.getD value '0'

/-- The lowest `width` hexadecimal digits, most significant first. -/
def hexDigits : Nat → Nat → List Char
  | 0, _ => []
  | width + 1, value => hexDigits width (value / 16) ++ [hexDigit (value % 16)]

/-- `str(uuid)`. -/
def uuidText (uuid : Nat) : String :=
  let digits := hexDigits 32 uuid
  String.intercalate "-"
    [String.ofList (digits.take 8), String.ofList ((digits.drop 8).take 4),
      String.ofList ((digits.drop 12).take 4), String.ofList ((digits.drop 16).take 4),
      String.ofList (digits.drop 20)]

/-- `_SYMBOL_NAMESPACE`. -/
def symbolNamespace : Nat := 0x1b9f66f026764a3eb0da73c9432c74cc

def deterministicSymbolId (platform : Platform) (repositoryId : RepositoryId)
    (indexVersion : Nat) (symbol : SymbolRecord) : SymbolId :=
  platform.uuid5 symbolNamespace <| String.intercalate "\x1f"
    [uuidText repositoryId, toString indexVersion, symbol.filePath, symbol.qualifiedName,
      toString symbol.startLine, symbol.contentHash]

/-- The database's `ORDER BY` on call edges: text columns by the collation,
identifiers and numbers by value. -/
def edgeLe (platform : Platform) (left right : CallEdge) : Bool :=
  let textLt := fun (a b : String) => platform.textLe a b && !platform.textLe b a
  if textLt left.filePath right.filePath then true
  else if textLt right.filePath left.filePath then false
  else if left.callLine ≠ right.callLine then left.callLine ≤ right.callLine
  else if left.callEndLine ≠ right.callEndLine then left.callEndLine ≤ right.callEndLine
  else if left.callerSymbolId ≠ right.callerSymbolId then
    left.callerSymbolId ≤ right.callerSymbolId
  else if textLt left.callExpression right.callExpression then true
  else if textLt right.callExpression left.callExpression then false
  else platform.textLe left.callSiteFingerprint right.callSiteFingerprint

/-- Rows that tie keep their stored order. -/
def orderEdges (platform : Platform) (edges : List CallEdge) : List CallEdge :=
  edges.insertionSort fun left right => edgeLe platform left right = true

def edgeLine (edge : CallEdge) : String :=
  String.intercalate "\x1f"
    [uuidText edge.id, uuidText edge.callerSymbolId,
      (edge.calleeSymbolId.map uuidText).getD "", edge.callSiteFingerprint,
      edge.resolutionType.value, edge.confidence.value]

def graphFingerprint (platform : Platform) (edges : List CallEdge) : String :=
  platform.sha256Hex (String.intercalate "\n" (edges.map edgeLine))

def exactCount (edges : List CallEdge) : Nat :=
  edges.countP fun edge =>
    edge.calleeSymbolId.isSome && edge.resolutionType ≠ .probableMethod

def ambiguousCount (edges : List CallEdge) : Nat :=
  edges.countP fun edge => edge.resolutionType = .ambiguous

def unresolvedCount (edges : List CallEdge) : Nat :=
  edges.countP fun edge => edge.resolutionType = .unresolved

/-- Counts and fingerprint recomputed from ordered rows agree with the build. -/
def graphMatches (platform : Platform) (build : RepositoryIndexBuild)
    (edges : List CallEdge) : Bool :=
  edges.length == build.callSiteCount && exactCount edges == build.exactEdgeCount &&
    ambiguousCount edges == build.ambiguousEdgeCount &&
    unresolvedCount edges == build.unresolvedCallCount &&
    some (graphFingerprint platform edges) == build.graphFingerprint

end Codenaut.Indexing
