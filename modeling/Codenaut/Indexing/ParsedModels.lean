import Codenaut.Indexing.Models

/-!
# Parsed source files

What the static parser hands to the chunkers and to the graph builder
(`app/indexing/models.py`). Parameters and return annotations of a symbol are
read by neither.
-/

set_option autoImplicit false

namespace Codenaut.Indexing

open Codenaut.Db

inductive ParseStatus where
  | complete
  | partialParse
  | malformed
  | skipped
  deriving DecidableEq, Repr

structure SourceSegment where
  text : String
  startLine : Nat
  endLine : Nat
  nodeType : String
  deriving DecidableEq, Repr

structure ImportAlias where
  name : String
  aliasName : Option String
  deriving DecidableEq, Repr

structure ParsedImport where
  module : Option String
  relativeLevel : Nat
  names : List ImportAlias
  sourceText : String
  startLine : Nat
  endLine : Nat
  deriving DecidableEq, Repr

structure ParsedSymbol where
  filePath : String
  language : String
  symbolType : SymbolType
  name : String
  isAsync : Bool
  qualifiedName : String
  parentQualifiedName : Option String
  decorators : List String
  signature : String
  headerText : String
  headerStartLine : Nat
  headerEndLine : Nat
  docstring : Option String
  sourceText : String
  bodySegments : List SourceSegment
  startLine : Nat
  endLine : Nat
  commitSha : CommitSha
  contentHash : String
  deriving DecidableEq, Repr

structure ParsedCallSite where
  filePath : String
  moduleName : String
  callerQualifiedName : String
  expression : String
  startLine : Nat
  endLine : Nat
  startColumn : Nat := 0
  deriving DecidableEq, Repr

structure ParsedFile where
  filePath : String
  language : String
  moduleName : String
  sourceText : String
  imports : List ParsedImport
  moduleDocstring : Option String
  moduleSegments : List SourceSegment
  symbols : List ParsedSymbol
  callSites : List ParsedCallSite
  commitSha : CommitSha
  parseStatus : ParseStatus
  warnings : List String
  deriving DecidableEq, Repr

end Codenaut.Indexing
