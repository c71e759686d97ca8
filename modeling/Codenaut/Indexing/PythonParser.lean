import Codenaut.Indexing.CallGraph
import Codenaut.Indexing.ParsedModels
import Codenaut.Relational.Sorting
import Codenaut.Text.Python

/-!
# Static Python parsing

`PythonStaticParser` (`app/indexing/python_parser.py`) on the syntax tree that
tree-sitter returns. Offsets of nodes count bytes and lie on character
boundaries; rows and columns count from zero.
-/

set_option autoImplicit false

namespace Codenaut.Indexing

open Codenaut.Db Codenaut.Relational Codenaut.Text

/-! ## Syntax trees -/

structure Point where
  row : Nat
  column : Nat
  deriving DecidableEq, Repr

/-- A node without its children. `fieldName` is its field in its parent. -/
structure NodeInfo where
  type : String
  isNamed : Bool := true
  fieldName : Option String := none
  startByte : Nat
  endByte : Nat
  startPoint : Point
  endPoint : Point
  hasError : Bool := false
  deriving DecidableEq, Repr

inductive Node where
  | node (info : NodeInfo) (children : List Node)

namespace Node

def info : Node → NodeInfo
  | node info _ => info

def children : Node → List Node
  | node _ children => children

def type (node : Node) : String :=
  node.info.type

def namedChildren (node : Node) : List Node :=
  node.children.filter (·.info.isNamed)

def childByFieldName (node : Node) (name : String) : Option Node :=
  node.children.find? (·.info.fieldName = some name)

theorem sizeOf_children (node : Node) : sizeOf node.children < sizeOf node := by
  cases node
  simp only [children, node.sizeOf_spec]
  omega

theorem sizeOf_filter_le (keep : Node → Bool) (nodes : List Node) :
    sizeOf (nodes.filter keep) ≤ sizeOf nodes := by
  induction nodes with
  | nil => simp
  | cons node rest ih =>
      rw [List.filter_cons]
      split
      · simp only [List.cons.sizeOf_spec]
        omega
      · simp only [List.cons.sizeOf_spec]
        omega

theorem sizeOf_namedChildren (node : Node) : sizeOf node.namedChildren < sizeOf node :=
  Nat.lt_of_le_of_lt (sizeOf_filter_le _ _) node.sizeOf_children

theorem sizeOf_childByFieldName {node child : Node} {name : String}
    (found : node.childByFieldName name = some child) : sizeOf child < sizeOf node :=
  Nat.lt_trans (List.sizeOf_lt_of_mem (List.mem_of_find?_eq_some found)) node.sizeOf_children

end Node

/-! ## Source text -/

/-- The characters in the first `count` bytes. -/
def takeBytes : Nat → List Char → List Char
  | 0, _ => []
  | _ + 1, [] => []
  | count + 1, char :: rest => char :: takeBytes (count + 1 - char.utf8Size) rest

/-- The characters after the first `count` bytes. -/
def dropBytes : Nat → List Char → List Char
  | 0, text => text
  | _ + 1, [] => []
  | count + 1, char :: rest => dropBytes (count + 1 - char.utf8Size) rest

/-- `_text_range`. -/
def textRange (start stop : Nat) (source : List Char) : List Char :=
  takeBytes (stop - start) (dropBytes start source)

/-- `_text`. -/
def nodeText (node : Node) (source : List Char) : String :=
  String.ofList (textRange node.info.startByte node.info.endByte source)

/-- `_module_name`. -/
def moduleNameOf (filePath : String) : String :=
  let parts := (posixParts filePath).dropLast ++
    (if pathName filePath = "" then [] else [pathStem filePath])
  let kept := if parts.getLast? = some "__init__" then parts.dropLast else parts
  if kept = [] then pathStem filePath else joinText '.' kept

/-! ## Definitions -/

structure PythonStaticParser where
  maxSymbols : Nat
  maxWarnings : Nat
  maxCallSites : Nat := 10000
  maxCallExpressionBytes : Nat := 2048
  deriving DecidableEq, Repr

/-- The arguments that every extraction of one file shares. -/
structure SourceFile where
  filePath : String
  moduleName : String
  commitSha : CommitSha
  source : List Char
  deriving DecidableEq, Repr

/-- `node.type in DEFINITION_TYPES`. -/
def isDefinition (node : Node) : Bool :=
  node.type = "function_definition" ∨ node.type = "class_definition"

/-- `_segments`. -/
def segmentsOf (nodes : List Node) (source : List Char) : List SourceSegment :=
  nodes.map fun node =>
    { text := nodeText node source
      startLine := node.info.startPoint.row + 1
      endLine := node.info.endPoint.row + 1
      nodeType := node.type }

/-- `_docstring`. -/
def docstringOf (container : Node) (source : List Char) : Option String :=
  match container.namedChildren with
  | [] => none
  | first :: _ =>
      if first.type ≠ "expression_statement" then none
      else
        match first.namedChildren with
        | [] => none
        | value :: _ =>
            if value.type = "string" ∨ value.type = "concatenated_string" then
              some (nodeText value source)
            else none

/-- The type that a definition gets below its innermost enclosing definition. -/
def symbolTypeOf (definition : Node) (parent : Option ParsedSymbol) : SymbolType :=
  if definition.type = "class_definition" then .classType
  else if parent.any (·.symbolType = .classType) then .method
  else if definition.type = "function_definition" ∧
      definition.children.any (·.type = "async") then .asyncFunction
  else .function

def qualifiedNameOf (file : SourceFile) (parents : List ParsedSymbol) (name : String) : String :=
  joinText '.' (file.moduleName :: parents.map (·.name) ++ [name])

/-- `_symbol`. -/
def symbolOf (platform : Platform) (file : SourceFile) (wrapper definition : Node)
    (decorators : List String) (parents : List ParsedSymbol) : Option ParsedSymbol :=
  match definition.childByFieldName "name", definition.childByFieldName "body" with
  | some nameNode, some body =>
      let name := nodeText nameNode file.source
      let parent := parents.getLast?
      let signature := rstrip <|
        textRange definition.info.startByte body.info.startByte file.source
      let header := rstrip <| textRange wrapper.info.startByte body.info.startByte file.source
      let sourceText := nodeText wrapper file.source
      some
        { filePath := file.filePath
          language := "python"
          symbolType := symbolTypeOf definition parent
          name := name
          isAsync := definition.type = "function_definition" ∧
            definition.children.any (·.type = "async")
          qualifiedName := qualifiedNameOf file parents name
          parentQualifiedName := parent.map (·.qualifiedName)
          decorators := decorators
          signature := String.ofList signature
          headerText := String.ofList header
          headerStartLine := wrapper.info.startPoint.row + 1
          headerEndLine := definition.info.startPoint.row + 1 + signature.count '\n'
          docstring := docstringOf body file.source
          sourceText := sourceText
          bodySegments := segmentsOf body.namedChildren file.source
          startLine := wrapper.info.startPoint.row + 1
          endLine := wrapper.info.endPoint.row + 1
          commitSha := file.commitSha
          contentHash := platform.sha256Hex sourceText }
  | _, _ => none

/-- The definition that a child of the walk is, bare or decorated. A decorated
node without its definition is passed over, and other nodes are searched. -/
inductive ChildView where
  | passedOver
  | definition (node : Node)
  | searched

def childView (child : Node) : ChildView :=
  if child.type = "decorated_definition" then
    match child.childByFieldName "definition" with
    | none => .passedOver
    | some candidate => if isDefinition candidate then .definition candidate else .searched
  else if isDefinition child then .definition child
  else .searched

def decoratorsOf (child : Node) (source : List Char) : List String :=
  if child.type = "decorated_definition" then
    (child.namedChildren.filter (·.type = "decorator")).map (nodeText · source)
  else []

/-- What `_walk_definitions` does with a child: nothing, walk the nodes below
it, or emit a symbol and walk the nodes of its body. -/
inductive Visit where
  | skip
  | descend (nodes : List Node)
  | emit (symbol : ParsedSymbol) (nodes : List Node)

def visit (platform : Platform) (file : SourceFile) (parents : List ParsedSymbol)
    (child : Node) : Visit :=
  match childView child with
  | .passedOver => .skip
  | .searched => .descend child.namedChildren
  | .definition definition =>
      match symbolOf platform file child definition (decoratorsOf child file.source) parents with
      | none => .skip
      | some symbol =>
          .emit symbol ((definition.childByFieldName "body").elim [] (·.namedChildren))

/-- The nodes that are walked below a child. -/
def Visit.nodes : Visit → List Node
  | .skip => []
  | .descend nodes => nodes
  | .emit _ nodes => nodes

/-- A node that is viewed as a definition is one, or decorates it. -/
theorem childView_cases {child definition : Node}
    (view : childView child = .definition definition) :
    isDefinition definition = true ∧ (child = definition ∨
      child.type = "decorated_definition" ∧
        child.childByFieldName "definition" = some definition) := by
  unfold childView at view
  split at view
  · next decorated =>
      split at view
      · cases view
      · next candidate found =>
          split at view
          · next defined =>
              cases view
              exact ⟨defined, .inr ⟨decorated, found⟩⟩
          · cases view
  · split at view
    · next defined =>
        cases view
        exact ⟨defined, .inl rfl⟩
    · cases view

theorem sizeOf_childView {child definition : Node}
    (view : childView child = .definition definition) : sizeOf definition ≤ sizeOf child := by
  obtain ⟨-, rfl | ⟨-, found⟩⟩ := childView_cases view
  · exact Nat.le_refl _
  · exact Nat.le_of_lt (Node.sizeOf_childByFieldName found)

theorem sizeOf_pos (node : Node) : 1 < sizeOf node := by
  cases node
  simp only [Node.node.sizeOf_spec]
  have : 0 < sizeOf (‹NodeInfo›) := by
    cases ‹NodeInfo›
    simp only [NodeInfo.mk.sizeOf_spec]
    omega
  omega

theorem sizeOf_visit (platform : Platform) (file : SourceFile) (parents : List ParsedSymbol)
    (child : Node) : sizeOf (visit platform file parents child).nodes < sizeOf child := by
  have positive := sizeOf_pos child
  unfold visit
  split
  · simpa [Visit.nodes] using positive
  · exact child.sizeOf_namedChildren
  case h_3 definition view =>
    split
    · simpa [Visit.nodes] using positive
    · cases found : definition.childByFieldName "body" with
      | none => simpa [Visit.nodes] using positive
      | some body =>
          have below := body.sizeOf_namedChildren
          have inside := Node.sizeOf_childByFieldName found
          have within := sizeOf_childView view
          simp only [Visit.nodes, Option.elim_some]
          omega

/-- `_walk_definitions` over the named children that are left, with the output
so far. -/
def walkDefinitions (parser : PythonStaticParser) (platform : Platform) (file : SourceFile)
    (parents output : List ParsedSymbol) : List Node → List ParsedSymbol
  | [] => output
  | child :: rest =>
      if output.length > parser.maxSymbols then output
      else
        let walked :=
          match _visited : visit platform file parents child with
          | .skip => output
          | .descend nodes => walkDefinitions parser platform file parents output nodes
          | .emit symbol nodes =>
              walkDefinitions parser platform file (parents ++ [symbol]) (output ++ [symbol]) nodes
        walkDefinitions parser platform file parents walked rest
termination_by nodes => sizeOf nodes
decreasing_by
  all_goals
    have below := sizeOf_visit platform file parents child
    simp only [*, Visit.nodes, List.cons.sizeOf_spec] at *
    omega

/-! ## Call sites -/

def isCallable (symbol : ParsedSymbol) : Bool :=
  symbol.symbolType = .function ∨ symbol.symbolType = .asyncFunction ∨
    symbol.symbolType = .method

/-- `min(containing, key=...)`: the first of the shortest, the latest start
before an earlier one. -/
def innermost (symbols : List ParsedSymbol) : Option ParsedSymbol :=
  (sortOn (fun symbol => toLex ((symbol.endLine : Int) - symbol.startLine,
    -(symbol.startLine : Int))) symbols).head?

def callerAt (symbols : List ParsedSymbol) (line : Nat) : Option ParsedSymbol :=
  innermost <| (symbols.filter isCallable).filter fun symbol =>
    symbol.headerEndLine ≤ line ∧ line ≤ symbol.endLine

/-- What a visited node adds to the result. -/
inductive SiteView where
  | none
  | site (site : ParsedCallSite)
  | tooLarge

def siteOf (parser : PythonStaticParser) (file : SourceFile) (symbols : List ParsedSymbol)
    (node : Node) : SiteView :=
  if node.type = "call" then
    let line := node.info.startPoint.row + 1
    match node.childByFieldName "function", callerAt symbols line with
    | some function, some caller =>
        let expression := nodeText function file.source
        if expression.utf8ByteSize ≤ parser.maxCallExpressionBytes then
          .site
            { filePath := file.filePath
              moduleName := file.moduleName
              callerQualifiedName := caller.qualifiedName
              expression := expression
              startLine := line
              endLine := node.info.endPoint.row + 1
              startColumn := node.info.startPoint.column }
        else .tooLarge
    | _, _ => .none
  else .none

theorem sizeOf_append_le (left right : List Node) :
    sizeOf (left ++ right) < sizeOf left + sizeOf right := by
  induction left with
  | nil => simp
  | cons node rest ih =>
      simp only [List.cons_append, List.cons.sizeOf_spec]
      omega

/-- The loop of `_extract_call_sites`. The stack is `pending`, its top first;
`none` when a file has too many call sites. -/
def collectCallSites (parser : PythonStaticParser) (file : SourceFile)
    (symbols : List ParsedSymbol) (result : List ParsedCallSite) (warnings : List String) :
    List Node → Option (List ParsedCallSite × List String)
  | [] => some (result, warnings)
  | node :: pending =>
      let next := match siteOf parser file symbols node with
        | .none => (result, warnings)
        | .site site => (result ++ [site], warnings)
        | .tooLarge => (result, warnings ++ ["call_expression_too_large"])
      if next.1.length > parser.maxCallSites then none
      else collectCallSites parser file symbols next.1 next.2 (node.namedChildren ++ pending)
termination_by nodes => sizeOf nodes
decreasing_by
  have := node.sizeOf_namedChildren
  have := sizeOf_append_le node.namedChildren pending
  simp only [List.cons.sizeOf_spec]
  omega

/-- `_extract_call_sites`. -/
def extractCallSites (parser : PythonStaticParser) (file : SourceFile)
    (symbols : List ParsedSymbol) (root : Node) : List ParsedCallSite × List String :=
  match collectCallSites parser file symbols [] [] [root] with
  | none => ([], ["call_site_count_exceeded"])
  | some (result, warnings) =>
      (sortOn (fun site => toLex (site.startLine, toLex (site.endLine,
        toLex (site.callerQualifiedName, site.expression)))) result, warnings)

/-! ## Imports -/

/-- The names that one child of an import node binds. A child in the field
`name` is never the node of the field `module_name`. -/
def importedNames (node child : Node) (source : List Char) : List ImportAlias :=
  if child.info.fieldName ≠ some "name" ∧ node.type = "import_from_statement" then []
  else if !child.info.isNamed then []
  else if child.type = "aliased_import" then
    match child.childByFieldName "name" with
    | none => []
    | some nameNode =>
        [{ name := nodeText nameNode source
           aliasName := (child.childByFieldName "alias").map (nodeText · source) }]
  else if child.type = "dotted_name" ∨ child.type = "identifier" ∨
      child.type = "wildcard_import" then
    [{ name := nodeText child source, aliasName := none }]
  else []

/-- `_import`. -/
def importOf (node : Node) (source : List Char) : ParsedImport :=
  let moduleText := (node.childByFieldName "module_name").map (nodeText · source)
  let level := moduleText.map fun text => (text.toList.takeWhile (· = '.')).length
  { module := (moduleText.map fun text =>
      String.ofList (text.toList.dropWhile (· = '.'))).filter (· ≠ "")
    relativeLevel := level.getD 0
    names := node.children.flatMap (importedNames node · source)
    sourceText := nodeText node source
    startLine := node.info.startPoint.row + 1
    endLine := node.info.endPoint.row + 1 }

/-- The loop of `_extract_imports`; import nodes are not searched. -/
def collectImports (source : List Char) : List Node → List ParsedImport
  | [] => []
  | node :: pending =>
      if node.type = "import_statement" ∨ node.type = "import_from_statement" then
        importOf node source :: collectImports source pending
      else collectImports source (node.namedChildren ++ pending)
termination_by nodes => sizeOf nodes
decreasing_by
  · simp only [List.cons.sizeOf_spec]
    omega
  · have := node.sizeOf_namedChildren
    have := sizeOf_append_le node.namedChildren pending
    simp only [List.cons.sizeOf_spec]
    omega

/-- `_extract_imports`. -/
def extractImports (root : Node) (source : List Char) : List ParsedImport :=
  sortOn (fun item => toLex (item.startLine, toLex (item.endLine, item.sourceText)))
    (collectImports source [root])

/-! ## Files -/

/-- The statements of a module outside its definitions and imports. -/
def isModuleStatement (child : Node) : Bool :=
  !isDefinition child && child.type ≠ "decorated_definition" &&
    child.type ≠ "import_statement" && child.type ≠ "import_from_statement"

def skippedFile (file : SourceFile) : ParsedFile where
  filePath := file.filePath
  language := "python"
  moduleName := file.moduleName
  sourceText := ""
  imports := []
  moduleDocstring := none
  moduleSegments := []
  symbols := []
  callSites := []
  commitSha := file.commitSha
  parseStatus := .skipped
  warnings := ["symbol_count_exceeded"]

/-- `PythonStaticParser.parse` on the tree of the normalized text. -/
def parseTree (parser : PythonStaticParser) (platform : Platform) (file : SourceFile)
    (root : Node) : ParsedFile :=
  let imports := extractImports root file.source
  let symbols := walkDefinitions parser platform file [] [] root.namedChildren
  if symbols.length > parser.maxSymbols then skippedFile file
  else
    let moduleSegments := segmentsOf (root.namedChildren.filter isModuleStatement) file.source
    let (callSites, callWarnings) := extractCallSites parser file symbols root
    let malformed := if root.info.hasError then ["malformed_python"] else []
    { filePath := file.filePath
      language := "python"
      moduleName := file.moduleName
      sourceText := String.ofList file.source
      imports := imports
      moduleDocstring := docstringOf root file.source
      moduleSegments := moduleSegments
      symbols := sortOn (fun symbol => toLex (symbol.startLine,
        toLex (symbol.endLine, symbol.qualifiedName))) symbols
      callSites := callSites
      commitSha := file.commitSha
      parseStatus :=
        if !root.info.hasError then .complete
        else if symbols ≠ [] ∨ imports ≠ [] ∨ moduleSegments ≠ [] then .partialParse
        else .malformed
      warnings := (malformed ++ callWarnings).take parser.maxWarnings }

def sourceFile (filePath : String) (sourceText : List Char) (commitSha : CommitSha) :
    SourceFile where
  filePath := filePath
  moduleName := moduleNameOf filePath
  commitSha := commitSha
  source := normalizeNewlines sourceText

/-- `PythonStaticParser.parse`; `treeSitter` is the parser library. -/
def parsePython (parser : PythonStaticParser) (platform : Platform)
    (treeSitter : List Char → Node) (filePath : String) (sourceText : List Char)
    (commitSha : CommitSha) : ParsedFile :=
  let file := sourceFile filePath sourceText commitSha
  parseTree parser platform file (treeSitter file.source)

end Codenaut.Indexing
